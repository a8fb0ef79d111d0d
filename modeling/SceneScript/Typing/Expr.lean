import SceneScript.Typing.Scope

/-!
# Typing expressions

`typeOf` gives every expression a type and reports what is wrong with it. An expression in
which a problem is found has type `unknown` where no better type is known, and `unknown` goes
with everything, so checking carries on without repeating itself.

The types of the parts come from left to right; the problems of an operator, a call or a
struct literal follow those of its operands.
-/

namespace SceneScript

/-- What a call of a function has to match. -/
structure Signature where
  name    : Text
  params  : List TypedName
  returns : Ty
deriving DecidableEq, Repr

/-- What an expression can refer to. In the initializer of a global no function of the script
    may be called. -/
structure Surroundings where
  functions    : List Signature
  signals      : List Signal
  initializing : Bool
  scope        : Scope

namespace Surroundings

/-- The function of the script that has a name. -/
def function? (s : Surroundings) (name : Text) : Option Signature :=
  s.functions.find? fun f => f.name == name

/-- The signal that has a name. -/
def signal? (s : Surroundings) (name : Text) : Option Signal :=
  s.signals.find? fun d => d.name == name

/-- The names of all functions that can be called. -/
def callable (s : Surroundings) : List Text :=
  s.functions.map Signature.name ++ Builtin.all.map fun b => Text.ofString b.word

end Surroundings

/-- The variable that a name means, reported when there is none. -/
def lookupVariable (scope : Scope) (id : Ident) : Check (Option Variable) := do
  match scope.find? id.name with
  | some v => return some v
  | none   =>
      Check.report id.span (.undefinedVariable id.name scope.names)
      return none

/-- The type of a field, reported when there is none. -/
def fieldType (base : Ty) (field : Ident) : Check Ty := do
  if base = .unknown then return .unknown
  if base.fields.isEmpty then
    Check.report field.span (.noFields field.name base)
    return .unknown
  match base.fieldNamed? field.name with
  | some t => return t
  | none   =>
      Check.report field.span (.unknownField field.name base)
      return .unknown

/-- The type of a prefix operator applied to an operand. -/
def unaryType (op : UnaryOp) (t : Ty) (span : Span) : Check Ty := do
  if t = .unknown then return .unknown
  match op with
  | .neg => if t.isNumeric then return t
  | .not => if t = .bool then return .bool
  Check.report span (.unaryOperand op t)
  return .unknown

/-- The type of an operator between two operands. Comparisons and logical operators are `bool`
    whatever their operands. -/
def binaryType (op : BinaryOp) (l r : Ty) (span : Span) : Check Ty := do
  let vague := l = .unknown ∨ r = .unknown
  let numeric := l.isNumeric && r.isNumeric
  match op with
  | .add =>
      if l = .string ∧ r = .string then return .string
      if vague then return .unknown
      if numeric then return l.numericResult r
  | .sub | .mul | .div =>
      if vague then return .unknown
      if numeric then return l.numericResult r
  | .lt | .le | .gt | .ge =>
      if vague ∨ numeric then return .bool
  | .eq | .ne =>
      Check.reportIf (!l.comparable r) span (.notComparable op l r)
      return .bool
  | .and | .or =>
      Check.reportIf (!decide (vague ∨ (l = .bool ∧ r = .bool))) span (.notBoolean op l r)
      return .bool
  Check.report span (.binaryOperands op l r)
  return .unknown

/-- Reports every argument that does not fit its parameter. -/
def checkFits (problem : TypedName → Ty → Problem) :
    List TypedName → List (Span × Ty) → Check Unit
  | p :: ps, (span, t) :: rest => do
      Check.reportIf (!t.assignable p.type) span (problem p t)
      checkFits problem ps rest
  | _, _ => return ()

/-- Checks the arguments of a call against parameters. -/
def checkArguments (function : Text) (params : List TypedName) (span : Span)
    (args : List (Span × Ty)) : Check Unit := do
  if args.length ≠ params.length then
    Check.report span (.argumentCount function params.length args.length)
  else
    checkFits (fun p t => .argumentType p.name function p.type t) params args

/-- Checks the arguments of an emission against the declaration of its signal. -/
def checkEmission (s : Surroundings) (span nameSpan : Span) (name : Text)
    (args : List (Span × Ty)) : Check Unit := do
  match s.signal? name with
  | none => Check.report nameSpan (.undefinedSignal name (s.signals.map Signal.name))
  | some signal =>
      if args.length ≠ signal.params.length then
        Check.report span (.signalArgumentCount name signal.params.length args.length)
      else
        checkFits (fun p t => .signalArgumentType p.name name p.type t) signal.params args

/-- Checks the fields of a struct literal in order, given the names that stand before. -/
def checkFields (type : Ty) : List Text → List (Ident × Span × Ty) → Check Unit
  | _, [] => return ()
  | seen, (field, span, found) :: rest => do
      if field.name ∈ seen then
        Check.report field.span (.duplicateField field.name type)
        checkFields type seen rest
      else
        match type.fieldNamed? field.name with
        | none          => Check.report field.span (.unknownStructField field.name type)
        | some expected =>
            Check.reportIf (!found.assignable expected) span
              (.structFieldType field.name type expected found)
        checkFields type (field.name :: seen) rest

/-- The type of a struct literal whose field values have the given types. -/
def structType (span : Span) (name : Ident) (fields : List (Ident × Span × Ty)) : Check Ty := do
  match Ty.ofText? name.name with
  | none =>
      Check.report name.span (.unknownStruct name.name)
      return .unknown
  | some type =>
      if !type.isStruct then
        Check.report name.span (.notAStruct type)
        return .unknown
      checkFields type [] fields
      let missing := type.fieldNames.filter fun f => !(fields.any fun e => e.1.name == f)
      Check.reportIf (!missing.isEmpty) span (.missingFields type missing)
      return type

mutual

/-- The type of an expression. -/
def typeOf (s : Surroundings) : Expr → Check Ty
  | .int _ _ _   => return .i32
  | .float _ _ _ => return .f32
  | .bool _ _    => return .bool
  | .string _ _  => return .string
  | .self _      => return .node
  | .ident id    => do
      match ← lookupVariable s.scope id with
      | some v =>
          Check.note (.read v.id)
          return v.type
      | none => return .unknown
  | .field _ object name => do
      let base ← typeOf s object
      fieldType base name
  | .unary span op arg => do
      let t ← typeOf s arg
      unaryType op t span
  | .binary span op left right => do
      let l ← typeOf s left
      let r ← typeOf s right
      binaryType op l r span
  | .struct span name fields => do
      let types ← fieldTypes s fields
      structType span name types
  | .call span callee args =>
      match Builtin.ofText? callee.name with
      | some .print => do
          printTypes s args
          return .void
      | some .emitSignal => do
          match args with
          | [] => Check.report span .emitWithoutName
          | first :: rest =>
              let types ← typesOf s rest
              match first with
              | .string nameSpan name => checkEmission s span nameSpan name types
              | _ =>
                  let _ ← typeOf s first
                  Check.report first.span .emitNameNotLiteral
          return .void
      | some builtin => do
          let types ← typesOf s args
          match builtin.params? with
          | some params => checkArguments callee.name params span types
          | none        => pure ()
          return builtin.returns
      | none =>
          match s.function? callee.name with
          | none => do
              let _ ← typesOf s args
              Check.report callee.span (.undefinedFunction callee.name s.callable)
              return .unknown
          | some f => do
              Check.reportIf s.initializing callee.span (.callInInitializer callee.name)
              let types ← typesOf s args
              checkArguments callee.name f.params span types
              return f.returns

/-- The types of expressions, with their places. -/
def typesOf (s : Surroundings) : List Expr → Check (List (Span × Ty))
  | []      => return []
  | e :: es => do
      let t ← typeOf s e
      let ts ← typesOf s es
      return (e.span, t) :: ts

/-- The types of the values of struct fields, with their names and places. -/
def fieldTypes (s : Surroundings) : List (Ident × Expr) → Check (List (Ident × Span × Ty))
  | []                => return []
  | (name, e) :: rest => do
      let t ← typeOf s e
      let ts ← fieldTypes s rest
      return (name, e.span, t) :: ts

/-- Checks what is printed: anything but `void`. -/
def printTypes (s : Surroundings) : List Expr → Check Unit
  | []      => return ()
  | e :: es => do
      let t ← typeOf s e
      Check.reportIf (t == .void) e.span .printVoid
      printTypes s es

end

/-- The type that a script writes, without reporting; `unknown` when there is none. -/
def writtenType (ref : TypeRef) : Ty := (Ty.ofText? ref.name).getD .unknown

/-- The type that a script writes; `void` only where it is allowed. -/
def resolveType (ref : TypeRef) (allowVoid : Bool) : Check Ty := do
  let t := writtenType ref
  if t = .unknown then
    Check.report ref.span (.undefinedType ref.name)
    return .unknown
  if t = .void ∧ !allowVoid then
    Check.report ref.span .voidType
    return .unknown
  return t

/-- The type of a binding from its written type and its initializer. -/
def bindingType (s : Surroundings) (declared : Option TypeRef) (init : Expr) (name : Text) :
    Check Ty := do
  let found ← typeOf s init
  match declared with
  | some ref =>
      let t ← resolveType ref false
      Check.reportIf (!found.assignable t) init.span (.initMismatch name t found)
      return t
  | none =>
      if found = .void then
        Check.report init.span (.voidInit name)
        return .unknown
      return found

end SceneScript
