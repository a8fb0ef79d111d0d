import SceneScript.Property
import SceneScript.Builtin
import SceneScript.Suggest

/-!
# Problem — what can be wrong with a script of the right shape

Each cause that the checker reports is one constructor; its code, its wording and its hint are
functions of the cause. A cause that may propose another name carries the names to choose
from.
-/

namespace SceneScript

/-- The statements that have a condition. -/
inductive Conditional where
  | ifTest | whileTest
deriving DecidableEq, Repr

/-- The word of a conditional statement. -/
def Conditional.word : Conditional → String
  | .ifTest    => "if"
  | .whileTest => "while"

/-- What the checker finds wrong. -/
inductive Problem where
  | duplicateSignal (signal : Text)
  | duplicateSignalParam (param signal : Text)
  | builtinRedefined (function : Text)
  | duplicateFunction (function : Text)
  | duplicateGlobal (name : Text)
  | duplicateParam (param function : Text)
  | duplicateLocal (name : Text)
  | lifecycleSignature (callback : Lifecycle)
  | initMismatch (name : Text) (declared found : Ty)
  | voidInit (name : Text)
  | exportImmutable (name : Text)
  | exportType (type : Ty)
  | exportNotConstant (name : Text)
  | defaultNotListed (name : Text) (type : Ty) (values : List Text)
  | optionsHintType (type : Ty)
  | fileHintType (type : Ty)
  | rangeHintType (type : Ty)
  | unknownHint (hint : Text)
  | rangeArity (found : Nat)
  | rangeArgument (type : Ty)
  | rangeReversed (min max : Binary64)
  | rangeStep
  | hintWithoutValues (hint : Text)
  | hintValue (hint : Text)
  | missingReturn (function : Text) (type : Ty)
  | returnWithoutValue (function : Text) (type : Ty)
  | returnFromVoid (function : Text) (found : Ty)
  | returnMismatch (expected found : Ty)
  | conditionType (statement : Conditional) (found : Ty)
  | assignSelf
  | assignImmutable (op : AssignOp) (name : Text) (isParam : Bool)
  | assignMismatch (op : AssignOp) (target : Text) (expected found : Ty)
  | combineOperands (op : AssignOp) (target value : Ty)
  | unaryOperand (op : UnaryOp) (found : Ty)
  | notComparable (op : BinaryOp) (left right : Ty)
  | notBoolean (op : BinaryOp) (left right : Ty)
  | binaryOperands (op : BinaryOp) (left right : Ty)
  | noFields (field : Text) (type : Ty)
  | unknownField (field : Text) (type : Ty)
  | printVoid
  | undefinedFunction (function : Text) (known : List Text)
  | callInInitializer (function : Text)
  | argumentCount (function : Text) (expected found : Nat)
  | argumentType (param function : Text) (expected found : Ty)
  | emitWithoutName
  | emitNameNotLiteral
  | undefinedSignal (signal : Text) (known : List Text)
  | signalArgumentCount (signal : Text) (expected found : Nat)
  | signalArgumentType (param signal : Text) (expected found : Ty)
  | notAStruct (type : Ty)
  | unknownStruct (name : Text)
  | duplicateField (field : Text) (type : Ty)
  | unknownStructField (field : Text) (type : Ty)
  | structFieldType (field : Text) (type expected found : Ty)
  | missingFields (type : Ty) (missing : List Text)
  | undefinedVariable (name : Text) (visible : List Text)
  | undefinedType (name : Text)
  | voidType
deriving DecidableEq, Repr

namespace Problem

/-- The registered code. -/
def code : Problem → String
  | .duplicateSignal _          => "E301"
  | .duplicateSignalParam _ _   => "E208"
  | .builtinRedefined _         => "E208"
  | .duplicateFunction _        => "E208"
  | .duplicateGlobal _          => "E208"
  | .duplicateParam _ _         => "E208"
  | .duplicateLocal _           => "E208"
  | .lifecycleSignature _       => "E305"
  | .initMismatch _ _ _         => "E200"
  | .voidInit _                 => "E218"
  | .exportImmutable _          => "E812"
  | .exportType _               => "E801"
  | .exportNotConstant _        => "E813"
  | .defaultNotListed _ _ _     => "E807"
  | .optionsHintType _          => "E803"
  | .fileHintType _             => "E804"
  | .rangeHintType _            => "E802"
  | .unknownHint _              => "E806"
  | .rangeArity _               => "E805"
  | .rangeArgument _            => "E805"
  | .rangeReversed _ _          => "E805"
  | .rangeStep                  => "E805"
  | .hintWithoutValues _        => "E808"
  | .hintValue _                => "E808"
  | .missingReturn _ _          => "E206"
  | .returnWithoutValue _ _     => "E206"
  | .returnFromVoid _ _         => "E206"
  | .returnMismatch _ _         => "E206"
  | .conditionType _ _          => "E211"
  | .assignSelf                 => "E217"
  | .assignImmutable .set _ _   => "E207"
  | .assignImmutable _ _ _      => "E216"
  | .assignMismatch _ _ _ _     => "E219"
  | .combineOperands _ _ _      => "E212"
  | .unaryOperand _ _           => "E213"
  | .notComparable _ _ _        => "E212"
  | .notBoolean _ _ _           => "E212"
  | .binaryOperands _ _ _       => "E212"
  | .noFields _ _               => "E209"
  | .unknownField _ _           => "E215"
  | .printVoid                  => "E205"
  | .undefinedFunction _ _      => "E202"
  | .callInInitializer _        => "E220"
  | .argumentCount _ _ _        => "E204"
  | .argumentType _ _ _ _       => "E205"
  | .emitWithoutName            => "E204"
  | .emitNameNotLiteral         => "E205"
  | .undefinedSignal _ _        => "E302"
  | .signalArgumentCount _ _ _  => "E303"
  | .signalArgumentType _ _ _ _ => "E304"
  | .notAStruct _               => "E700"
  | .unknownStruct _            => "E700"
  | .duplicateField _ _         => "E702"
  | .unknownStructField _ _     => "E703"
  | .structFieldType _ _ _ _    => "E704"
  | .missingFields _ _          => "E701"
  | .undefinedVariable _ _      => "E201"
  | .undefinedType _            => "E203"
  | .voidType                   => "E200"

/-- `argument` or `arguments`. -/
def argumentsWord (count : Nat) : String := if count = 1 then "argument" else "arguments"

/-- Names separated by commas. -/
def commaList (names : List Text) : Text := .join ", " names

/-- The wording. -/
def message : Problem → Text
  | .duplicateSignal s => "Signal '" ++ s ++ "' is already declared"
  | .duplicateSignalParam p s => "Duplicate parameter '" ++ p ++ "' in signal '" ++ s ++ "'"
  | .builtinRedefined f => "Function '" ++ f ++ "' conflicts with a built-in function"
  | .duplicateFunction f => "Function '" ++ f ++ "' is already defined"
  | .duplicateGlobal n => "Global variable '" ++ n ++ "' is already defined"
  | .duplicateParam p f => "Duplicate parameter '" ++ p ++ "' in function '" ++ f ++ "'"
  | .duplicateLocal n => "Variable '" ++ n ++ "' is already defined in this scope"
  | .lifecycleSignature k => s!"Lifecycle function '{k.functionName}' has the wrong signature"
  | .initMismatch n declared found =>
      "Type mismatch: '" ++ n ++
        s!"' is declared as {declared} but initialized with {found}"
  | .voidInit n => "Cannot infer a type for '" ++ n ++ "' from a void expression"
  | .exportImmutable n => "Exported variable '" ++ n ++ "' must be mutable"
  | .exportType t => s!"Type {t} cannot be exported"
  | .exportNotConstant n =>
      "Default value of exported variable '" ++ n ++ "' must be a compile-time constant"
  | .defaultNotListed n _ _ => "Default value of '" ++ n ++ "' is not one of the enum values"
  | .optionsHintType t => s!"enum() hint requires an i32 or String property, found {t}"
  | .fileHintType t => s!"file() hint requires a String property, found {t}"
  | .rangeHintType t => s!"range() hint requires an i32 or f32 property, found {t}"
  | .unknownHint h => "Unknown export hint '" ++ h ++ "'"
  | .rangeArity n => s!"range() expects 2 or 3 arguments (min, max, step), found {n}"
  | .rangeArgument .i32 => "range() arguments of an i32 property must be integer constants"
  | .rangeArgument _ => "range() arguments must be numeric constants"
  | .rangeReversed lo hi =>
      s!"range() minimum {numberText lo} is greater than maximum {numberText hi}"
  | .rangeStep => "range() step must be greater than zero"
  | .hintWithoutValues h => h ++ "() needs at least one value"
  | .hintValue h => h ++ "() values must be non-empty string literals without ','"
  | .missingReturn f t => "Function '" ++ f ++ s!"' must return a value of type {t} on every path"
  | .returnWithoutValue f t => "Function '" ++ f ++ s!"' must return a value of type {t}"
  | .returnFromVoid f t => "Function '" ++ f ++ s!"' returns void but a value of type {t} is returned"
  | .returnMismatch expected found =>
      s!"Return type mismatch: expected {expected}, found {found}"
  | .conditionType s t => s!"Condition of '{s.word}' must be bool, found {t}"
  | .assignSelf => "Cannot assign to 'self'"
  | .assignImmutable .set n _ => "Cannot assign to immutable variable '" ++ n ++ "'"
  | .assignImmutable op n _ => s!"Cannot use '{op.symbol}' on immutable variable '" ++ n ++ "'"
  | .assignMismatch .set target expected found =>
      s!"Cannot assign a value of type {found} to '" ++ target ++ s!"' of type {expected}"
  | .assignMismatch op target expected found =>
      s!"Cannot apply '{op.symbol}' with a {found} value to '" ++ target ++ s!"' of type {expected}"
  | .combineOperands op t v =>
      s!"Operator '{op.symbol}' requires numeric operands, found {t} and {v}"
  | .unaryOperand op t => s!"Operator '{op.symbol}' cannot be applied to {t}"
  | .notComparable op l r => s!"Cannot compare {l} with {r} using '{op.symbol}'"
  | .notBoolean op l r => s!"Operator '{op.symbol}' requires bool operands, found {l} and {r}"
  | .binaryOperands op l r => s!"Operator '{op.symbol}' cannot be applied to {l} and {r}"
  | .noFields f t => "Cannot access field '" ++ f ++ s!"' on type {t}"
  | .unknownField f t => s!"Type {t} has no field '" ++ f ++ "'"
  | .printVoid => "Cannot print a void value"
  | .undefinedFunction f _ => "Undefined function '" ++ f ++ "'"
  | .callInInitializer f => "Cannot call '" ++ f ++ "' in a global initializer"
  | .argumentCount f n found =>
      "Function '" ++ f ++ s!"' expects {n} {argumentsWord n}, found {found}"
  | .argumentType p f expected found =>
      "Argument '" ++ p ++ "' of '" ++ f ++ s!"' expects {expected}, found {found}"
  | .emitWithoutName => "emit_signal() expects a signal name as its first argument"
  | .emitNameNotLiteral => "The first argument of emit_signal() must be a string literal"
  | .undefinedSignal s _ => "Undefined signal '" ++ s ++ "'"
  | .signalArgumentCount s n found =>
      "Signal '" ++ s ++ s!"' expects {n} {argumentsWord n}, found {found}"
  | .signalArgumentType p s expected found =>
      "Argument '" ++ p ++ "' of signal '" ++ s ++ s!"' expects {expected}, found {found}"
  | .notAStruct t => s!"Type {t} cannot be built with a struct literal"
  | .unknownStruct n => "Unknown struct type '" ++ n ++ "'"
  | .duplicateField f t => "Duplicate field '" ++ f ++ s!"' in {t} literal"
  | .unknownStructField f t => s!"{t} has no field '" ++ f ++ "'"
  | .structFieldType f t expected found =>
      "Field '" ++ f ++ s!"' of {t} expects {expected}, found {found}"
  | .missingFields t missing =>
      let word := if missing.length = 1 then "field" else "fields"
      let quoted := missing.map fun m : Text => "'" ++ m ++ "'"
      s!"Missing {word} " ++ commaList quoted ++ s!" in {t} literal"
  | .undefinedVariable n _ => "Undefined variable '" ++ n ++ "'"
  | .undefinedType n => "Undefined type '" ++ n ++ "'"
  | .voidType => "Type 'void' is only allowed as a return type"

/-! ## Hints -/

/-- The one conversion that is often expected and never made. -/
def conversionHint (found expected : Ty) : Option Text :=
  if found = .f32 ∧ expected = .i32 then some "f32 never converts to i32 implicitly." else none

/-- Spellings of types in other languages and the types that they mean here. -/
def foreignTypes : List (String × Ty) :=
  [("int", .i32), ("float", .f32), ("string", .string), ("str", .string), ("boolean", .bool),
   ("Vec2", .vector2)]

/-- Names that every record of the table's host inherits; looking one up finds the inherited
    method, and the proposal shows that. -/
def inheritedMethods : List (String × String) :=
  ("constructor", "Object") ::
    ["toString", "toLocaleString", "valueOf", "hasOwnProperty", "isPrototypeOf",
     "propertyIsEnumerable", "__defineGetter__", "__defineSetter__", "__lookupGetter__",
     "__lookupSetter__"].map fun n => (n, n)

/-- What is proposed for the spelling of a type before any similar name is sought. -/
def typeProposal? (name : Text) : Option Text :=
  match foreignTypes.find? fun e => Text.ofString e.1 == name with
  | some e => some e.2.word
  | none   =>
      if name == Text.ofString "__proto__" then some "[object Object]"
      else (inheritedMethods.find? fun e => Text.ofString e.1 == name).map fun e =>
        s!"function {e.2}() \x7b [native code] \x7d"

/-- The types that struct literals build. -/
def structTypes : List Ty := [.vector2, .color, .rect2, .transform2D]

/-- The spellings of types. -/
def typeNames (types : List Ty) : List Text := types.map fun t => Text.ofString t.word

/-- The advice that goes with a problem. -/
def hint : Problem → Option Text
  | .lifecycleSignature k => some s!"Expected '{k.signatureText}' returning void."
  | .initMismatch _ declared found => conversionHint found declared
  | .voidInit n => some ("Add a type annotation: 'let " ++ n ++ ": <type> = ...'.")
  | .exportImmutable n => some ("Declare it as '@export let mut " ++ n ++ "'.")
  | .exportType _ =>
      some ("Exportable types: " ++ commaList (typeNames (Ty.all.filter Ty.isExportable)) ++ ".")
  | .exportNotConstant _ =>
      some "Use a literal, a negated number or a struct literal of literals."
  | .defaultNotListed _ .i32 values =>
      some s!"Use an index between 0 and {(values.length : Int) - 1}."
  | .defaultNotListed _ _ values => some ("Use one of: " ++ commaList values ++ ".")
  | .unknownHint h => didYouMean h ["range", "enum", "file"]
  | .assignImmutable _ n isParam =>
      some (if isParam then "Parameters are immutable." else "Declare it as 'let mut " ++ n ++ "'.")
  | .assignMismatch _ _ expected found => conversionHint found expected
  | .unknownField f t =>
      didYouMean f t.fieldNames |>.orElse fun _ =>
        some ("Available fields: " ++ commaList t.fieldNames ++ ".")
  | .undefinedFunction f known => didYouMean f known
  | .callInInitializer _ =>
      some "Global initializers run before the script is ready; move the call into _ready()."
  | .argumentType _ _ expected found => conversionHint found expected
  | .undefinedSignal s known =>
      didYouMean s known |>.orElse fun _ => some ("Declare it with 'signal " ++ s ++ "(...);'.")
  | .signalArgumentType _ _ expected found => conversionHint found expected
  | .notAStruct _ => some "Struct literals exist for Vector2, Color, Rect2 and Transform2D."
  | .unknownStruct n => didYouMean n (typeNames structTypes)
  | .unknownStructField f t =>
      didYouMean f t.fieldNames |>.orElse fun _ =>
        some (s!"Fields of {t}: " ++ commaList t.fieldNames ++ ".")
  | .structFieldType _ _ expected found => conversionHint found expected
  | .undefinedVariable n visible => didYouMean n visible
  | .undefinedType n =>
      match typeProposal? n with
      | some p => some (meantHint p)
      | none   => didYouMean n (typeNames Ty.writable)
  | _ => none

/-- The diagnostic of a problem at a place. -/
def diagnostic (p : Problem) (span : Span) : Diagnostic :=
  .make .error p.code p.message span (some .checker) p.hint

end Problem

end SceneScript
