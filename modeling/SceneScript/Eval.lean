import SceneScript.Host

/-!
# Eval — running the code of a script

Expressions and statements run against a world: the globals of one script and the state of its
host. Local variables are not part of the world. An expression sees them and cannot change
them; a statement yields the locals after it, or the value that it returns. So a call leaves
the locals of its caller alone, whichever way it ends.

Values are rebuilt, never changed in place: writing `a.b.c` reads the outer values, replaces
one field on every level and stores the result. A write through a node goes to the host, and
every use of a node first asks whether it is alive.

The argument `fuel` bounds the work; with enough of it the answer does not depend on it.
-/

namespace SceneScript

/-- Why an evaluation has no value. -/
inductive Halt where
  | fault (f : Fault)
  | outOfFuel
deriving DecidableEq, Repr

/-- Named values, in the order in which they came into being. -/
abbrev Bindings := List (Text × Value)

namespace Bindings

/-- The value of a name. -/
def find? (b : Bindings) (name : Text) : Option Value :=
  (List.find? (fun e => e.1 == name) b).map Prod.snd

/-- With a name bound to a value, in its old place if it has one. -/
def set : Bindings → Text → Value → Bindings
  | [], name, value           => [(name, value)]
  | (n, v) :: b, name, value  => if n == name then (n, value) :: b else (n, v) :: set b name value

end Bindings

/-- The local variables of a running function: one frame per open block, innermost first. -/
abbrev Locals := List Bindings

namespace Locals

/-- The value of the innermost variable with a name. -/
def find? (locals : Locals) (name : Text) : Option Value :=
  locals.findSome? fun frame => frame.find? name

/-- With a variable declared in the innermost frame. -/
def declare (locals : Locals) (name : Text) (value : Value) : Locals :=
  match locals with
  | []              => [Bindings.set [] name value]
  | frame :: frames => frame.set name value :: frames

/-- With the innermost variable of a name changed, `none` when there is none. -/
def assign? : Locals → Text → Value → Option Locals
  | [], _, _                     => none
  | frame :: frames, name, value =>
      if (frame.find? name).isSome then some (frame.set name value :: frames)
      else (assign? frames name value).map (frame :: ·)

end Locals

/-- What running code can change: the globals of its script and the host. -/
structure World (σ : Type) where
  globals : Bindings
  host    : σ

/-- A computation in a world. -/
abbrev Eval (σ α : Type) := EStateM Halt (World σ) α

/-- What running code refers to. -/
structure Machine (σ : Type) where
  host      : Host σ
  functions : List FunctionInfo
  signals   : List Signal
  self      : NodeRef
  maxDepth  : Int

/-- What a statement leads to: the next one, or the end of its function. -/
inductive Flow where
  | next (locals : Locals)
  | returned (value : Value)

namespace Eval

variable {σ α : Type}

/-- Stops with a fault. -/
def raise (cause : FaultCause) (span : Option Span) : Eval σ α := throw (.fault ⟨cause, span, []⟩)

/-- An operation of the host; its failure is a fault. -/
def ofHost (call : HostCall σ α) : Eval σ α := fun w =>
  match call w.host with
  | .ok a h    => .ok a { w with host := h }
  | .error m h => .error (.fault ⟨.hostFailure m, none, []⟩) { w with host := h }

/-- A computation inside a function: its faults name the function. -/
def inFunction (name : Text) (x : Eval σ α) : Eval σ α := fun w =>
  match x w with
  | .error (.fault f) w' => .error (.fault (f.within name)) w'
  | r                    => r

end Eval

/-- A value as a value of a type where that is possible, else as it is. -/
def Value.coerceOrKeep (v : Value) (t : Ty) : Value := (v.coerce? t).getD v

/-! ## Operators -/

/-- A prefix operator on a value. -/
def applyUnary (op : UnaryOp) (v : Value) : Except FaultCause Value :=
  match op, v with
  | .not, .bool b  => .ok (.bool (!b))
  | .neg, .int n   => .ok (.int (-n))
  | .neg, .float x => .ok (.ofFloat x.neg)
  | _, _           => .error (.unaryOperand op v.type)

/-- An operator on two integers; arithmetic wraps and division truncates. -/
def applyInts (op : BinaryOp) (m n : Int32) : Except FaultCause Value :=
  match op with
  | .lt  => .ok (.bool (m < n))
  | .le  => .ok (.bool (m ≤ n))
  | .gt  => .ok (.bool (n < m))
  | .ge  => .ok (.bool (n ≤ m))
  | .add => .ok (.int (m + n))
  | .sub => .ok (.int (m - n))
  | .mul => .ok (.int (m * n))
  | .div => if n = 0 then .error .divisionByZero else .ok (.int (m / n))
  | _    => .error (.binaryOperands op .i32 .i32)

/-- An operator on two numbers of which one is a float; results are rounded to single
    precision. -/
def applyFloats (op : BinaryOp) (l r : Ty) (x y : Binary64) : Except FaultCause Value :=
  match op with
  | .lt  => .ok (.bool (x.lt y))
  | .le  => .ok (.bool (x.le y))
  | .gt  => .ok (.bool (y.lt x))
  | .ge  => .ok (.bool (y.le x))
  | .add => .ok (.ofFloat (x.add y))
  | .sub => .ok (.ofFloat (x.sub y))
  | .mul => .ok (.ofFloat (x.mul y))
  | .div => .ok (.ofFloat (x.div y))
  | _    => .error (.binaryOperands op l r)

/-- An operator between two values that computes or puts in order. -/
def applyBinary (op : BinaryOp) (l r : Value) : Except FaultCause Value :=
  match l, r with
  | .int m, .int n => applyInts op m n
  | .string s, .string t =>
      if op = .add then .ok (.string (s ++ t)) else .error (.binaryOperands op .string .string)
  | _, _ =>
    match l.number?, r.number? with
    | some x, some y => applyFloats op l.type r.type x y
    | _, _           => .error (.binaryOperands op l.type r.type)

namespace Machine

variable {σ : Type}

/-- The function with a name. -/
def function? (m : Machine σ) (name : Text) : Option FunctionInfo :=
  m.functions.find? fun f => f.name == name

/-- The signal with a name. -/
def signal? (m : Machine σ) (name : Text) : Option Signal :=
  m.signals.find? fun s => s.name == name

/-- The result of an operator, its fault placed. -/
def settle (span : Span) (r : Except FaultCause Value) : Eval σ Value :=
  match r with
  | .ok v        => return v
  | .error cause => Eval.raise cause (some span)

/-- Whether two values are equal; of two nodes the host says so. -/
def equal (m : Machine σ) (l r : Value) : Eval σ Bool :=
  Eval.ofHost (l.equals m.host.sameNode r)

/-- An operator between two values. -/
def binary (m : Machine σ) (span : Span) (op : BinaryOp) (l r : Value) : Eval σ Value :=
  match op with
  | .eq => do return .bool (← m.equal l r)
  | .ne => do return .bool (!(← m.equal l r))
  | _   => settle span (applyBinary op l r)

/-- Stops unless a node is alive. -/
def checkAlive (m : Machine σ) (ref : NodeRef) (span : Span) : Eval σ Unit := do
  if !(← Eval.ofHost (m.host.isAlive ref)) then Eval.raise (.freed ref) (some span)

/-- The node that a search found. -/
def found (span : Span) (cause : FaultCause) : Option NodeRef → Eval σ Value
  | some ref => return .node ref
  | none     => Eval.raise cause (some span)

/-- The value of a variable. -/
def lookup (locals : Locals) (id : Ident) : Eval σ Value := do
  match (locals.find? id.name).or ((← get).globals.find? id.name) with
  | some v => return v
  | none   => Eval.raise (.noValue id.name) (some id.span)

/-- The value of a field of a value. -/
def readField (m : Machine σ) (base : Value) (span : Span) (field : Ident) : Eval σ Value := do
  match base with
  | .node ref =>
      match NodeField.ofText? field.name with
      | none   => Eval.raise (.noNodeField field.name) (some field.span)
      | some f =>
          m.checkAlive ref span
          Eval.ofHost (m.host.getProperty ref f)
  | _ =>
      match base.getNamed? field.name with
      | some v => return v
      | none   => Eval.raise (.noField base.type field.name) (some field.span)

/-- The new value of a target that holds `old`: it keeps the type of the old one where it
    can. -/
def combine (m : Machine σ) (old rhs : Value) (op : AssignOp) (span : Span) : Eval σ Value := do
  match op.arithmetic? with
  | none        => return rhs.coerceOrKeep old.type
  | some binary =>
      let v ← m.binary span binary old rhs
      return v.coerceOrKeep old.type

/-- The value `base` after the part of it at a path is written. A node stays the same handle;
    its field goes to the host. Assigning to `self` itself names no field. -/
def writePath (m : Machine σ) (rhs : Value) (op : AssignOp) (span : Span) :
    Value → List Text → Eval σ Value
  | _, []              => Eval.raise (.noNodeField "undefined") (some span)
  | base, name :: rest => do
      match base with
      | .node ref =>
          match NodeField.ofText? name with
          | none       => Eval.raise (.noNodeField name) (some span)
          | some field =>
              m.checkAlive ref span
              let old ← Eval.ofHost (m.host.getProperty ref field)
              let next ← match rest with
                | [] => m.combine old rhs op span
                | _  => writePath m rhs op span old rest
              Eval.ofHost (m.host.setProperty ref field next)
              return base
      | _ =>
          match base.getNamed? name with
          | none     => Eval.raise (.noField base.type name) (some span)
          | some old =>
              let next ← match rest with
                | [] => m.combine old rhs op span
                | _  => writePath m rhs op span old rest
              match base.setNamed? name next with
              | some rebuilt => return rebuilt
              | none         => Eval.raise (.cannotStore next.type base.type name) (some span)

/-- Stores a value in the innermost variable of a name; the locals after that. -/
def store (locals : Locals) (name : Text) (value : Value) : Eval σ Locals := do
  match locals.assign? name value with
  | some changed => return changed
  | none         =>
      modify fun w => { w with globals := w.globals.set name value }
      return locals

/-- Assigns a value to a target; the locals after that. -/
def assign (m : Machine σ) (locals : Locals) (span : Span) (target : AssignTarget)
    (op : AssignOp) (rhs : Value) : Eval σ Locals := do
  let path := target.path.map Ident.name
  match target.root with
  | .self _ =>
      let _ ← m.writePath rhs op span (.node m.self) path
      return locals
  | .name id =>
      let current ← lookup locals id
      let next ← match path with
        | [] => m.combine current rhs op span
        | _  => m.writePath rhs op span current path
      store locals id.name next

/-- The frame of a call: every parameter with its argument. -/
def parameterFrame : List Param → List TypedName → List Value → Bindings → Bindings
  | [], _, _, frame             => frame
  | p :: ps, types, args, frame =>
      let type := (types.head?.map TypedName.type).getD .unknown
      let value := (args.head?.getD .void).coerceOrKeep type
      parameterFrame ps types.tail args.tail (frame.set p.name.name value)

/-- The value of a call whose body ended: what it returned as the declared type, or nothing,
    which only a function without a result may give. -/
def conclude (f : FunctionInfo) : Flow → Eval σ Value
  | .returned v =>
      if f.signature.returns = .void then return .void
      else return v.coerceOrKeep f.signature.returns
  | .next _ =>
      if f.signature.returns = .void then return .void
      else Eval.raise (.noReturn f.name f.signature.returns) (some f.decl.name.span)

/-- The arguments of an emission as values of the declared types. -/
def coerceArguments : List TypedName → List Value → List Value
  | p :: ps, v :: vs => v.coerceOrKeep p.type :: coerceArguments ps vs
  | _, vs            => vs

/-- The first argument of a built-in function, which has to be a text. -/
def textArgument (span : Span) (function : Text) : Value → Eval σ Text
  | .string t => return t
  | v         => Eval.raise (.wrongArgument function v.type) (some span)

/-! ## Evaluation -/

mutual

/-- The value of an expression at a call depth. -/
def eval (m : Machine σ) (depth : Nat) (locals : Locals) : Nat → Expr → Eval σ Value
  | 0, _        => throw .outOfFuel
  | fuel + 1, e =>
    match e with
    | .int _ n _              => return .int (.ofInt n)
    | .float _ x _            => return .ofFloat x
    | .bool _ b               => return .bool b
    | .string _ t             => return .string t
    | .ident id               => lookup locals id
    | .self _                 => return .node m.self
    | .field span object name => do
        let base ← eval m depth locals fuel object
        m.readField base span name
    | .unary span op arg => do
        let v ← eval m depth locals fuel arg
        settle span (applyUnary op v)
    | .binary _ .and left right => do
        if ← condition m depth locals fuel left then
          return .bool (← condition m depth locals fuel right)
        else return .bool false
    | .binary _ .or left right => do
        if ← condition m depth locals fuel left then return .bool true
        else return .bool (← condition m depth locals fuel right)
    | .binary span op left right => do
        let l ← eval m depth locals fuel left
        let r ← eval m depth locals fuel right
        m.binary span op l r
    | .struct span name fields => do
        let values ← evalFields m depth locals fuel fields
        match (Ty.ofText? name.name).bind fun t => Value.build? t values with
        | some v => return v
        | none   => Eval.raise (.invalidLiteral name.name) (some span)
    | .call span callee args =>
        match Builtin.ofText? callee.name with
        | some builtin => callBuiltin m depth locals fuel builtin span callee args
        | none         => do
            let values ← evalAll m depth locals fuel args
            call m depth fuel callee.name values (some span)
termination_by structural fuel => fuel

/-- The truth value of a condition. -/
def condition (m : Machine σ) (depth : Nat) (locals : Locals) : Nat → Expr → Eval σ Bool
  | 0, _        => throw .outOfFuel
  | fuel + 1, e => do
      match ← eval m depth locals fuel e with
      | .bool b => return b
      | v       => Eval.raise (.condition v.type) (some e.span)
termination_by structural fuel => fuel

/-- The values of expressions from left to right. -/
def evalAll (m : Machine σ) (depth : Nat) (locals : Locals) : Nat → List Expr → Eval σ (List Value)
  | 0, _              => throw .outOfFuel
  | _, []             => return []
  | fuel + 1, e :: es => do
      let v ← eval m depth locals fuel e
      let vs ← evalAll m depth locals fuel es
      return v :: vs
termination_by structural fuel => fuel

/-- The values of struct fields from left to right. -/
def evalFields (m : Machine σ) (depth : Nat) (locals : Locals) :
    Nat → List (Ident × Expr) → Eval σ (List (Text × Value))
  | 0, _                        => throw .outOfFuel
  | _, []                       => return []
  | fuel + 1, (name, e) :: rest => do
      let v ← eval m depth locals fuel e
      let vs ← evalFields m depth locals fuel rest
      return (name.name, v) :: vs
termination_by structural fuel => fuel

/-- A call of a built-in function. -/
def callBuiltin (m : Machine σ) (depth : Nat) (locals : Locals) :
    Nat → Builtin → Span → Ident → List Expr → Eval σ Value
  | 0, _, _, _, _                         => throw .outOfFuel
  | fuel + 1, builtin, span, callee, args =>
    match builtin with
    | .print => do
        let values ← evalAll m depth locals fuel args
        Eval.ofHost (m.host.print (Text.join " " (values.map Value.format)))
        return .void
    | .emitSignal =>
        match args with
        | .string nameSpan name :: rest =>
            match m.signal? name with
            | none        => Eval.raise (.undeclaredSignal name) (some nameSpan)
            | some signal => do
                let values ← evalAll m depth locals fuel rest
                m.checkAlive m.self span
                Eval.ofHost (m.host.emit m.self signal.name (coerceArguments signal.params values))
                return .void
        | _ => Eval.raise .emitWithoutName (some span)
    | .getParent => do
        m.checkAlive m.self span
        found span .noParent (← Eval.ofHost (m.host.getParent m.self))
    | .getNode => do
        let path ← argumentText m depth locals fuel span callee args
        m.checkAlive m.self span
        found span (.noNodeAt path) (← Eval.ofHost (m.host.getNode m.self path))
    | .hasNode => do
        let path ← argumentText m depth locals fuel span callee args
        m.checkAlive m.self span
        return .bool (← Eval.ofHost (m.host.getNode m.self path)).isSome
    | .findChild => do
        let name ← argumentText m depth locals fuel span callee args
        m.checkAlive m.self span
        found span (.noChild name) (← Eval.ofHost (m.host.findChild m.self name))
termination_by structural fuel => fuel

/-- The text that the first argument of a built-in function is. -/
def argumentText (m : Machine σ) (depth : Nat) (locals : Locals) :
    Nat → Span → Ident → List Expr → Eval σ Text
  | 0, _, _, _                    => throw .outOfFuel
  | _, span, callee, []           => Eval.raise (.missingArgument callee.name) (some span)
  | fuel + 1, _, callee, arg :: _ => do
      let v ← eval m depth locals fuel arg
      textArgument arg.span callee.name v
termination_by structural fuel => fuel

/-- A call of a function of the script. -/
def call (m : Machine σ) (depth : Nat) :
    Nat → Text → List Value → Option Span → Eval σ Value
  | 0, _, _, _                 => throw .outOfFuel
  | fuel + 1, name, args, span =>
    match m.function? name with
    | none   => Eval.raise (.unknownFunction name) span
    | some f =>
        if m.maxDepth ≤ depth then
          Eval.raise (.tooDeep m.maxDepth name) (some (span.getD f.decl.name.span))
        else
          Eval.inFunction name do
            let frame := parameterFrame f.decl.params f.signature.params args []
            let flow ← execAll m (depth + 1) fuel [frame] f.decl.body.body
            conclude f flow
termination_by structural fuel => fuel

/-- A statement. -/
def exec (m : Machine σ) (depth : Nat) : Nat → Locals → Stmt Ty → Eval σ Flow
  | 0, _, _              => throw .outOfFuel
  | fuel + 1, locals, st =>
    match st with
    | .block b => execBlock m depth fuel locals b
    | .bind _ name _ _ init type => do
        let v ← eval m depth locals fuel init
        return .next (locals.declare name.name (v.coerceOrKeep type))
    | .assign span target op value => do
        let rhs ← eval m depth locals fuel value
        return .next (← m.assign locals span target op rhs)
    | .cond c => execCond m depth fuel locals c
    | .loop _ test body => execLoop m depth fuel locals test body
    | .ret _ none => return .returned .void
    | .ret _ (some e) => do return .returned (← eval m depth locals fuel e)
    | .eval _ e => do
        let _ ← eval m depth locals fuel e
        return .next locals
termination_by structural fuel => fuel

/-- Statements one after the other, up to the first that returns. -/
def execAll (m : Machine σ) (depth : Nat) : Nat → Locals → List (Stmt Ty) → Eval σ Flow
  | 0, _, _                      => throw .outOfFuel
  | _, locals, []                => return .next locals
  | fuel + 1, locals, st :: rest => do
      match ← exec m depth fuel locals st with
      | .next locals => execAll m depth fuel locals rest
      | .returned v  => return .returned v
termination_by structural fuel => fuel

/-- A block in a frame of its own. -/
def execBlock (m : Machine σ) (depth : Nat) : Nat → Locals → Block Ty → Eval σ Flow
  | 0, _, _                      => throw .outOfFuel
  | fuel + 1, locals, .mk _ body => do
      match ← execAll m depth fuel ([] :: locals) body with
      | .next inner => return .next inner.tail
      | .returned v => return .returned v
termination_by structural fuel => fuel

/-- A conditional. -/
def execCond (m : Machine σ) (depth : Nat) : Nat → Locals → Cond Ty → Eval σ Flow
  | 0, _, _                                           => throw .outOfFuel
  | fuel + 1, locals, .mk _ test consequent alternate => do
      if ← condition m depth locals fuel test then execBlock m depth fuel locals consequent
      else
        match alternate with
        | .absent  => return .next locals
        | .block b => execBlock m depth fuel locals b
        | .cond c  => execCond m depth fuel locals c
termination_by structural fuel => fuel

/-- A loop. -/
def execLoop (m : Machine σ) (depth : Nat) : Nat → Locals → Expr → Block Ty → Eval σ Flow
  | 0, _, _, _                   => throw .outOfFuel
  | fuel + 1, locals, test, body => do
      if ← condition m depth locals fuel test then
        match ← execBlock m depth fuel locals body with
        | .next locals => execLoop m depth fuel locals test body
        | .returned v  => return .returned v
      else return .next locals
termination_by structural fuel => fuel

end

end Machine

end SceneScript
