import SceneScript.Proofs.Instance.Typed

/-!
# The call stack

`Machine.eval` hands local variables down as an argument. Here is the evaluator that keeps them:
one stack of frames and one count of open calls, both changed in place. A block pushes a frame and
pops it, a call puts a fresh stack in place of the old one and counts up. A return and a fault
leave through all of this at once, and each construct puts things in order as they pass.

A host may come back while it answers: code of a script that prints is suspended in the middle of
an expression, with its frames on the stack, and the host calls another function of that script or
writes one of its properties. All of it runs on the one stack.

* **`HostReply`** — what a host does when it is asked for something.
* **`Stack`** / **`OnStack`** — the state of such an evaluator and its computations.
* **`Reentrant`** — a script with a host that may come back.
* **`OnStack.ask`** — a reply, on the stack that is there.
* **`OnStack.eval`**, **`OnStack.call`**, **`OnStack.exec`**, … — the evaluator.
-/

namespace SceneScript

variable {σ α : Type}

/-! ## Hosts that come back -/

/-- What a host does when it is asked for something: it looks at the globals and at its own state,
    changes its state, writes properties and calls functions, and in the end answers or fails. It
    is told what comes of each property and of each call; what a call logs is left out. -/
inductive HostReply (σ α : Type) where
  | answer (a : α)
  | fail (message : Text)
  | look (next : World σ → HostReply σ α)
  | become (state : σ) (next : HostReply σ α)
  | setProperty (name : Text) (v : Value) (next : Except PropertyError Unit → HostReply σ α)
  | invoke (name : Text) (args : List Value) (next : Except Fault Value → HostReply σ α)

/-- An operation that does not come back to the script. -/
def HostReply.ofCall (call : HostCall σ α) : HostReply σ α :=
  .look fun w =>
    match call w.host with
    | .ok a state    => .become state (.answer a)
    | .error m state => .become state (.fail m)

/-- A host that does not come back, as one that could. -/
def Host.replying (host : Host σ) : HostIn (HostReply σ) where
  print text             := .ofCall (host.print text)
  isAlive ref            := .ofCall (host.isAlive ref)
  sameNode a b           := .ofCall (host.sameNode a b)
  getProperty ref f      := .ofCall (host.getProperty ref f)
  setProperty ref f v    := .ofCall (host.setProperty ref f v)
  getNode ref path       := .ofCall (host.getNode ref path)
  getParent ref          := .ofCall (host.getParent ref)
  findChild ref name     := .ofCall (host.findChild ref name)
  emit ref signal values := .ofCall (host.emit ref signal values)

/-- A script attached to a node, with a host that may come back to it. -/
structure Reentrant (σ : Type) where
  host       : HostIn (HostReply σ)
  script     : Script
  attachment : Attachment

/-- The handle of the node that the script is attached to. -/
def Reentrant.self (p : Reentrant σ) : NodeRef := p.attachment.self

/-- The signal with a name. -/
def Reentrant.signal? (p : Reentrant σ) (name : Text) : Option Signal :=
  p.script.checked.signals.find? fun s => s.name == name

/-! ## The state of the evaluator -/

/-- What ends running code early: it stops, or its function returns. -/
inductive Unwind where
  | halt (h : Halt)
  | returned (value : Value)

/-- What stopped code, as seen from outside; there a return that no function caught would be a
    failure. -/
def Unwind.outcome : Unwind → Halt
  | .halt h     => h
  | .returned _ => .fault ⟨.hostFailure "return", none, []⟩

/-- How many calls are open, the frames of the innermost one, and the world. -/
@[ext] structure Stack (σ : Type) where
  depth  : Nat
  frames : Locals
  world  : World σ

/-- A computation that changes a stack. -/
abbrev OnStack (σ α : Type) := EStateM Unwind (Stack σ) α

namespace Stack

/-- With a new frame. -/
def push (s : Stack σ) : Stack σ := { s with frames := [] :: s.frames }

/-- Without the innermost frame. -/
def pop (s : Stack σ) : Stack σ := { s with frames := s.frames.tail }

/-- With a call opened: one frame, and nothing of the caller in sight. -/
def enter (s : Stack σ) : Stack σ := { s with depth := s.depth + 1, frames := [[]] }

/-- With a call closed, and the frames of the caller back. -/
def leave (s : Stack σ) (saved : Locals) : Stack σ :=
  { s with depth := s.depth - 1, frames := saved }

/-- With a variable declared in the innermost frame, or as a global where there is none. -/
def declare (s : Stack σ) (name : Text) (value : Value) : Stack σ :=
  match s.frames with
  | []     => { s with world.globals := s.world.globals.set name value }
  | _ :: _ => { s with frames := s.frames.declare name value }

/-- With a value stored in the innermost variable of a name. -/
def store (s : Stack σ) (name : Text) (value : Value) : Stack σ :=
  match s.frames.assign? name value with
  | some frames => { s with frames := frames }
  | none        => { s with world.globals := s.world.globals.set name value }

end Stack

namespace OnStack

/-- A computation in the world of a stack. -/
def lift (x : Eval σ α) : OnStack σ α := fun s =>
  match x s.world with
  | .ok a w    => .ok a { s with world := w }
  | .error h w => .error (.halt h) { s with world := w }

/-- A computation that looks at the frames. -/
def seeing (x : Locals → Eval σ α) : OnStack σ α := fun s => lift (x s.frames) s

/-- Declares parameters, each with its argument. -/
def declareAll : List Param → List TypedName → List Value → OnStack σ Unit
  | [], _, _             => return ()
  | p :: ps, types, args => do
      let type := (types.head?.map TypedName.type).getD .unknown
      modify fun s => s.declare p.name.name ((args.head?.getD .void).coerceOrKeep type)
      declareAll ps types.tail args.tail

/-- A computation with a change of the stack behind it, whichever way it ends. -/
def ensuring (x : OnStack σ α) (f : Stack σ → Stack σ) : OnStack σ α := fun s =>
  match x s with
  | .ok a s'    => .ok a (f s')
  | .error e s' => .error e (f s')

/-- A computation inside a function: its faults name the function. -/
def inFunction (name : Text) (x : OnStack σ α) : OnStack σ α := fun s =>
  match x s with
  | .error (.halt (.fault f)) s' => .error (.halt (.fault (f.within name))) s'
  | r                            => r

/-- The value of a call, which ends with its body or with a return from it. -/
def returning (f : FunctionInfo) (body : OnStack σ Unit) : OnStack σ Value := fun s =>
  match body s with
  | .ok _ s'                => lift (Machine.conclude f (.next s'.frames)) s'
  | .error (.returned v) s' => lift (Machine.conclude f (.returned v)) s'
  | .error (.halt h) s'     => .error (.halt h) s'

/-- A computation whose fault is a result. -/
def attempting (x : OnStack σ α) : OnStack σ (Except Fault α) := fun s =>
  match x s with
  | .ok a s'    => .ok (.ok a) s'
  | .error e s' =>
      match e.outcome with
      | .fault f   => .ok (.error f) s'
      | .outOfFuel => .error (.halt .outOfFuel) s'

/-- Writes a property of the script, and tells whether it took the value. -/
def setProperty (p : Reentrant σ) (name : Text) (v : Value) :
    OnStack σ (Except PropertyError Unit) := fun s =>
  match (⟨p.script, p.attachment, s.world.globals⟩ : Instance).setProperty name v with
  | .ok i    => .ok (.ok ()) { s with world.globals := i.globals }
  | .error e => .ok (.error e) s

/-! ## Asking the host

Functions that the host calls while it answers are run by `call`. -/

section Asking

variable (p : Reentrant σ) (call : Text → List Value → OnStack σ Value)

/-- A call from the host: it is turned away, or its code runs. -/
def reenter (name : Text) (args : List Value) : OnStack σ (Except Fault Value) :=
  match Instance.receive p.script name args with
  | .error cause => return .error ⟨cause, none, []⟩
  | .ok bound    => attempting (call name bound)

/-- A reply of the host. -/
def ask : HostReply σ α → OnStack σ α
  | .answer a                => return a
  | .fail message            => throw (.halt (.fault ⟨.hostFailure message, none, []⟩))
  | .look next               => do
      let s ← get
      ask (next s.world)
  | .become state next       => do
      modify fun s => { s with world.host := state }
      ask next
  | .setProperty name v next => do
      let r ← setProperty p name v
      ask (next r)
  | .invoke name args next   => do
      let r ← reenter p call name args
      ask (next r)

/-- Stops unless a node is alive. -/
def checkAlive (ref : NodeRef) (span : Span) : OnStack σ Unit := do
  if !(← ask p call (p.host.isAlive ref)) then lift (Eval.raise (.freed ref) (some span))

/-- The value of a field of a value. -/
def readField (base : Value) (span : Span) (field : Ident) : OnStack σ Value := do
  match base with
  | .node ref =>
      match NodeField.ofText? field.name with
      | none   => lift (Eval.raise (.noNodeField field.name) (some field.span))
      | some f =>
          checkAlive p call ref span
          ask p call (p.host.getProperty ref f)
  | _ =>
      match base.getNamed? field.name with
      | some v => return v
      | none   => lift (Eval.raise (.noField base.type field.name) (some field.span))

/-- Whether two values are equal; of two nodes the host says so. -/
def equal (l r : Value) : OnStack σ Bool :=
  l.equals (fun a b => ask p call (p.host.sameNode a b)) r

/-- An operator between two values. -/
def binary (span : Span) (op : BinaryOp) (l r : Value) : OnStack σ Value :=
  match op with
  | .eq => do return .bool (← equal p call l r)
  | .ne => do return .bool (!(← equal p call l r))
  | _   => lift (Machine.settle span (applyBinary op l r))

/-- The new value of a target that holds `old`. -/
def combine (old rhs : Value) (op : AssignOp) (span : Span) : OnStack σ Value := do
  match op.arithmetic? with
  | none    => return rhs.coerceOrKeep old.type
  | some op =>
      let v ← binary p call span op old rhs
      return v.coerceOrKeep old.type

/-- The value `base` after the part of it at a path is written; at the end of the path stands what
    changes. -/
def nextValue (rhs : Value) (op : AssignOp) (span : Span) : Value → List Text → OnStack σ Value
  | base, []           => combine p call base rhs op span
  | base, name :: rest => do
      match base with
      | .node ref =>
          match NodeField.ofText? name with
          | none       => lift (Eval.raise (.noNodeField name) (some span))
          | some field =>
              checkAlive p call ref span
              let old ← ask p call (p.host.getProperty ref field)
              let next ← nextValue rhs op span old rest
              ask p call (p.host.setProperty ref field next)
              return base
      | _ =>
          match base.getNamed? name with
          | none     => lift (Eval.raise (.noField base.type name) (some span))
          | some old =>
              let next ← nextValue rhs op span old rest
              match base.setNamed? name next with
              | some rebuilt => return rebuilt
              | none         =>
                  lift (Eval.raise (.cannotStore next.type base.type name) (some span))

/-- Assigns a value to a target. Assigning to `self` itself names no field. -/
def assign (span : Span) (target : AssignTarget) (op : AssignOp) (rhs : Value) :
    OnStack σ Unit := do
  match target.root, target.path.map Ident.name with
  | .self _, []    => lift (Eval.raise (.noNodeField "undefined") (some span))
  | .self _, path  => do
      let _ ← nextValue p call rhs op span (.node p.self) path
      return ()
  | .name id, path => do
      let current ← seeing fun locals => Machine.lookup locals id
      let next ← nextValue p call rhs op span current path
      modify fun s => s.store id.name next

/-- What a search of the host finds, where the node of the script is alive. -/
def search (span : Span) (cause : FaultCause) (reply : HostReply σ (Option NodeRef)) :
    OnStack σ Value := do
  checkAlive p call p.self span
  let r ← ask p call reply
  lift (Machine.found span cause r)

end Asking

/-! ## The evaluator -/

mutual

/-- The value of an expression. -/
def eval (p : Reentrant σ) : Nat → Expr → OnStack σ Value
  | 0, _        => throw (.halt .outOfFuel)
  | fuel + 1, e =>
    match e with
    | .int _ n _              => return .int (.ofInt n)
    | .float _ x _            => return .ofFloat x
    | .bool _ b               => return .bool b
    | .string _ t             => return .string t
    | .ident id               => seeing fun locals => Machine.lookup locals id
    | .self _                 => return .node p.self
    | .field span object name => do
        let base ← eval p fuel object
        readField p (call p fuel none) base span name
    | .unary span op arg => do
        let v ← eval p fuel arg
        lift (Machine.settle span (applyUnary op v))
    | .binary _ .and left right => do
        if ← condition p fuel left then return .bool (← condition p fuel right)
        else return .bool false
    | .binary _ .or left right => do
        if ← condition p fuel left then return .bool true
        else return .bool (← condition p fuel right)
    | .binary span op left right => do
        let l ← eval p fuel left
        let r ← eval p fuel right
        binary p (call p fuel none) span op l r
    | .struct span name fields => do
        let values ← evalFields p fuel fields
        match (Ty.ofText? name.name).bind fun t => Value.build? t values with
        | some v => return v
        | none   => lift (Eval.raise (.invalidLiteral name.name) (some span))
    | .call span callee args =>
        match Builtin.ofText? callee.name with
        | some builtin => callBuiltin p fuel builtin span callee args
        | none         => do
            let values ← evalAll p fuel args
            call p fuel (some span) callee.name values
termination_by structural fuel => fuel

/-- The truth value of a condition. -/
def condition (p : Reentrant σ) : Nat → Expr → OnStack σ Bool
  | 0, _        => throw (.halt .outOfFuel)
  | fuel + 1, e => do
      match ← eval p fuel e with
      | .bool b => return b
      | v       => lift (Eval.raise (.condition v.type) (some e.span))
termination_by structural fuel => fuel

/-- The values of expressions from left to right. -/
def evalAll (p : Reentrant σ) : Nat → List Expr → OnStack σ (List Value)
  | 0, _              => throw (.halt .outOfFuel)
  | _, []             => return []
  | fuel + 1, e :: es => do
      let v ← eval p fuel e
      let vs ← evalAll p fuel es
      return v :: vs
termination_by structural fuel => fuel

/-- The values of struct fields from left to right. -/
def evalFields (p : Reentrant σ) : Nat → List (Ident × Expr) → OnStack σ (List (Text × Value))
  | 0, _                        => throw (.halt .outOfFuel)
  | _, []                       => return []
  | fuel + 1, (name, e) :: rest => do
      let v ← eval p fuel e
      let vs ← evalFields p fuel rest
      return (name.name, v) :: vs
termination_by structural fuel => fuel

/-- A call of a built-in function. -/
def callBuiltin (p : Reentrant σ) : Nat → Builtin → Span → Ident → List Expr → OnStack σ Value
  | 0, _, _, _, _                         => throw (.halt .outOfFuel)
  | fuel + 1, builtin, span, callee, args =>
    match builtin with
    | .print => do
        let values ← evalAll p fuel args
        ask p (call p fuel none) (p.host.print (Text.join " " (values.map Value.format)))
        return .void
    | .emitSignal =>
        match args with
        | .string nameSpan name :: rest =>
            match p.signal? name with
            | none        => lift (Eval.raise (.undeclaredSignal name) (some nameSpan))
            | some signal => do
                let values ← evalAll p fuel rest
                checkAlive p (call p fuel none) p.self span
                ask p (call p fuel none) (p.host.emit p.self signal.name
                  (Machine.coerceArguments signal.params values))
                return .void
        | _ => lift (Eval.raise .emitWithoutName (some span))
    | .getParent => search p (call p fuel none) span .noParent (p.host.getParent p.self)
    | .getNode => do
        let path ← argumentText p fuel span callee args
        search p (call p fuel none) span (.noNodeAt path) (p.host.getNode p.self path)
    | .hasNode => do
        let path ← argumentText p fuel span callee args
        checkAlive p (call p fuel none) p.self span
        return .bool (← ask p (call p fuel none) (p.host.getNode p.self path)).isSome
    | .findChild => do
        let name ← argumentText p fuel span callee args
        search p (call p fuel none) span (.noChild name) (p.host.findChild p.self name)
termination_by structural fuel => fuel

/-- The text that the first argument of a built-in function is. -/
def argumentText (p : Reentrant σ) : Nat → Span → Ident → List Expr → OnStack σ Text
  | 0, _, _, _                    => throw (.halt .outOfFuel)
  | _, span, callee, []           => lift (Eval.raise (.missingArgument callee.name) (some span))
  | fuel + 1, _, callee, arg :: _ => do
      let v ← eval p fuel arg
      lift (Machine.textArgument arg.span callee.name v)
termination_by structural fuel => fuel

/-- A call of a function of the script. -/
def call (p : Reentrant σ) : Nat → Option Span → Text → List Value → OnStack σ Value
  | 0, _, _, _                 => throw (.halt .outOfFuel)
  | fuel + 1, span, name, args =>
    match p.script.function? name with
    | none   => lift (Eval.raise (.unknownFunction name) span)
    | some f => do
        let caller ← get
        if p.attachment.maxDepth ≤ caller.depth then
          lift (Eval.raise (.tooDeep p.attachment.maxDepth name)
            (some (span.getD f.decl.name.span)))
        else
          modify Stack.enter
          ensuring
            (inFunction name do
              declareAll f.decl.params f.signature.params args
              returning f (execAll p fuel f.decl.body.body))
            fun s => s.leave caller.frames
termination_by structural fuel => fuel

/-- A statement. -/
def exec (p : Reentrant σ) : Nat → Stmt Ty → OnStack σ Unit
  | 0, _         => throw (.halt .outOfFuel)
  | fuel + 1, st =>
    match st with
    | .block b => execBlock p fuel b
    | .bind _ name _ _ init type => do
        let v ← eval p fuel init
        modify fun s => s.declare name.name (v.coerceOrKeep type)
    | .assign span target op value => do
        let rhs ← eval p fuel value
        assign p (call p fuel none) span target op rhs
    | .cond c => execCond p fuel c
    | .loop _ test body => execLoop p fuel test body
    | .ret _ none => throw (.returned .void)
    | .ret _ (some e) => do
        let v ← eval p fuel e
        throw (.returned v)
    | .eval _ e => do
        let _ ← eval p fuel e
        return ()
termination_by structural fuel => fuel

/-- Statements one after the other. -/
def execAll (p : Reentrant σ) : Nat → List (Stmt Ty) → OnStack σ Unit
  | 0, _                 => throw (.halt .outOfFuel)
  | _, []                => return ()
  | fuel + 1, st :: rest => do
      exec p fuel st
      execAll p fuel rest
termination_by structural fuel => fuel

/-- A block in a frame of its own. -/
def execBlock (p : Reentrant σ) : Nat → Block Ty → OnStack σ Unit
  | 0, _                 => throw (.halt .outOfFuel)
  | fuel + 1, .mk _ body => do
      modify Stack.push
      ensuring (execAll p fuel body) Stack.pop
termination_by structural fuel => fuel

/-- A conditional. -/
def execCond (p : Reentrant σ) : Nat → Cond Ty → OnStack σ Unit
  | 0, _                                      => throw (.halt .outOfFuel)
  | fuel + 1, .mk _ test consequent alternate => do
      if ← condition p fuel test then execBlock p fuel consequent
      else
        match alternate with
        | .absent  => return ()
        | .block b => execBlock p fuel b
        | .cond c  => execCond p fuel c
termination_by structural fuel => fuel

/-- A loop. -/
def execLoop (p : Reentrant σ) : Nat → Expr → Block Ty → OnStack σ Unit
  | 0, _, _              => throw (.halt .outOfFuel)
  | fuel + 1, test, body => do
      if ← condition p fuel test then
        execBlock p fuel body
        execLoop p fuel test body
      else return ()
termination_by structural fuel => fuel

end

end OnStack

end SceneScript
