import SceneScript.Typing

/-!
# The typing rules of the language

`typeOf` and `checkBody` compute types and report problems on the way. This file says the same
thing as a calculus: which expressions have a type, which statements may run in a scope, and
what a whole script has to satisfy. No rule mentions `unknown`, and no rule reports.

* **`Ty.Fits`** — where a value may stand: its own type, or `f32` for an `i32`.
* **`HasType`** — the type of an expression; **`Fitting`** — arguments against parameters.
* **`StmtOk`** — a statement with typed bindings in a scope, and the scope after it.
* **`Checked.WellTyped`** — the tables of a script all of whose parts obey the rules.

That a script without problems is well typed is shown in `Proofs.Typing.Sound`, and that a well
typed script runs without type errors in `Proofs.Eval.Sound`.
-/

namespace SceneScript

/-! ## Types -/

/-- A value of type `t` may stand where a `u` is expected. -/
def Ty.Fits (t u : Ty) : Prop := t = u ∨ (t = .i32 ∧ u = .f32)

/-- A type that a variable can have. -/
def Ty.Storable (t : Ty) : Prop := t ≠ .unknown ∧ t ≠ .void

/-- The type at the end of a field path. -/
def Ty.along? : Ty → List Text → Option Ty
  | t, []           => some t
  | t, name :: rest => (t.fieldNamed? name).bind fun u => u.along? rest

/-- No field holds a node, so a path meets a node only at its beginning. -/
theorem Ty.field?_storable {t u : Ty} {f : Field} (h : t.field? f = some u) :
    u.Storable ∧ u ≠ .node := by
  cases t <;> cases f <;> cases h <;> exact ⟨⟨by decide, by decide⟩, by decide⟩

theorem Ty.fieldNamed?_storable {t u : Ty} {name : Text} (h : t.fieldNamed? name = some u) :
    u.Storable ∧ u ≠ .node := by
  obtain ⟨f, -, hf⟩ := Option.bind_eq_some_iff.mp h
  exact field?_storable hf

/-! ## Scopes -/

theorem Scope.inFrame?_append (name : Text) (frame : List Variable) (v : Variable) :
    inFrame? name (frame ++ [v]) =
      (inFrame? name frame).or (if v.id.name = name then some v else none) := by
  simp only [inFrame?, List.find?_append, List.find?_singleton, beq_iff_eq]

theorem Scope.find?_cons (frame : List Variable) (scope : Scope) (name : Text) :
    find? (frame :: scope) name = (inFrame? name frame).or (find? scope name) := by
  simp only [find?, List.findSome?_cons]
  cases inFrame? name frame <;> rfl

/-! ## Expressions -/

/-- The operators between two numbers that give a number. -/
def BinaryOp.IsArithmetic (op : BinaryOp) : Prop :=
  op = .add ∨ op = .sub ∨ op = .mul ∨ op = .div

/-- The operators that compare two numbers by size. -/
def BinaryOp.IsOrder (op : BinaryOp) : Prop := op = .lt ∨ op = .le ∨ op = .gt ∨ op = .ge

/-- The operators that test two values for equality. -/
def BinaryOp.IsEquality (op : BinaryOp) : Prop := op = .eq ∨ op = .ne

/-- The operators between two truth values. -/
def BinaryOp.IsLogic (op : BinaryOp) : Prop := op = .and ∨ op = .or

theorem BinaryOp.IsArithmetic.not_isLogic {op : BinaryOp} (h : op.IsArithmetic) : ¬op.IsLogic := by
  rcases h with rfl | rfl | rfl | rfl <;> rintro (h | h) <;> cases h

theorem BinaryOp.IsOrder.not_isLogic {op : BinaryOp} (h : op.IsOrder) : ¬op.IsLogic := by
  rcases h with rfl | rfl | rfl | rfl <;> rintro (h | h) <;> cases h

theorem BinaryOp.IsArithmetic.not_isEquality {op : BinaryOp} (h : op.IsArithmetic) :
    ¬op.IsEquality := by
  rcases h with rfl | rfl | rfl | rfl <;> rintro (h | h) <;> cases h

theorem BinaryOp.IsOrder.not_isEquality {op : BinaryOp} (h : op.IsOrder) : ¬op.IsEquality := by
  rcases h with rfl | rfl | rfl | rfl <;> rintro (h | h) <;> cases h

theorem BinaryOp.IsEquality.not_isLogic {op : BinaryOp} (h : op.IsEquality) : ¬op.IsLogic := by
  rcases h with rfl | rfl <;> rintro (h | h) <;> cases h

mutual

/-- An expression has a type. -/
inductive HasType (s : Surroundings) : Expr → Ty → Prop where
  | int (span n raw) : HasType s (.int span n raw) .i32
  | float (span x raw) : HasType s (.float span x raw) .f32
  | bool (span b) : HasType s (.bool span b) .bool
  | string (span t) : HasType s (.string span t) .string
  | self (span) : HasType s (.self span) .node
  | ident (id) (v : Variable) : s.scope.find? id.name = some v → HasType s (.ident id) v.type
  | field (span object name) (t u : Ty) :
      HasType s object t → t.fieldNamed? name.name = some u → HasType s (.field span object name) u
  | neg (span arg) (t : Ty) :
      HasType s arg t → t.isNumeric = true → HasType s (.unary span .neg arg) t
  | not (span arg) : HasType s arg .bool → HasType s (.unary span .not arg) .bool
  | concat (span left right) :
      HasType s left .string → HasType s right .string →
      HasType s (.binary span .add left right) .string
  | arithmetic (span op left right) (l r : Ty) :
      BinaryOp.IsArithmetic op → HasType s left l → HasType s right r →
      l.isNumeric = true → r.isNumeric = true →
      HasType s (.binary span op left right) (l.numericResult r)
  | order (span op left right) (l r : Ty) :
      BinaryOp.IsOrder op → HasType s left l → HasType s right r →
      l.isNumeric = true → r.isNumeric = true → HasType s (.binary span op left right) .bool
  | equality (span op left right) (l r : Ty) :
      BinaryOp.IsEquality op → HasType s left l → HasType s right r → l.comparable r = true →
      HasType s (.binary span op left right) .bool
  | logic (span op left right) :
      BinaryOp.IsLogic op → HasType s left .bool → HasType s right .bool →
      HasType s (.binary span op left right) .bool
  | struct (span name fields) (t : Ty) :
      Ty.ofText? name.name = some t → t.isStruct = true → Members s t fields →
      (∀ e ∈ t.fields, ∃ x ∈ fields, x.1.name = Text.ofString e.1.word) →
      HasType s (.struct span name fields) t
  | print (span callee args) :
      Builtin.ofText? callee.name = some .print → Printable s args →
      HasType s (.call span callee args) .void
  | emit (span callee nameSpan name args) (signal : Signal) :
      Builtin.ofText? callee.name = some .emitSignal → s.signal? name = some signal →
      Fitting s args signal.params →
      HasType s (.call span callee (.string nameSpan name :: args)) .void
  | builtin (span callee args) (b : Builtin) (params : List TypedName) :
      Builtin.ofText? callee.name = some b → b.params? = some params → Fitting s args params →
      HasType s (.call span callee args) b.returns
  | call (span callee args) (f : Signature) :
      Builtin.ofText? callee.name = none → s.function? callee.name = some f →
      s.initializing = false → Fitting s args f.params →
      HasType s (.call span callee args) f.returns

/-- Every argument fits its parameter, and there are as many of both. -/
inductive Fitting (s : Surroundings) : List Expr → List TypedName → Prop where
  | nil : Fitting s [] []
  | cons (e es p ps) (t : Ty) :
      HasType s e t → t.Fits p.type → Fitting s es ps → Fitting s (e :: es) (p :: ps)

/-- Every field of a struct literal is one of its type and holds a value that fits. -/
inductive Members (s : Surroundings) : Ty → List (Ident × Expr) → Prop where
  | nil (type) : Members s type []
  | cons (type : Ty) (name e rest) (t u : Ty) :
      HasType s e t → type.fieldNamed? name.name = some u → t.Fits u → Members s type rest →
      Members s type ((name, e) :: rest)

/-- Every argument has a value that can be shown. -/
inductive Printable (s : Surroundings) : List Expr → Prop where
  | nil : Printable s []
  | cons (e es) (t : Ty) : HasType s e t → t ≠ .void → Printable s es → Printable s (e :: es)

end

section Typed

variable {s : Surroundings} {es : List Expr}

/-- Arguments that fit their parameters have types. -/
theorem Fitting.typed : ∀ {params : List TypedName}, Fitting s es params →
    ∀ e ∈ es, ∃ t, HasType s e t := by
  induction es with
  | nil => exact fun _ _ he => absurd he List.not_mem_nil
  | cons e es ih =>
      rintro _ (_ | ⟨_, _, _, _, t, he, _, hes⟩)
      exact List.forall_mem_cons.mpr ⟨⟨t, he⟩, ih hes⟩

/-- Arguments that are printed have types. -/
theorem Printable.typed (h : Printable s es) : ∀ e ∈ es, ∃ t, HasType s e t := by
  induction es with
  | nil => exact fun _ he => absurd he List.not_mem_nil
  | cons e es ih =>
      obtain _ | ⟨_, _, t, he, _, hes⟩ := h
      exact List.forall_mem_cons.mpr ⟨⟨t, he⟩, ih hes⟩

/-- The values of struct fields have types. -/
theorem Members.typed {type : Ty} {fields : List (Ident × Expr)} (h : Members s type fields) :
    ∀ x ∈ fields, ∃ t, HasType s x.2 t := by
  induction fields with
  | nil => exact fun _ hx => absurd hx List.not_mem_nil
  | cons _ _ ih =>
      obtain _ | ⟨_, _, _, _, t, _, he, _, _, hrest⟩ := h
      exact List.forall_mem_cons.mpr ⟨⟨t, he⟩, ih hrest⟩

end Typed

/-! ## Statements -/

/-- A target of type `target` may take a value of type `found` by an assignment operator. -/
inductive Combines : AssignOp → Ty → Ty → Prop where
  | set (target found : Ty) : found.Fits target → Combines .set target found
  | concat : Combines .add .string .string
  | arithmetic (op : AssignOp) (target found : Ty) :
      op ≠ .set → target.isNumeric = true → found.isNumeric = true →
      target.numericResult found = target → Combines op target found

/-- A target has a type and may be written. Writing through a node leaves the variable as it
    is, so the variable need not be mutable. -/
inductive TargetOk (s : Surroundings) : AssignTarget → Ty → Prop where
  | self (span root path) (t : Ty) :
      path ≠ [] → Ty.node.along? (path.map Ident.name) = some t →
      TargetOk s ⟨span, .self root, path⟩ t
  | name (span id path) (v : Variable) (t : Ty) :
      s.scope.find? id.name = some v → v.type.along? (path.map Ident.name) = some t →
      (v.mutable = true ∨ (v.type = .node ∧ path ≠ [])) → TargetOk s ⟨span, .name id, path⟩ t

mutual

/-- A statement may run in a scope, inside a function with result `r`; the scope after it. -/
inductive StmtOk (r : Ty) : Surroundings → Stmt Ty → Scope → Prop where
  | block (s b) : BlockOk r s b → StmtOk r s (.block b) s.scope
  | bind (s span name mutable declared init) (t type : Ty) (scope : Scope) :
      HasType s init t → t.Fits type → type.Storable →
      s.scope.define? ⟨name, .local, type, mutable⟩ = some scope →
      StmtOk r s (.bind span name mutable declared init type) scope
  | assign (s span target op value) (t found : Ty) :
      TargetOk s target t → HasType s value found → Combines op t found →
      StmtOk r s (.assign span target op value) s.scope
  | cond (s c) : CondOk r s c → StmtOk r s (.cond c) s.scope
  | loop (s span test body) :
      HasType s test .bool → BlockOk r s body → StmtOk r s (.loop span test body) s.scope
  | leave (s span) : r = .void → StmtOk r s (.ret span none) s.scope
  | ret (s span e) (t : Ty) :
      HasType s e t → r ≠ .void → t.Fits r → StmtOk r s (.ret span (some e)) s.scope
  | eval (s span e) (t : Ty) : HasType s e t → StmtOk r s (.eval span e) s.scope

/-- A block may run in a scope. -/
inductive BlockOk (r : Ty) : Surroundings → Block Ty → Prop where
  | mk (s span body) : StmtsOk r { s with scope := [] :: s.scope } body → BlockOk r s (.mk span body)

/-- A conditional may run in a scope. -/
inductive CondOk (r : Ty) : Surroundings → Cond Ty → Prop where
  | mk (s span test consequent alternate) :
      HasType s test .bool → BlockOk r s consequent → ElseOk r s alternate →
      CondOk r s (.mk span test consequent alternate)

/-- What follows a consequent may run in a scope. -/
inductive ElseOk (r : Ty) : Surroundings → Else Ty → Prop where
  | absent (s) : ElseOk r s .absent
  | block (s b) : BlockOk r s b → ElseOk r s (.block b)
  | cond (s c) : CondOk r s c → ElseOk r s (.cond c)

/-- Statements may run one after the other, each in the scope that the one before leaves. -/
inductive StmtsOk (r : Ty) : Surroundings → List (Stmt Ty) → Prop where
  | nil (s) : StmtsOk r s []
  | cons (s st rest) (scope : Scope) :
      StmtOk r s st scope → StmtsOk r { s with scope := scope } rest → StmtsOk r s (st :: rest)

end

/-! ## Scripts -/

/-- The variables that parameters declare. -/
def paramVariables (params : List Param) (types : List TypedName) : List Variable :=
  List.zipWith (fun p t => ⟨p.name, .param, t.type, false⟩) params types

/-- A function obeys the rules: its parameters have names of their own, its body may run, and
    a result is returned on every path. -/
structure FunctionInfo.WellTyped (s : Surroundings) (f : FunctionInfo) : Prop where
  arity   : f.decl.params.length = f.signature.params.length
  nodup   : (f.decl.params.map fun p => p.name.name).Nodup
  params  : ∀ p ∈ f.signature.params, p.type.Storable
  returns : f.signature.returns ≠ .unknown
  body    : StmtsOk f.signature.returns
    { s with scope := paramVariables f.decl.params f.signature.params :: s.scope } f.decl.body.body
  ends    : f.signature.returns = .void ∨ f.decl.body.alwaysReturns = true

/-- A global obeys the rules after the ones before it. -/
structure GlobalInfo.WellTyped (s : Surroundings) (g : GlobalInfo) : Prop where
  init     : ∃ t, HasType s g.decl.init t ∧ t.Fits g.type
  storable : g.type.Storable
  fresh    : s.scope.find? g.name = none
  property : ∀ p, g.property = some p → p.name = g.name ∧ p.type = g.type ∧ g.decl.mutable = true

namespace Checked

/-- What the bodies of a script refer to. -/
def surroundings (c : Checked) : Surroundings :=
  ⟨c.functions.map FunctionInfo.signature, c.signals, false, [c.globals.map GlobalInfo.declared]⟩

/-- What an initializer after some globals of a script refers to. -/
def initializing (c : Checked) (before : List GlobalInfo) : Surroundings :=
  ⟨c.functions.map FunctionInfo.signature, c.signals, true, [before.map GlobalInfo.declared]⟩

/-- A script obeys the rules. -/
structure WellTyped (c : Checked) : Prop where
  globals   : ∀ before g after, c.globals = before ++ g :: after →
    g.WellTyped (c.initializing before)
  functions : ∀ f ∈ c.functions, f.WellTyped c.surroundings
  signals   : ∀ signal ∈ c.signals, ∀ p ∈ signal.params, p.type.Storable

end Checked

end SceneScript
