import SceneScript.Proofs.Eval.Sound
import SceneScript.Proofs.Typing.Sound

/-!
# Initializers only look

Nothing keeps the evaluator from printing or emitting inside an initializer; the rules do. Of
all expressions only calls do something to the world. Functions of the script may not be called
while globals are initialized, the built-in functions that print and emit have no result, and
there is no place for an operand, an argument or a field without a value. The calls that remain
ask the host, and most hosts are left as they are by that.

* **`Host.Looks`** — what may happen to a host that is asked; **`Host.IsObserved`** — nothing may.
* **`OnlyLooks`** — a computation that changes no global and the host only by asking it, whichever
  way it ends; **`Quiet`** — one that leaves the whole world alone.
* **`Machine.LooksAt`** — the parts of the evaluator that an initializer reaches, at one amount
  of fuel.
* **`Machine.looksAt`** — they only look at every amount, by induction.
-/

namespace SceneScript

variable {σ α β : Type} {R : Changes σ}

/-! ## Hosts that are asked -/

/-- The operation changes the state of its host within `R`, also when it fails. -/
def HostCall.Within (R : Changes σ) (call : HostCall σ α) : Prop :=
  ∀ s, Ends call s (fun _ s' => R.rel s s') (fun _ s' => R.rel s s')

/-- The operations of a host that look at nodes change its state within `R`. -/
structure Host.Looks (host : Host σ) (R : Changes σ) : Prop where
  isAlive     : ∀ ref, HostCall.Within R (host.isAlive ref)
  sameNode    : ∀ a b, HostCall.Within R (host.sameNode a b)
  getProperty : ∀ ref field, HostCall.Within R (host.getProperty ref field)
  getNode     : ∀ ref path, HostCall.Within R (host.getNode ref path)
  getParent   : ∀ ref, HostCall.Within R (host.getParent ref)
  findChild   : ∀ ref name, HostCall.Within R (host.findChild ref name)

/-- Nothing happens to the state of a host. -/
def Changes.nothing : Changes σ := ⟨fun s s' => s' = s, fun _ => rfl, fun h h' => h'.trans h⟩

/-- Anything may happen to the state of a host. -/
def Changes.anything : Changes σ := ⟨fun _ _ => True, fun _ => trivial, fun _ _ => trivial⟩

theorem HostCall.within_anything (call : HostCall σ α) : HostCall.Within .anything call := by
  intro s
  rw [Ends]
  cases call s <;> trivial

theorem Host.looks_anything (host : Host σ) : host.Looks .anything where
  isAlive _       := HostCall.within_anything _
  sameNode _ _    := HostCall.within_anything _
  getProperty _ _ := HostCall.within_anything _
  getNode _ _     := HostCall.within_anything _
  getParent _     := HostCall.within_anything _
  findChild _ _   := HostCall.within_anything _

/-- The operation leaves the state of its host alone, also when it fails. -/
def HostCall.IsQuestion (call : HostCall σ α) : Prop :=
  ∀ s, Ends call s (fun _ s' => s' = s) (fun _ s' => s' = s)

/-- The operations of a host that look at nodes leave its state alone. -/
structure Host.IsObserved (host : Host σ) : Prop where
  isAlive     : ∀ ref, HostCall.IsQuestion (host.isAlive ref)
  sameNode    : ∀ a b, HostCall.IsQuestion (host.sameNode a b)
  getProperty : ∀ ref field, HostCall.IsQuestion (host.getProperty ref field)
  getNode     : ∀ ref path, HostCall.IsQuestion (host.getNode ref path)
  getParent   : ∀ ref, HostCall.IsQuestion (host.getParent ref)
  findChild   : ∀ ref name, HostCall.IsQuestion (host.findChild ref name)

theorem Host.IsObserved.looks {host : Host σ} (h : host.IsObserved) : host.Looks .nothing where
  isAlive     := h.isAlive
  sameNode    := h.sameNode
  getProperty := h.getProperty
  getNode     := h.getNode
  getParent   := h.getParent
  findChild   := h.findChild

/-! ## Computations that only look -/

/-- The halt is none for calls that are too deep. -/
def Halt.IsShallow : Halt → Prop
  | .fault f   => f.kind ≠ .stackOverflow
  | .outOfFuel => True

/-- From every world, the computation ends in the same world, and calls are never too deep. -/
def Quiet (x : Eval σ α) : Prop :=
  ∀ w, Ends x w (fun _ w' => w' = w) (fun h w' => w' = w ∧ h.IsShallow)

/-- The globals are the same, and the host has changed within `R`. -/
structure World.Seen (R : Changes σ) (w w' : World σ) : Prop where
  globals : w'.globals = w.globals
  host    : R.rel w.host w'.host

/-- From every world, the computation changes no global and the host only within `R`, and calls
    are never too deep. -/
def OnlyLooks (R : Changes σ) (x : Eval σ α) : Prop :=
  ∀ w, Ends x w (fun _ w' => World.Seen R w w') (fun h w' => World.Seen R w w' ∧ h.IsShallow)

theorem World.Seen.refl (R : Changes σ) (w : World σ) : World.Seen R w w := ⟨rfl, R.refl _⟩

theorem World.Seen.trans {w w' w'' : World σ} (h : World.Seen R w w') (h' : World.Seen R w' w'') :
    World.Seen R w w'' := ⟨h'.globals.trans h.globals, R.trans h.host h'.host⟩

theorem World.Seen.eq {w w' : World σ} (h : World.Seen .nothing w w') : w' = w := by
  obtain ⟨globals, host⟩ := w
  obtain ⟨globals', host'⟩ := w'
  obtain ⟨rfl, rfl⟩ : globals' = globals ∧ host' = host := ⟨h.globals, h.host⟩
  rfl

/-- What only looks at a host that nothing happens to leaves the world alone. -/
theorem OnlyLooks.quiet {x : Eval σ α} (h : OnlyLooks .nothing x) : Quiet x := fun w =>
  (h w).mono (fun _ _ hw => hw.eq) fun _ _ hw => ⟨hw.1.eq, hw.2⟩

theorem OnlyLooks.bind {x : Eval σ α} {f : α → Eval σ β} (hx : OnlyLooks R x)
    (hf : ∀ a, OnlyLooks R (f a)) : OnlyLooks R (x >>= f) := by
  intro w
  refine ends_bind.mpr (Ends.mono (hx w) (fun a w' hw => ?_) fun _ _ he => he)
  exact (hf a w').mono (fun _ _ hw' => hw.trans hw') fun _ _ hw' => ⟨hw.trans hw'.1, hw'.2⟩

theorem onlyLooks_pure (a : α) : OnlyLooks R (pure a : Eval σ α) := fun w => .refl R w

theorem onlyLooks_raise {cause : FaultCause} {span : Option Span}
    (h : cause.kind ≠ .stackOverflow) : OnlyLooks R (Eval.raise cause span : Eval σ α) :=
  fun w => ⟨.refl R w, h⟩

theorem onlyLooks_outOfFuel : OnlyLooks R (throw .outOfFuel : Eval σ α) :=
  fun w => ⟨.refl R w, trivial⟩

theorem onlyLooks_ofHost {call : HostCall σ α} (h : call.Within R) :
    OnlyLooks R (Eval.ofHost call) := by
  intro w
  have hcall := h w.host
  rw [Ends] at hcall
  rw [Ends, Eval.ofHost]
  cases hx : call w.host with
  | ok a s =>
      rw [hx] at hcall
      exact ⟨rfl, hcall⟩
  | error m s =>
      rw [hx] at hcall
      exact ⟨⟨rfl, hcall⟩, FaultKind.noConfusion⟩

theorem FaultCause.OfOperator.shallow {cause : FaultCause} (h : cause.OfOperator) :
    cause.kind ≠ .stackOverflow := by
  cases cause <;> first | exact FaultKind.noConfusion | cases h

/-! ## The parts of the evaluator -/

/-- What is tested for equality has a value, where all types are known. -/
theorem Ty.comparable_ne_void {l r : Ty} (hl : l ≠ .unknown) (hr : r ≠ .unknown)
    (h : l.comparable r = true) : l ≠ .void ∧ r ≠ .void := by
  rw [comparable, if_neg fun hu => hu.elim hl hr] at h
  split at h
  · cases h
  · next hv => exact not_or.mp hv

theorem Ty.isNumeric_ne_void {t : Ty} (h : t.isNumeric = true) : t ≠ .void := by
  rintro rfl
  cases h

theorem Ty.fieldNamed?_ne_void {t u : Ty} {name : Text} (h : t.fieldNamed? name = some u) :
    t ≠ .void := by
  rintro rfl
  obtain ⟨f, -, hf⟩ := Option.bind_eq_some_iff.mp h
  cases f <;> cases hf

/-- What may be stored has a value. -/
theorem Ty.Fits.ne_void {t u : Ty} (h : t.Fits u) (hu : u.Storable) : t ≠ .void := by
  rcases h with rfl | ⟨rfl, -⟩
  · exact hu.2
  · decide

namespace Machine

variable {m : Machine σ} {scope : Scope}

theorem onlyLooks_settle {span : Span} {r : Except FaultCause Value}
    (h : ∀ cause, r = .error cause → cause.OfOperator) :
    OnlyLooks R (settle span r : Eval σ Value) := by
  cases r with
  | ok v => exact onlyLooks_pure v
  | error cause => exact onlyLooks_raise (h cause rfl).shallow

theorem onlyLooks_binary (hm : m.host.Looks R) (span : Span) (op : BinaryOp) (l r : Value) :
    OnlyLooks R (m.binary span op l r) := by
  rcases binary_cases span op l r with ⟨a, b, answer, hask⟩ | ⟨result, hcause, -, hknown⟩
  · rw [hask]
    exact (onlyLooks_ofHost (hm.sameNode a b)).bind fun _ => onlyLooks_pure _
  · rw [hknown]
    exact onlyLooks_settle hcause

theorem onlyLooks_lookup (locals : Locals) (id : Ident) :
    OnlyLooks R (lookup locals id : Eval σ Value) := by
  refine OnlyLooks.bind (fun w => .refl R w) fun w => ?_
  split
  · exact onlyLooks_pure _
  · exact onlyLooks_raise FaultKind.noConfusion

theorem onlyLooks_checkAlive (hm : m.host.Looks R) (ref : NodeRef) (span : Span) :
    OnlyLooks R (m.checkAlive ref span) := by
  refine (onlyLooks_ofHost (hm.isAlive ref)).bind fun alive => ?_
  cases alive with
  | true => exact onlyLooks_pure ()
  | false => exact onlyLooks_raise FaultKind.noConfusion

theorem onlyLooks_readField (hm : m.host.Looks R) (base : Value) (span : Span) (field : Ident) :
    OnlyLooks R (m.readField base span field) := by
  unfold readField
  split
  · split
    · exact onlyLooks_raise FaultKind.noConfusion
    · exact (onlyLooks_checkAlive hm _ span).bind fun _ => onlyLooks_ofHost (hm.getProperty _ _)
  · split
    · exact onlyLooks_pure _
    · exact onlyLooks_raise FaultKind.noConfusion

theorem onlyLooks_found {span : Span} {cause : FaultCause} (h : cause.kind = .nodeNotFound)
    (r : Option NodeRef) : OnlyLooks R (found span cause r : Eval σ Value) := by
  cases r with
  | none => exact onlyLooks_raise (by rw [h]; decide)
  | some ref => exact onlyLooks_pure _

/-- What an initializer reaches, at one amount of fuel. -/
structure LooksAt (m : Machine σ) (R : Changes σ) (scope : Scope) (fuel : Nat) : Prop where
  eval : ∀ {depth locals e t}, HasType (m.around false scope) e t → t ≠ .void →
    OnlyLooks R (m.eval depth locals fuel e)
  condition : ∀ {depth locals e}, HasType (m.around false scope) e .bool →
    OnlyLooks R (m.condition depth locals fuel e)
  evalFields : ∀ {depth locals type fields}, Members (m.around false scope) type fields →
    OnlyLooks R (m.evalFields depth locals fuel fields)
  callBuiltin : ∀ {depth locals span callee args b params}, b.params? = some params →
    Fitting (m.around false scope) args params →
    OnlyLooks R (m.callBuiltin depth locals fuel b span callee args)
  argumentText : ∀ {depth locals span callee e rest}, HasType (m.around false scope) e .string →
    OnlyLooks R (m.argumentText depth locals fuel span callee (e :: rest))

namespace LooksAt

variable {fuel depth : Nat} {locals : Locals}

theorem zero (m : Machine σ) (R : Changes σ) (scope : Scope) : LooksAt m R scope 0 where
  eval _ _        := onlyLooks_outOfFuel
  condition _     := onlyLooks_outOfFuel
  evalFields _    := onlyLooks_outOfFuel
  callBuiltin _ _ := onlyLooks_outOfFuel
  argumentText _  := onlyLooks_outOfFuel

theorem onlyLooks_operator (ih : LooksAt m R scope fuel) (hm : m.host.Looks R) {span : Span}
    {op : BinaryOp} {left right : Expr} {l r : Ty} (hop : ¬op.IsLogic)
    (hl : HasType (m.around false scope) left l) (hr : HasType (m.around false scope) right r)
    (hlv : l ≠ .void) (hrv : r ≠ .void) :
    OnlyLooks R (m.eval depth locals (fuel + 1) (.binary span op left right)) := by
  rw [eval_operator hop]
  refine (ih.eval hl hlv).bind fun u => (ih.eval hr hrv).bind fun v => ?_
  exact onlyLooks_binary hm span op u v

/-- An expression with a value only looks, one case for every rule. -/
theorem eval_succ (ih : LooksAt m R scope fuel) (hm : m.host.Looks R)
    (hs : Known (m.around false scope)) {e : Expr} {t : Ty}
    (he : HasType (m.around false scope) e t) (ht : t ≠ .void) :
    OnlyLooks R (m.eval depth locals (fuel + 1) e) := by
  cases he with
  | int _ _ _ => exact onlyLooks_pure _
  | float _ _ _ => exact onlyLooks_pure _
  | bool _ _ => exact onlyLooks_pure _
  | string _ _ => exact onlyLooks_pure _
  | self _ => exact onlyLooks_pure _
  | ident id x hx => exact onlyLooks_lookup locals id
  | field span object name t _ hobj hfield =>
      refine (ih.eval hobj (Ty.fieldNamed?_ne_void hfield)).bind fun base => ?_
      exact onlyLooks_readField hm base span name
  | neg span arg _ harg hnum =>
      refine (ih.eval harg ht).bind fun v => ?_
      exact onlyLooks_settle fun _ => applyUnary_cause
  | not span arg harg =>
      refine (ih.eval harg ht).bind fun v => ?_
      exact onlyLooks_settle fun _ => applyUnary_cause
  | concat span left right hl hr =>
      exact ih.onlyLooks_operator hm (BinaryOp.IsArithmetic.not_isLogic (.inl rfl)) hl hr ht ht
  | arithmetic span op left right l r hop hl hr hln hrn =>
      exact ih.onlyLooks_operator hm hop.not_isLogic hl hr (Ty.isNumeric_ne_void hln)
        (Ty.isNumeric_ne_void hrn)
  | order span op left right l r hop hl hr hln hrn =>
      exact ih.onlyLooks_operator hm hop.not_isLogic hl hr (Ty.isNumeric_ne_void hln)
        (Ty.isNumeric_ne_void hrn)
  | equality span op left right l r hop hl hr hcmp =>
      obtain ⟨hlv, hrv⟩ := Ty.comparable_ne_void (hl.known hs) (hr.known hs) hcmp
      exact ih.onlyLooks_operator hm hop.not_isLogic hl hr hlv hrv
  | logic span op left right hop hl hr =>
      rcases hop with rfl | rfl
      · refine (ih.condition hl).bind fun b => ?_
        cases b with
        | true => exact (ih.condition hr).bind fun b' => onlyLooks_pure _
        | false => exact onlyLooks_pure _
      · refine (ih.condition hl).bind fun b => ?_
        cases b with
        | true => exact onlyLooks_pure _
        | false => exact (ih.condition hr).bind fun b' => onlyLooks_pure _
  | struct span name fields _ hname hst hfields hall =>
      refine (ih.evalFields hfields).bind fun values => ?_
      split
      · exact onlyLooks_pure _
      · exact onlyLooks_raise FaultKind.noConfusion
  | print span callee args hb hargs => exact absurd rfl ht
  | emit span callee nameSpan name args signal hb hsig hargs => exact absurd rfl ht
  | builtin span callee args b params hb hp hargs =>
      rw [Machine.eval, hb]
      exact ih.callBuiltin hp hargs
  | call span callee args f hb hf hinit hargs =>
      -- The rule allows no call while globals are initialized.
      cases hinit

theorem condition_succ (ih : LooksAt m R scope fuel) {e : Expr}
    (he : HasType (m.around false scope) e .bool) :
    OnlyLooks R (m.condition depth locals (fuel + 1) e) := by
  refine (ih.eval he (by decide)).bind fun v => ?_
  split
  · exact onlyLooks_pure _
  · exact onlyLooks_raise FaultKind.noConfusion

theorem evalFields_succ (ih : LooksAt m R scope fuel) {type : Ty} {fields : List (Ident × Expr)}
    (hf : Members (m.around false scope) type fields) :
    OnlyLooks R (m.evalFields depth locals (fuel + 1) fields) := by
  cases hf with
  | nil => exact onlyLooks_pure _
  | cons _ name e rest t u he hu hfit hrest =>
      refine (ih.eval he (hfit.ne_void (Ty.fieldNamed?_storable hu).1)).bind fun v => ?_
      exact (ih.evalFields hrest).bind fun vs => onlyLooks_pure _

theorem argumentText_succ (ih : LooksAt m R scope fuel) {span : Span} {callee : Ident} {e : Expr}
    {rest : List Expr} (he : HasType (m.around false scope) e .string) :
    OnlyLooks R (m.argumentText depth locals (fuel + 1) span callee (e :: rest)) := by
  refine (ih.eval he (by decide)).bind fun v => ?_
  cases v with
  | string t => exact onlyLooks_pure t
  | _ => exact onlyLooks_raise FaultKind.noConfusion

/-- A built-in function with a list of parameters asks the host. -/
theorem callBuiltin_succ (ih : LooksAt m R scope fuel) (hm : m.host.Looks R) {span : Span}
    {callee : Ident} {args : List Expr} {b : Builtin} {params : List TypedName}
    (hp : b.params? = some params) (hargs : Fitting (m.around false scope) args params) :
    OnlyLooks R (m.callBuiltin depth locals (fuel + 1) b span callee args) := by
  have alive : ∀ {α : Type} {x : Eval σ α}, OnlyLooks R x →
      OnlyLooks R (do m.checkAlive m.self span; x) := fun hx =>
    (onlyLooks_checkAlive hm m.self span).bind fun _ => hx
  cases b with
  | print => cases hp
  | emitSignal => cases hp
  | getParent =>
      exact alive ((onlyLooks_ofHost (hm.getParent m.self)).bind fun r => onlyLooks_found rfl r)
  | getNode =>
      cases hp
      obtain ⟨e, rfl, he⟩ := SoundAt.fitting_text hargs
      refine (ih.argumentText he).bind fun path => alive ?_
      exact (onlyLooks_ofHost (hm.getNode m.self path)).bind fun r => onlyLooks_found rfl r
  | hasNode =>
      cases hp
      obtain ⟨e, rfl, he⟩ := SoundAt.fitting_text hargs
      refine (ih.argumentText he).bind fun path => alive ?_
      exact (onlyLooks_ofHost (hm.getNode m.self path)).bind fun r => onlyLooks_pure _
  | findChild =>
      cases hp
      obtain ⟨e, rfl, he⟩ := SoundAt.fitting_text hargs
      refine (ih.argumentText he).bind fun name => alive ?_
      exact (onlyLooks_ofHost (hm.findChild m.self name)).bind fun r => onlyLooks_found rfl r

end LooksAt

/-- An expression with a value only looks while globals are initialized, whatever the fuel. -/
theorem looksAt (hm : m.host.Looks R) (hs : Known (m.around false scope)) (fuel : Nat) :
    LooksAt m R scope fuel := by
  induction fuel with
  | zero => exact .zero m R scope
  | succ fuel ih =>
      exact
        { eval         := ih.eval_succ hm hs
          condition    := ih.condition_succ
          evalFields   := ih.evalFields_succ
          callBuiltin  := ih.callBuiltin_succ hm
          argumentText := ih.argumentText_succ }

end Machine

end SceneScript
