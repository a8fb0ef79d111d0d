import SceneScript.Proofs.Eval.Frames
import SceneScript.Proofs.Eval.Values
import SceneScript.Proofs.Outcome

/-!
# The steps of well typed code

What a host has to promise, what checked code does to the world, and the steps that evaluation
is made of: reading and writing fields, storing variables, concluding calls.

* **`Host.Keeps`** — the host answers well typed requests, and what it does to its state stays
  inside a relation `R` that the caller chooses.
* **`World.Kept`** — every global has a value of its type, the immutable ones the same as before,
  and the host is inside `R`.
* **`Runs`** — a computation keeps the world and ends with a result that satisfies a condition,
  with an ordinary fault, or out of fuel.
* **`Machine.runs_readField`**, **`Machine.runs_assign`**, … — one statement per step.
-/

namespace SceneScript

variable {σ α β : Type}

/-- The kinds of fault that checked code can meet while it runs. -/
def FaultKind.IsOrdinary (k : FaultKind) : Prop :=
  k = .divisionByZero ∨ k = .invalidReference ∨ k = .stackOverflow ∨ k = .nodeNotFound

/-- A halt that checked code can come to. -/
def Halt.IsOrdinary : Halt → Prop
  | .fault f   => f.kind.IsOrdinary
  | .outOfFuel => True

@[simp] theorem Fault.within_cause (f : Fault) (function : Text) :
    (f.within function).cause = f.cause := by
  rw [within]
  split <;> rfl

@[simp] theorem Fault.within_kind (f : Fault) (function : Text) :
    (f.within function).kind = f.kind := by rw [kind, within_cause, kind]

/-! ## Hosts -/

/-- What may happen to the state of a host between two moments. -/
structure Changes (σ : Type) where
  rel   : σ → σ → Prop
  refl  : ∀ s, rel s s
  trans : ∀ {a b c}, rel a b → rel b c → rel a c

/-- A node is alive in a state of the host. -/
def Host.Alive (host : Host σ) (ref : NodeRef) (s : σ) : Prop := host.isAlive ref s = .ok true s

/-- The host answers: questions leave its state alone, a living node has fields of their types
    and takes new ones, a declared signal may be emitted with arguments of its types. -/
structure Host.Keeps (host : Host σ) (signals : List Signal) (R : Changes σ) : Prop where
  print       : ∀ line s, ∃ s', host.print line s = .ok () s' ∧ R.rel s s'
  isAlive     : ∀ ref s, ∃ b, host.isAlive ref s = .ok b s
  sameNode    : ∀ a b s, ∃ r, host.sameNode a b s = .ok r s
  getProperty : ∀ ref field s, host.Alive ref s →
    ∃ v, host.getProperty ref field s = .ok v s ∧ v.type = field.type
  setProperty : ∀ ref field v s, host.Alive ref s → v.type = field.type →
    ∃ s', host.setProperty ref field v s = .ok () s' ∧ R.rel s s'
  getNode     : ∀ ref path s, ∃ r, host.getNode ref path s = .ok r s
  getParent   : ∀ ref s, ∃ r, host.getParent ref s = .ok r s
  findChild   : ∀ ref name s, ∃ r, host.findChild ref name s = .ok r s
  emit        : ∀ ref signal args s, signal ∈ signals →
    args.map Value.type = signal.params.map TypedName.type →
    ∃ s', host.emit ref signal.name args s = .ok () s' ∧ R.rel s s'

/-! ## Well behaved computations -/

/-- The globals have values of their types, those that may not be assigned have their old ones,
    and the host changed as it may. -/
structure World.Kept (g : List Variable) (R : Changes σ) (w w' : World σ) : Prop where
  typed  : w'.globals.Matches g
  steady : w.globals.Steady g w'.globals
  host   : R.rel w.host w'.host

/-- The computation keeps the world and ends with `Q`, an ordinary fault or out of fuel. -/
def Runs (g : List Variable) (R : Changes σ) (x : Eval σ α) (w : World σ)
    (Q : α → World σ → Prop) : Prop :=
  Ends x w (fun a w' => World.Kept g R w w' ∧ Q a w') (fun h w' => World.Kept g R w w' ∧ h.IsOrdinary)

variable {g : List Variable} {R : Changes σ} {w : World σ}

theorem World.Kept.trans {w₁ w₂ w₃ : World σ} (h : World.Kept g R w₁ w₂) (h' : World.Kept g R w₂ w₃) :
    World.Kept g R w₁ w₃ := ⟨h'.typed, h.steady.trans h'.steady, R.trans h.host h'.host⟩

theorem World.kept_refl (hg : w.globals.Matches g) : World.Kept g R w w :=
  ⟨hg, .refl _ g, R.refl w.host⟩

theorem Runs.mono {x : Eval σ α} {Q Q' : α → World σ → Prop} (h : Runs g R x w Q)
    (hQ : ∀ a w', Q a w' → Q' a w') : Runs g R x w Q' :=
  Ends.mono h (fun a w' ha => ⟨ha.1, hQ a w' ha.2⟩) fun _ _ he => he

theorem Runs.bind {x : Eval σ α} {f : α → Eval σ β} {Q : α → World σ → Prop}
    {Q' : β → World σ → Prop} (hx : Runs g R x w Q)
    (hf : ∀ a w', w'.globals.Matches g → Q a w' → Runs g R (f a) w' Q') :
    Runs g R (x >>= f) w Q' := by
  refine ends_bind.mpr (Ends.mono hx (fun a w' ha => ?_) fun _ _ he => he)
  exact Ends.mono (hf a w' ha.1.typed ha.2) (fun _ _ hb => ⟨ha.1.trans hb.1, hb.2⟩)
    fun _ _ he => ⟨ha.1.trans he.1, he.2⟩

/-- Where such a computation ends well, every global has a value of its type, and `Q` holds. -/
theorem Runs.of_ok {x : Eval σ α} {Q : α → World σ → Prop} {a : α} {w' : World σ}
    (h : Runs g R x w Q) (hx : x w = .ok a w') : w'.globals.Matches g ∧ Q a w' := by
  obtain ⟨hkept, hq⟩ := (ends_of_ok hx).mp h
  exact ⟨hkept.typed, hq⟩

theorem runs_pure {a : α} {Q : α → World σ → Prop} (hg : w.globals.Matches g) (h : Q a w) :
    Runs g R (pure a) w Q := ⟨World.kept_refl hg, h⟩

theorem runs_raise {cause : FaultCause} {span : Option Span} {Q : α → World σ → Prop}
    (hg : w.globals.Matches g) (h : cause.kind.IsOrdinary) :
    Runs g R (Eval.raise cause span) w Q := ⟨World.kept_refl hg, h⟩

theorem runs_outOfFuel {Q : α → World σ → Prop} (hg : w.globals.Matches g) :
    Runs g R (throw .outOfFuel) w Q := ⟨World.kept_refl hg, trivial⟩

theorem ofHost_of_ok {call : HostCall σ α} {w : World σ} {a : α} {s : σ}
    (h : call w.host = .ok a s) : Eval.ofHost call w = .ok a { w with host := s } := by
  rw [Eval.ofHost, h]

/-- A host operation that answers. -/
theorem runs_ofHost {call : HostCall σ α} {a : α} {s : σ} {Q : α → World σ → Prop}
    (hg : w.globals.Matches g) (hcall : call w.host = .ok a s) (hR : R.rel w.host s)
    (h : Q a { w with host := s }) : Runs g R (Eval.ofHost call) w Q :=
  (ends_of_ok (ofHost_of_ok hcall)).mpr ⟨⟨hg, .refl _ g, hR⟩, h⟩

/-- A fault inside of a function is one of the computation there. -/
theorem Eval.inFunction_error {name : Text} {x : Eval σ α} {w w' : World σ} {f : Fault}
    (h : inFunction name x w = .error (.fault f) w') :
    ∃ g, x w = .error (.fault g) w' ∧ f = g.within name := by
  rw [inFunction] at h
  cases hx : x w with
  | ok a w'' =>
      rw [hx] at h
      cases h
  | error halt w'' =>
      rw [hx] at h
      cases halt with
      | outOfFuel => cases h
      | fault g =>
          cases h
          exact ⟨g, rfl, rfl⟩

theorem runs_inFunction {name : Text} {x : Eval σ α} {Q : α → World σ → Prop}
    (h : Runs g R x w Q) : Runs g R (Eval.inFunction name x) w Q := by
  rw [Runs, Ends, Eval.inFunction] at *
  cases hx : x w with
  | ok a w' => simpa [hx] using h
  | error e w' =>
      rw [hx] at h
      cases e with
      | outOfFuel => exact h
      | fault f =>
          refine ⟨h.1, ?_⟩
          show (f.within name).kind.IsOrdinary
          rw [Fault.within_kind]
          exact h.2

namespace Machine

variable {m : Machine σ}

/-! ## Reading -/

theorem runs_settle {span : Span} {r : Except FaultCause Value} {t : Ty}
    (hg : w.globals.Matches g) (h : Settles r t) :
    Runs g R (settle span r) w (fun v w' => w' = w ∧ v.type = t) := by
  rcases h with ⟨v, rfl, hv⟩ | rfl
  · exact runs_pure hg ⟨rfl, hv⟩
  · exact runs_raise hg (.inl rfl)

/-- An operator that computes or puts in order runs as it settles. -/
theorem runs_binary {span : Span} {op : BinaryOp} {u v : Value} {t : Ty} (hop : ¬op.IsEquality)
    (hg : w.globals.Matches g) (h : Settles (applyBinary op u v) t) :
    Runs g R (m.binary span op u v) w (fun v _ => v.type = t) := by
  rw [binary_of_not_equality m hop]
  exact (runs_settle hg h).mono fun _ _ h => h.2

/-- `==` and `!=` have an answer, of the host or of the values themselves. -/
theorem runs_equality (hm : m.host.Keeps m.signals R) {span : Span} {op : BinaryOp} {u v : Value}
    (hop : op.IsEquality) (hg : w.globals.Matches g) :
    Runs g R (m.binary span op u v) w (fun v _ => v.type = .bool) := by
  obtain ⟨answer, hbinary⟩ := binary_of_equality hop
  rw [hbinary]
  refine Runs.bind (Q := fun _ _ => True) ?_ fun _ _ hg' _ => runs_pure hg' rfl
  rcases equal_cases u v with ⟨a, b, hask⟩ | hknown
  · obtain ⟨r, hr⟩ := hm.sameNode a b w.host
    rw [hask]
    exact runs_ofHost hg hr (R.refl _) trivial
  · rw [hknown]
    exact runs_pure hg trivial

/-- Behind the check a node is alive. -/
theorem runs_checkAlive (hm : m.host.Keeps m.signals R) (hg : w.globals.Matches g) (ref : NodeRef)
    (span : Span) :
    Runs g R (m.checkAlive ref span) w (fun _ w' => w' = w ∧ m.host.Alive ref w.host) := by
  obtain ⟨b, hb⟩ := hm.isAlive ref w.host
  refine Runs.bind (Q := fun a w' => a = b ∧ w' = w) (runs_ofHost hg hb (R.refl _) ⟨rfl, rfl⟩) ?_
  rintro a w' hg' ⟨rfl, rfl⟩
  cases a with
  | true => exact runs_pure hg' ⟨rfl, hb⟩
  | false => exact runs_raise hg' (.inr (.inl rfl))

theorem runs_found {span : Span} {cause : FaultCause} {r : Option NodeRef}
    (hg : w.globals.Matches g) (hc : cause.kind.IsOrdinary) :
    Runs g R (found span cause r) w (fun v _ => v.type = .node) := by
  cases r with
  | none => exact runs_raise hg hc
  | some ref => exact runs_pure hg rfl

/-- The value of a variable: that of the innermost local one of its name, or else of a global. -/
theorem lookup_run (locals : Locals) (id : Ident) (w : World σ) :
    lookup locals id w =
      match (locals.find? id.name).or (w.globals.find? id.name) with
      | some v => .ok v w
      | none   => .error (.fault ⟨.noValue id.name, some id.span, []⟩) w := by
  refine (bind_of_ok (x := (get : Eval σ (World σ))) rfl).trans ?_
  cases (locals.find? id.name).or (w.globals.find? id.name) <;> rfl

/-- A visible variable has a value of its type. -/
theorem runs_lookup {locals : Locals} {scope : Scope} {id : Ident} {x : Variable}
    (hs : locals.Sees g scope) (hg : w.globals.Matches g) (hx : scope.find? id.name = some x) :
    Runs g R (lookup locals id) w (fun v w' => w' = w ∧ v.type = x.type ∧
      (locals.find? id.name).or (w.globals.find? id.name) = some v) := by
  have hvis := hs w.globals hg id.name
  rw [hx, Option.map_some] at hvis
  obtain ⟨v, hv, ht⟩ := Option.map_eq_some_iff.mp hvis
  refine Runs.bind (Q := fun s w' => s = w ∧ w' = w) (⟨World.kept_refl hg, rfl, rfl⟩) ?_
  rintro _ _ hg' ⟨rfl, rfl⟩
  rw [hv]
  exact runs_pure hg' ⟨rfl, ht, rfl⟩

theorem runs_readField (hm : m.host.Keeps m.signals R) (hg : w.globals.Matches g) {base : Value}
    {span : Span} {field : Ident} {t : Ty} (ht : base.type.fieldNamed? field.name = some t) :
    Runs g R (m.readField base span field) w (fun v _ => v.type = t) := by
  by_cases hn : base.type = .node
  · cases base <;> cases hn
    rename_i ref
    obtain ⟨f, hf, hft⟩ := NodeField.ofText?_typed ht
    simp only [readField, hf]
    refine (runs_checkAlive hm hg ref span).bind fun _ w' hg' h => ?_
    obtain ⟨rfl, halive⟩ := h
    obtain ⟨v, hv, hvt⟩ := hm.getProperty ref f w'.host halive
    exact runs_ofHost hg' hv (R.refl _) (hvt.trans hft)
  · obtain ⟨v, hv, hvt⟩ := Value.getNamed?_typed hn ht
    have hread : m.readField base span field = pure v := by
      cases base <;> first | exact absurd rfl hn | simp only [readField, hv]
    rw [hread]
    exact runs_pure hg hvt

/-! ## Writing -/

/-- A value that a target may take keeps the type of the target. -/
theorem runs_combine (hg : w.globals.Matches g) {old rhs : Value} {op : AssignOp} {span : Span}
    {t u : Ty} (ht : old.type = t) (hu : rhs.type = u) (h : Combines op t u) :
    Runs g R (m.combine old rhs op span) w (fun v w' => w' = w ∧ v.type = t) := by
  -- The rules let the result keep the type of the target, so the coercion behind it is idle.
  have arithmetic : ∀ {binary : BinaryOp} {s : Ty}, op.arithmetic? = some binary →
      Settles (applyBinary binary old rhs) s → s = t →
      Runs g R (m.combine old rhs op span) w (fun v w' => w' = w ∧ v.type = t) := by
    rintro binary s hop hs rfl
    simp only [combine, hop, m.binary_arithmetic hop]
    refine (runs_settle hg hs).bind fun v w' hg' hv => ?_
    obtain ⟨rfl, hv⟩ := hv
    refine runs_pure hg' ⟨rfl, ?_⟩
    rw [ht]
    exact Value.coerceOrKeep_type (.inl hv)
  cases h with
  | set _ _ hfit =>
      refine runs_pure hg ⟨rfl, ?_⟩
      rw [ht]
      exact Value.coerceOrKeep_type (hu ▸ hfit)
  | concat => exact arithmetic rfl (applyBinary_concat_settles ht hu) rfl
  | arithmetic _ _ _ hop hold hrhs hres =>
      subst ht hu
      cases op with
      | set => exact absurd rfl hop
      | add => exact arithmetic rfl (applyBinary_arithmetic_settles (.inl rfl) hold hrhs) hres
      | sub =>
          exact arithmetic rfl (applyBinary_arithmetic_settles (.inr (.inl rfl)) hold hrhs) hres
      | mul =>
          exact arithmetic rfl
            (applyBinary_arithmetic_settles (.inr (.inr (.inl rfl))) hold hrhs) hres
      | div =>
          exact arithmetic rfl
            (applyBinary_arithmetic_settles (.inr (.inr (.inr rfl))) hold hrhs) hres

/-- The new value of the field at the head of a path, from its old one and the rest. -/
def nextValue (m : Machine σ) (rhs : Value) (op : AssignOp) (span : Span) (old : Value) :
    List Text → Eval σ Value
  | []   => m.combine old rhs op span
  | rest => m.writePath rhs op span old rest

/-- An assignment through a variable: its value is looked up, rebuilt and stored. -/
theorem assign_name (m : Machine σ) (locals : Locals) (span place : Span) (id : Ident)
    (path : List Ident) (op : AssignOp) (rhs : Value) :
    m.assign locals span ⟨place, .name id, path⟩ op rhs = (do
      let current ← lookup locals id
      let next ← m.nextValue rhs op span current (path.map Ident.name)
      store locals id.name next) := by
  cases path <;> rfl

theorem writePath_value {rhs base old : Value} {op : AssignOp} {span : Span} {name : Text}
    {rest : List Text} (hn : base.type ≠ .node) (hold : base.getNamed? name = some old) :
    m.writePath rhs op span base (name :: rest) =
      m.nextValue rhs op span old rest >>= fun next =>
        match base.setNamed? name next with
        | some rebuilt => pure rebuilt
        | none         => Eval.raise (.cannotStore next.type base.type name) (some span) := by
  rw [writePath]
  · simp only [hold]
    cases rest <;> rfl
  · rintro ref rfl
    exact hn rfl

theorem writePath_missing {rhs base : Value} {op : AssignOp} {span : Span} {name : Text}
    {rest : List Text} (hn : base.type ≠ .node) (hold : base.getNamed? name = none) :
    m.writePath rhs op span base (name :: rest) =
      Eval.raise (.noField base.type name) (some span) := by
  rw [writePath]
  · simp only [hold]
  · rintro ref rfl
    exact hn rfl

theorem writePath_node {rhs : Value} {op : AssignOp} {span : Span} {ref : NodeRef} {name : Text}
    {field : NodeField} {rest : List Text} (hf : NodeField.ofText? name = some field) :
    m.writePath rhs op span (.node ref) (name :: rest) = (do
      m.checkAlive ref span
      let old ← Eval.ofHost (m.host.getProperty ref field)
      let next ← m.nextValue rhs op span old rest
      Eval.ofHost (m.host.setProperty ref field next)
      return .node ref) := by
  rw [writePath]
  simp only [hf]
  cases rest <;> rfl

/-- Writing inside a value that is no node asks nothing of the host and keeps its type. -/
theorem runs_nextValue (hg : w.globals.Matches g) {rhs : Value} {op : AssignOp} {span : Span}
    {t u : Ty} (hu : rhs.type = u) (hc : Combines op t u) (path : List Text) :
    ∀ old : Value, old.type ≠ .node → old.type.along? path = some t →
      Runs g R (m.nextValue rhs op span old path) w (fun v w' => w' = w ∧ v.type = old.type) := by
  induction path with
  | nil =>
      intro old _ halong
      cases halong
      exact runs_combine hg rfl hu hc
  | cons name rest ih =>
      intro base hn halong
      obtain ⟨s, hs, halong⟩ := Option.bind_eq_some_iff.mp halong
      obtain ⟨old, hold, rfl⟩ := Value.getNamed?_typed hn hs
      show Runs g R (m.writePath rhs op span base (name :: rest)) w _
      rw [writePath_value hn hold]
      refine (ih old (Ty.fieldNamed?_storable hs).2 halong).bind fun v w' hg' hv => ?_
      obtain ⟨rfl, hv⟩ := hv
      obtain ⟨rebuilt, hr, hrt⟩ := Value.setNamed?_typed hn hs hv
      rw [hr]
      exact runs_pure hg' ⟨rfl, hrt⟩

/-- Writing through a node gives the node back and leaves the variables alone. -/
theorem runs_writePath_node (hm : m.host.Keeps m.signals R) (hg : w.globals.Matches g)
    {rhs : Value} {op : AssignOp} {span : Span} {t u : Ty} (hu : rhs.type = u)
    (hc : Combines op t u) {path : List Text} {ref : NodeRef} (hne : path ≠ [])
    (halong : Ty.node.along? path = some t) :
    Runs g R (m.writePath rhs op span (.node ref) path) w
      (fun v w' => v = .node ref ∧ w'.globals = w.globals) := by
  cases path with
  | nil => exact absurd rfl hne
  | cons name rest =>
      obtain ⟨s, hs, halong⟩ := Option.bind_eq_some_iff.mp halong
      obtain ⟨field, hf, rfl⟩ := NodeField.ofText?_typed hs
      rw [writePath_node hf]
      refine (runs_checkAlive hm hg ref span).bind fun _ w₁ hg₁ h => ?_
      obtain ⟨rfl, halive⟩ := h
      obtain ⟨old, hold, holdt⟩ := hm.getProperty ref field w₁.host halive
      refine Runs.bind (Q := fun v w' => old = v ∧ w₁ = w')
        (runs_ofHost hg₁ hold (R.refl _) ⟨rfl, rfl⟩) ?_
      rintro _ _ - ⟨rfl, rfl⟩
      -- The rest of the path stays inside the value of the field, away from the host.
      have hnode : old.type ≠ .node := holdt ▸ (Ty.fieldNamed?_storable hs).2
      refine (runs_nextValue hg₁ hu hc rest old hnode (holdt ▸ halong)).bind fun next w₂ hg₂ h => ?_
      obtain ⟨rfl, hnext⟩ := h
      obtain ⟨s', hset, hR⟩ := hm.setProperty ref field next w₂.host halive (hnext.trans holdt)
      refine Runs.bind (Q := fun _ w' => w'.globals = w₂.globals) (runs_ofHost hg₂ hset hR rfl) ?_
      exact fun _ w₃ hg₃ h => runs_pure hg₃ ⟨rfl, h⟩

/-- Any value of the type of a variable may be written along a path. -/
theorem runs_writePath (hm : m.host.Keeps m.signals R) (hg : w.globals.Matches g)
    {rhs base : Value} {op : AssignOp} {span : Span} {t u : Ty} (hu : rhs.type = u)
    (hc : Combines op t u) {path : List Text} (hne : path ≠ [])
    (halong : base.type.along? path = some t) :
    Runs g R (m.writePath rhs op span base path) w (fun v w' => v.type = base.type ∧
      w'.globals = w.globals ∧ (base.type = .node → v = base)) := by
  by_cases hn : base.type = .node
  · cases base <;> cases hn
    refine (runs_writePath_node hm hg hu hc hne halong).mono fun v w' h => ?_
    exact ⟨h.1 ▸ rfl, h.2, fun _ => h.1⟩
  · cases path with
    | nil => exact absurd rfl hne
    | cons name rest =>
        refine (runs_nextValue hg hu hc (name :: rest) base hn halong).mono fun v w' h => ?_
        exact ⟨h.2, by rw [h.1], fun hnode => absurd hnode hn⟩

/-- A variable takes a value of its type. One that may not be assigned takes the value that it
    has. -/
theorem runs_store {locals : Locals} {scope : Scope} {name : Text} {x : Variable} {v : Value}
    (hl : locals.Models g scope) (hg : w.globals.Matches g) (hx : scope.find? name = some x)
    (hv : v.type = x.type)
    (hfix : x.mutable = false → (locals.find? name).or (w.globals.find? name) = some v) :
    Runs g R (store locals name v) w (fun changed _ => changed.Models g scope) := by
  rw [store]
  rcases hl.assign hx hv with ⟨changed, hc, hm⟩ | ⟨hc, hgl⟩
  · rw [hc]
    exact runs_pure hg hm
  · rw [hc]
    -- No frame of the function has the name, so the store goes to the globals.
    have hset : (w.globals.set name v).Matches g := hg.set (by rw [hgl, Option.map_some, hv])
    have hsteady : w.globals.Steady g (w.globals.set name v) := by
      refine .set fun y hy hmut => ?_
      cases hgl.symm.trans hy
      simpa [Locals.find?_of_assign? hc] using hfix hmut
    refine Runs.bind (Q := fun _ _ => True) ⟨⟨hset, hsteady, R.refl _⟩, trivial⟩ ?_
    exact fun _ w' hg' _ => runs_pure hg' hl

/-- An assignment that the rules allow leaves every variable a value of its type, and every
    immutable one its value. -/
theorem runs_assign (hm : m.host.Keeps m.signals R) {locals : Locals} {s : Surroundings}
    (hl : locals.Models g s.scope) (hg : w.globals.Matches g) {span : Span} {target : AssignTarget}
    {op : AssignOp} {rhs : Value} {t : Ty} (ht : TargetOk s target t)
    (hc : Combines op t rhs.type) :
    Runs g R (m.assign locals span target op rhs) w
      (fun changed _ => changed.Models g s.scope) := by
  cases ht with
  | self _ _ path _ hne halong =>
      refine (runs_writePath_node hm hg rfl hc (by simpa using hne) halong).bind ?_
      exact fun _ w' hg' _ => runs_pure hg' hl
  | name _ id path x _ hx halong hmut =>
      refine (runs_lookup hl.sees hg hx).bind fun current w' hg' h => ?_
      obtain ⟨rfl, hcur, hvalue⟩ := h
      rw [← hcur] at halong
      cases path with
      | nil =>
          cases halong
          -- The variable itself is written, so it has to be mutable.
          have hmut : x.mutable = true := hmut.resolve_right fun h => h.2 rfl
          refine (runs_combine hg' rfl rfl hc).bind fun next w₁ hg₁ h => ?_
          exact runs_store hl hg₁ hx (h.2.trans hcur) fun hfix => by simp [hmut] at hfix
      | cons name rest =>
          refine (runs_writePath hm hg' rfl hc (by simp) halong).bind fun next w₁ hg₁ h => ?_
          obtain ⟨hnext, hglobals, hnode⟩ := h
          refine runs_store hl hg₁ hx (hnext.trans hcur) fun hfix => ?_
          -- An immutable variable holds a node here, and is given that node again.
          have hxnode : x.type = .node := (hmut.resolve_left (by simp [hfix])).1
          rw [hglobals, hnode (hcur.trans hxnode), hvalue]

end Machine

end SceneScript
