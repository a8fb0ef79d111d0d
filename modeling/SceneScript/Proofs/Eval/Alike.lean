import SceneScript.Proofs.Eval.Sound

/-!
# Hosts that a script cannot tell apart

A script learns about its host only from answers, and before it uses a node it asks whether the
node is alive. So what a host says about dead nodes is of no consequence: two hosts that agree on
the living ones take every script, checked or not, through the same run.

* **`Alike R E`** — two ends of computations: the same result with states that correspond by `R`,
  or the same stop, for a cause in `E`.
* **`Host.Agrees`** — two hosts agree on living nodes, and fail only with messages in `E`.
* **`Follows`** — from corresponding worlds, two computations end alike.
* **`Machine.FollowsAt`** — the parts of the evaluator on two hosts, at one amount of fuel.
* **`Machine.followsAt`** — they end alike at every amount, by induction.
-/

namespace SceneScript

variable {ε σ τ α β : Type}

/-! ## Computations side by side -/

/-- The two ends are the same, and the states in them correspond. -/
inductive Alike (R : σ → τ → Prop) (E : ε → Prop) :
    EStateM.Result ε σ α → EStateM.Result ε τ α → Prop where
  | ok (a : α) {s : σ} {t : τ} : R s t → Alike R E (.ok a s) (.ok a t)
  | error (e : ε) {s : σ} {t : τ} : E e → R s t → Alike R E (.error e s) (.error e t)

/-- One computation after another; what the first two stop for has to be allowed for both. -/
theorem Alike.bind {R R' : σ → τ → Prop} {E E' : ε → Prop} {x : EStateM ε σ α} {y : EStateM ε τ α}
    {f : α → EStateM ε σ β} {g : α → EStateM ε τ β} {s : σ} {t : τ} (h : Alike R' E' (x s) (y t))
    (hstop : ∀ e s' t', E' e → R' s' t' → E e ∧ R s' t')
    (hnext : ∀ a s' t', R' s' t' → Alike R E (f a s') (g a t')) :
    Alike R E ((x >>= f) s) ((y >>= g) t) := by
  generalize hx : x s = r at h
  generalize hy : y t = q at h
  cases h with
  | ok a hR =>
      rw [bind_of_ok hx, bind_of_ok hy]
      exact hnext a _ _ hR
  | error e hE hR =>
      rw [bind_of_error hx, bind_of_error hy]
      obtain ⟨hE, hR⟩ := hstop e _ _ hE hR
      exact .error e hE hR

/-- The same globals, and hosts that correspond. -/
def World.Beside (R : σ → τ → Prop) (w : World σ) (v : World τ) : Prop :=
  w.globals = v.globals ∧ R w.host v.host

/-- A failure of the host has a message in `E`. -/
def Halt.Blames (E : Text → Prop) : Halt → Prop
  | .fault f   => ∀ message, f.cause = .hostFailure message → E message
  | .outOfFuel => True

/-- From corresponding worlds, the computations end alike. -/
def Follows (R : σ → τ → Prop) (E : Text → Prop) (x : Eval σ α) (y : Eval τ α) : Prop :=
  ∀ w v, World.Beside R w v → Alike (World.Beside R) (Halt.Blames E) (x w) (y v)

/-- The computations end alike and leave their worlds alone, whatever these are. -/
def Idle (x : Eval σ α) (y : Eval τ α) : Prop :=
  ∀ w v, Alike (fun w' v' => w' = w ∧ v' = v) (Halt.Blames fun _ => False) (x w) (y v)

variable {R : σ → τ → Prop} {E : Text → Prop}

theorem Halt.Blames.mono {E' : Text → Prop} {h : Halt} (hE : ∀ message, E message → E' message)
    (hh : h.Blames E) : h.Blames E' := by
  cases h with
  | fault f => exact fun message hcause => hE message (hh message hcause)
  | outOfFuel => trivial

theorem Follows.bind {x : Eval σ α} {y : Eval τ α} {f : α → Eval σ β} {g : α → Eval τ β}
    (h : Follows R E x y) (hnext : ∀ a, Follows R E (f a) (g a)) :
    Follows R E (x >>= f) (y >>= g) := fun w v hw =>
  (h w v hw).bind (fun _ _ _ hE hR => ⟨hE, hR⟩) fun a w' v' hw' => hnext a w' v' hw'

theorem Idle.bind {x : Eval σ α} {y : Eval τ α} {f : α → Eval σ β} {g : α → Eval τ β}
    (h : Idle x y) (hnext : ∀ a, Idle (f a) (g a)) : Idle (x >>= f) (y >>= g) := by
  intro w v
  refine (h w v).bind (fun _ _ _ hE hw => ⟨hE, hw⟩) ?_
  rintro a _ _ ⟨rfl, rfl⟩
  exact hnext a _ _

/-- Behind idle computations the worlds are the same as before. -/
theorem Idle.alike_bind {x : Eval σ α} {y : Eval τ α} {f : α → Eval σ β} {g : α → Eval τ β}
    {w : World σ} {v : World τ} (h : Idle x y) (hw : World.Beside R w v)
    (hnext : ∀ a, Alike (World.Beside R) (Halt.Blames E) (f a w) (g a v)) :
    Alike (World.Beside R) (Halt.Blames E) ((x >>= f) w) ((y >>= g) v) := by
  refine (h w v).bind ?_ ?_
  · rintro e _ _ hE ⟨rfl, rfl⟩
    exact ⟨hE.mono fun _ => False.elim, hw⟩
  · rintro a _ _ ⟨rfl, rfl⟩
    exact hnext a

theorem idle_pure (a : α) : Idle (pure a : Eval σ α) (pure a : Eval τ α) :=
  fun _ _ => .ok a ⟨rfl, rfl⟩

theorem idle_raise {cause : FaultCause} {span : Option Span}
    (h : ∀ message, cause ≠ .hostFailure message) :
    Idle (Eval.raise cause span : Eval σ α) (Eval.raise cause span : Eval τ α) :=
  fun _ _ => .error _ h ⟨rfl, rfl⟩

theorem idle_outOfFuel : Idle (throw .outOfFuel : Eval σ α) (throw .outOfFuel : Eval τ α) :=
  fun _ _ => .error _ trivial ⟨rfl, rfl⟩

theorem Idle.follows {x : Eval σ α} {y : Eval τ α} (h : Idle x y) : Follows R E x y := by
  intro w v hw
  have hend := h w v
  generalize x w = r at hend
  generalize y v = q at hend
  cases hend with
  | ok a hs =>
      obtain ⟨rfl, rfl⟩ := hs
      exact .ok a hw
  | error e hE hs =>
      obtain ⟨rfl, rfl⟩ := hs
      exact .error e (hE.mono fun _ => False.elim) hw

theorem follows_pure (a : α) : Follows R E (pure a) (pure a) := (idle_pure a).follows

theorem follows_raise {cause : FaultCause} {span : Option Span}
    (h : ∀ message, cause ≠ .hostFailure message) :
    Follows R E (Eval.raise cause span : Eval σ α) (Eval.raise cause span) := (idle_raise h).follows

theorem follows_outOfFuel : Follows R E (throw .outOfFuel : Eval σ α) (throw .outOfFuel) :=
  idle_outOfFuel.follows

/-- Operations of two hosts that end alike. -/
theorem alike_ofHost {call : HostCall σ α} {other : HostCall τ α} {w : World σ} {v : World τ}
    (hg : w.globals = v.globals) (h : Alike R E (call w.host) (other v.host)) :
    Alike (World.Beside R) (Halt.Blames E) (Eval.ofHost call w) (Eval.ofHost other v) := by
  rw [Eval.ofHost, Eval.ofHost]
  generalize call w.host = r at h
  generalize other v.host = q at h
  cases h with
  | ok a hR => exact .ok a ⟨hg, hR⟩
  | error e hE hR => exact .error _ (fun _ hm => FaultCause.hostFailure.inj hm ▸ hE) ⟨hg, hR⟩

theorem Follows.inFunction {x : Eval σ α} {y : Eval τ α} (h : Follows R E x y) (name : Text) :
    Follows R E (Eval.inFunction name x) (Eval.inFunction name y) := by
  intro w v hw
  have hend := h w v hw
  rw [Eval.inFunction, Eval.inFunction]
  generalize x w = r at hend
  generalize y v = q at hend
  cases hend with
  | ok a hs => exact .ok a hs
  | error e hE hs =>
      cases e with
      | outOfFuel => exact .error _ trivial hs
      | fault f =>
          refine .error _ (fun message hm => ?_) hs
          -- The trace is all that changes.
          exact hE message (f.within_cause name ▸ hm)

/-! ## Hosts -/

/-- The hosts answer alike, as long as they are asked about living nodes only. A living node has
    fields, none of which holds a node; to look at a field, or at whether a node is alive, changes
    nothing for the first host. -/
structure Host.Agrees (host : Host σ) (other : Host τ) (R : σ → τ → Prop) (E : Text → Prop) :
    Prop where
  sameNode : ∀ a b {s t}, R s t → Alike R E (host.sameNode a b s) (other.sameNode a b t)
  print : ∀ line {s t}, R s t → Alike R E (host.print line s) (other.print line t)
  isAlive : ∀ ref {s t}, R s t → ∃ b, host.isAlive ref s = .ok b s ∧ other.isAlive ref t = .ok b t
  getProperty : ∀ ref field {s t}, R s t → host.Alive ref s → ∃ v t',
    host.getProperty ref field s = .ok v s ∧ other.getProperty ref field t = .ok v t' ∧ R s t' ∧
      v.type ≠ .node
  setProperty : ∀ ref field v {s t}, R s t → host.Alive ref s →
    Alike R E (host.setProperty ref field v s) (other.setProperty ref field v t)
  getNode : ∀ ref path {s t}, R s t → host.Alive ref s →
    Alike R E (host.getNode ref path s) (other.getNode ref path t)
  getParent : ∀ ref {s t}, R s t → host.Alive ref s →
    Alike R E (host.getParent ref s) (other.getParent ref t)
  findChild : ∀ ref name {s t}, R s t → host.Alive ref s →
    Alike R E (host.findChild ref name s) (other.findChild ref name t)
  emit : ∀ ref signal args {s t}, R s t → host.Alive ref s →
    Alike R E (host.emit ref signal args s) (other.emit ref signal args t)

namespace Machine

variable {m : Machine σ} {other : Host τ}

/-- The machine with another host. -/
def on (m : Machine σ) (other : Host τ) : Machine τ :=
  ⟨other, m.functions, m.signals, m.self, m.maxDepth⟩

/-! ## Steps -/

theorem idle_settle {span : Span} {r : Except FaultCause Value}
    (h : ∀ cause, r = .error cause → cause.OfOperator) :
    Idle (settle span r : Eval σ Value) (settle span r : Eval τ Value) := by
  cases r with
  | ok v => exact idle_pure v
  | error cause =>
      refine idle_raise ?_
      rintro message rfl
      exact h _ rfl

theorem follows_lookup (locals : Locals) (id : Ident) :
    Follows R E (lookup locals id : Eval σ Value) (lookup locals id) := by
  intro w v hw
  rw [lookup_run, lookup_run, ← hw.1]
  cases (locals.find? id.name).or (w.globals.find? id.name) with
  | some value => exact .ok value hw
  | none => exact .error _ (fun _ => FaultCause.noConfusion) hw

theorem follows_found (span : Span) {cause : FaultCause}
    (h : ∀ message, cause ≠ .hostFailure message) (r : Option NodeRef) :
    Follows R E (found span cause r : Eval σ Value) (found span cause r) := by
  cases r with
  | none => exact follows_raise h
  | some ref => exact follows_pure _

theorem follows_store (locals : Locals) (name : Text) (value : Value) :
    Follows R E (store locals name value : Eval σ Locals) (store locals name value) := by
  unfold store
  split
  · exact follows_pure _
  · refine Follows.bind (fun w v hw => .ok () ⟨?_, hw.2⟩) fun _ => follows_pure _
    exact congrArg (Bindings.set · name value) hw.1

theorem follows_conclude (f : FunctionInfo) (flow : Flow) :
    Follows R E (conclude f flow : Eval σ Value) (conclude f flow) := by
  cases flow with
  | returned v =>
      rw [conclude, conclude]
      split <;> exact follows_pure _
  | next _ =>
      rw [conclude, conclude]
      split
      · exact follows_pure _
      · exact follows_raise fun _ => FaultCause.noConfusion

theorem follows_textArgument (span : Span) (function : Text) (v : Value) :
    Follows R E (textArgument span function v : Eval σ Text) (textArgument span function v) := by
  unfold textArgument
  split
  · exact follows_pure _
  · exact follows_raise fun _ => FaultCause.noConfusion

variable (hm : m.host.Agrees other R E)

include hm

/-- What comes behind the check may count on a living node, and the check changes nothing. -/
theorem alike_checkAlive {ref : NodeRef} {span : Span} {f : Unit → Eval σ α} {g : Unit → Eval τ α}
    {w : World σ} {v : World τ} (hw : World.Beside R w v)
    (hnext : m.host.Alive ref w.host →
      Alike (World.Beside R) (Halt.Blames E) (f () w) (g () v)) :
    Alike (World.Beside R) (Halt.Blames E) ((m.checkAlive ref span >>= f) w)
      (((m.on other).checkAlive ref span >>= g) v) := by
  obtain ⟨b, hleft, hright⟩ := hm.isAlive ref hw.2
  have hl : Eval.ofHost (m.host.isAlive ref) w = .ok b w := ofHost_of_ok hleft
  have hr : Eval.ofHost (other.isAlive ref) v = .ok b v := ofHost_of_ok hright
  cases b with
  | true =>
      have hl' : m.checkAlive ref span w = .ok () w := bind_of_ok hl
      have hr' : (m.on other).checkAlive ref span v = .ok () v := bind_of_ok hr
      rw [bind_of_ok hl', bind_of_ok hr']
      exact hnext hleft
  | false =>
      have hl' : m.checkAlive ref span w = .error (.fault ⟨.freed ref, some span, []⟩) w :=
        bind_of_ok hl
      have hr' : (m.on other).checkAlive ref span v =
          .error (.fault ⟨.freed ref, some span, []⟩) v := bind_of_ok hr
      rw [bind_of_error hl', bind_of_error hr']
      exact .error _ (fun _ => FaultCause.noConfusion) hw

/-- A living node is asked for something. -/
theorem follows_asked {ref : NodeRef} {span : Span} {call : HostCall σ α} {call' : HostCall τ α}
    {f : α → Eval σ β} {g : α → Eval τ β}
    (hcall : ∀ {s t}, R s t → m.host.Alive ref s → Alike R E (call s) (call' t))
    (hnext : ∀ a, Follows R E (f a) (g a)) :
    Follows R E (m.checkAlive ref span >>= fun _ => Eval.ofHost call >>= f)
      ((m.on other).checkAlive ref span >>= fun _ => Eval.ofHost call' >>= g) := by
  intro w v hw
  refine alike_checkAlive hm hw fun halive => ?_
  refine (alike_ofHost hw.1 (hcall hw.2 halive)).bind (fun _ _ _ hE hR => ⟨hE, hR⟩) ?_
  exact fun a w' v' hw' => hnext a w' v' hw'

theorem follows_readField (base : Value) (span : Span) (field : Ident) :
    Follows R E (m.readField base span field) ((m.on other).readField base span field) := by
  cases base with
  | node ref =>
      unfold readField
      dsimp only
      split
      · exact follows_raise fun _ => FaultCause.noConfusion
      · next f _ =>
          intro w v hw
          refine alike_checkAlive hm hw fun halive => alike_ofHost hw.1 ?_
          obtain ⟨value, t', hl, hr, hR, _⟩ := hm.getProperty ref f hw.2 halive
          rw [hl]
          show Alike R E _ (other.getProperty ref f v.host)
          rw [hr]
          exact .ok value hR
  | _ =>
      unfold readField
      dsimp only
      split
      · exact follows_pure _
      · exact follows_raise fun _ => FaultCause.noConfusion

theorem follows_binary (span : Span) (op : BinaryOp) (l r : Value) :
    Follows R E (m.binary span op l r) ((m.on other).binary span op l r) := by
  rcases binary_cases span op l r with ⟨a, b, answer, hask⟩ | ⟨result, hcause, -, hknown⟩
  · rw [hask, hask]
    refine Follows.bind (fun w v hw => alike_ofHost hw.1 (hm.sameNode a b hw.2)) fun _ => ?_
    exact follows_pure _
  · rw [hknown, hknown]
    exact (idle_settle hcause).follows

omit hm in
theorem idle_combine (old rhs : Value) (op : AssignOp) (span : Span) :
    Idle (m.combine old rhs op span) ((m.on other).combine old rhs op span) := by
  unfold combine
  split
  · exact idle_pure _
  · next binary hop =>
      rw [binary_arithmetic _ hop, binary_arithmetic _ hop]
      exact (idle_settle fun _ => applyBinary_cause).bind fun v => idle_pure _

omit hm in
/-- Writing inside a value that is no node stays away from the host. -/
theorem idle_nextValue (rhs : Value) (op : AssignOp) (span : Span) (path : List Text) :
    ∀ old : Value, old.type ≠ .node →
      Idle (m.nextValue rhs op span old path) ((m.on other).nextValue rhs op span old path) := by
  induction path with
  | nil => exact fun old _ => idle_combine old rhs op span
  | cons name rest ih =>
      intro base hn
      show Idle (m.writePath rhs op span base (name :: rest))
        ((m.on other).writePath rhs op span base (name :: rest))
      cases hold : base.getNamed? name with
      | none =>
          rw [writePath_missing hn hold, writePath_missing hn hold]
          exact idle_raise fun _ => FaultCause.noConfusion
      | some old =>
          rw [writePath_value hn hold, writePath_value hn hold]
          refine (ih old (Value.getNamed?_ne_node hold)).bind fun next => ?_
          split
          · exact idle_pure _
          · exact idle_raise fun _ => FaultCause.noConfusion

/-- Between the check of a node and the write to it nothing is asked that could free it. -/
theorem follows_writePath (rhs : Value) (op : AssignOp) (span : Span) (base : Value)
    (path : List Text) :
    Follows R E (m.writePath rhs op span base path)
      ((m.on other).writePath rhs op span base path) := by
  cases path with
  | nil =>
      rw [writePath, writePath]
      exact follows_raise fun _ => FaultCause.noConfusion
  | cons name rest =>
      by_cases hn : base.type = .node
      · cases base <;> cases hn
        rename_i ref
        cases hf : NodeField.ofText? name with
        | none =>
            simp only [writePath, hf]
            exact follows_raise fun _ => FaultCause.noConfusion
        | some field =>
            rw [writePath_node hf, writePath_node hf]
            intro w v hw
            refine alike_checkAlive hm hw fun halive => ?_
            obtain ⟨old, t', hl, hr, hR, hold⟩ := hm.getProperty ref field hw.2 halive
            have hr' : Eval.ofHost ((m.on other).host.getProperty ref field) v =
                .ok old { v with host := t' } := ofHost_of_ok hr
            rw [bind_of_ok (ofHost_of_ok hl), bind_of_ok hr']
            have hw' : World.Beside R w { v with host := t' } := ⟨hw.1, hR⟩
            refine (idle_nextValue rhs op span rest old hold).alike_bind hw' fun next => ?_
            refine Alike.bind (alike_ofHost hw.1 (hm.setProperty ref field next hR halive))
              (fun _ _ _ hE hR => ⟨hE, hR⟩) fun _ w₁ v₁ hw₁ => ?_
            exact .ok _ hw₁
      · exact (idle_nextValue rhs op span (name :: rest) base hn).follows

theorem follows_assign (locals : Locals) (span : Span) (target : AssignTarget) (op : AssignOp)
    (rhs : Value) :
    Follows R E (m.assign locals span target op rhs)
      ((m.on other).assign locals span target op rhs) := by
  unfold assign
  dsimp only
  generalize target.path.map Ident.name = path
  cases target.root with
  | self _ => exact (follows_writePath hm _ _ _ _ path).bind fun _ => follows_pure _
  | name id =>
      refine (follows_lookup locals id).bind fun current => ?_
      cases path with
      | nil =>
          refine (idle_combine current rhs op span).follows.bind fun next => ?_
          exact follows_store locals id.name next
      | cons name rest =>
          refine (follows_writePath hm _ _ _ _ (name :: rest)).bind fun next => ?_
          exact follows_store locals id.name next

omit hm

/-! ## The whole evaluator -/

/-- The parts of the evaluator end alike on both hosts, at one amount of fuel. -/
structure FollowsAt (m : Machine σ) (other : Host τ) (R : σ → τ → Prop) (E : Text → Prop)
    (fuel : Nat) : Prop where
  eval : ∀ depth locals e,
    Follows R E (m.eval depth locals fuel e) ((m.on other).eval depth locals fuel e)
  condition : ∀ depth locals e,
    Follows R E (m.condition depth locals fuel e) ((m.on other).condition depth locals fuel e)
  evalAll : ∀ depth locals es,
    Follows R E (m.evalAll depth locals fuel es) ((m.on other).evalAll depth locals fuel es)
  evalFields : ∀ depth locals fields,
    Follows R E (m.evalFields depth locals fuel fields)
      ((m.on other).evalFields depth locals fuel fields)
  callBuiltin : ∀ depth locals b span callee args,
    Follows R E (m.callBuiltin depth locals fuel b span callee args)
      ((m.on other).callBuiltin depth locals fuel b span callee args)
  argumentText : ∀ depth locals span callee args,
    Follows R E (m.argumentText depth locals fuel span callee args)
      ((m.on other).argumentText depth locals fuel span callee args)
  call : ∀ depth name args span,
    Follows R E (m.call depth fuel name args span) ((m.on other).call depth fuel name args span)
  exec : ∀ depth locals st,
    Follows R E (m.exec depth fuel locals st) ((m.on other).exec depth fuel locals st)
  execAll : ∀ depth locals body,
    Follows R E (m.execAll depth fuel locals body) ((m.on other).execAll depth fuel locals body)
  execBlock : ∀ depth locals b,
    Follows R E (m.execBlock depth fuel locals b) ((m.on other).execBlock depth fuel locals b)
  execCond : ∀ depth locals c,
    Follows R E (m.execCond depth fuel locals c) ((m.on other).execCond depth fuel locals c)
  execLoop : ∀ depth locals test body,
    Follows R E (m.execLoop depth fuel locals test body)
      ((m.on other).execLoop depth fuel locals test body)

namespace FollowsAt

variable {fuel : Nat}

theorem zero (m : Machine σ) (other : Host τ) : FollowsAt m other R E 0 where
  eval _ _ _              := follows_outOfFuel
  condition _ _ _         := follows_outOfFuel
  evalAll _ _ _           := follows_outOfFuel
  evalFields _ _ _        := follows_outOfFuel
  callBuiltin _ _ _ _ _ _ := follows_outOfFuel
  argumentText _ _ _ _ _  := follows_outOfFuel
  call _ _ _ _            := follows_outOfFuel
  exec _ _ _              := follows_outOfFuel
  execAll _ _ _           := follows_outOfFuel
  execBlock _ _ _         := follows_outOfFuel
  execCond _ _ _          := follows_outOfFuel
  execLoop _ _ _ _        := follows_outOfFuel

variable (ih : FollowsAt m other R E fuel) (depth : Nat) (locals : Locals)

include ih

theorem binary_succ (hm : m.host.Agrees other R E) (span : Span) (op : BinaryOp)
    (left right : Expr) :
    Follows R E (m.eval depth locals (fuel + 1) (.binary span op left right))
      ((m.on other).eval depth locals (fuel + 1) (.binary span op left right)) := by
  by_cases hop : op.IsLogic
  · rcases hop with rfl | rfl
    · refine (ih.condition depth locals left).bind fun b => ?_
      cases b with
      | true => exact (ih.condition depth locals right).bind fun b' => follows_pure _
      | false => exact follows_pure _
    · refine (ih.condition depth locals left).bind fun b => ?_
      cases b with
      | true => exact follows_pure _
      | false => exact (ih.condition depth locals right).bind fun b' => follows_pure _
  · rw [eval_operator hop, eval_operator hop]
    refine (ih.eval depth locals left).bind fun l => (ih.eval depth locals right).bind fun r => ?_
    exact follows_binary hm span op l r

theorem eval_succ (hm : m.host.Agrees other R E) (e : Expr) :
    Follows R E (m.eval depth locals (fuel + 1) e)
      ((m.on other).eval depth locals (fuel + 1) e) := by
  cases e with
  | int _ n _ => exact follows_pure _
  | float _ x _ => exact follows_pure _
  | bool _ b => exact follows_pure _
  | string _ t => exact follows_pure _
  | ident id => exact follows_lookup locals id
  | self _ => exact follows_pure _
  | field span object name =>
      exact (ih.eval depth locals object).bind fun base => follows_readField hm base span name
  | unary span op arg =>
      refine (ih.eval depth locals arg).bind fun v => ?_
      exact (idle_settle fun _ => applyUnary_cause).follows
  | binary span op left right => exact ih.binary_succ depth locals hm span op left right
  | struct span name fields =>
      refine (ih.evalFields depth locals fields).bind fun values => ?_
      split
      · exact follows_pure _
      · exact follows_raise fun _ => FaultCause.noConfusion
  | call span callee args =>
      rw [Machine.eval, Machine.eval]
      split
      · exact ih.callBuiltin _ _ _ _ _ _
      · exact (ih.evalAll depth locals args).bind fun values => ih.call _ _ _ _

theorem condition_succ (e : Expr) :
    Follows R E (m.condition depth locals (fuel + 1) e)
      ((m.on other).condition depth locals (fuel + 1) e) := by
  refine (ih.eval depth locals e).bind fun v => ?_
  cases v with
  | bool b => exact follows_pure b
  | _ => exact follows_raise fun _ => FaultCause.noConfusion

theorem evalAll_succ (es : List Expr) :
    Follows R E (m.evalAll depth locals (fuel + 1) es)
      ((m.on other).evalAll depth locals (fuel + 1) es) := by
  cases es with
  | nil => exact follows_pure _
  | cons e es =>
      refine (ih.eval depth locals e).bind fun v => ?_
      exact (ih.evalAll depth locals es).bind fun vs => follows_pure _

theorem evalFields_succ (fields : List (Ident × Expr)) :
    Follows R E (m.evalFields depth locals (fuel + 1) fields)
      ((m.on other).evalFields depth locals (fuel + 1) fields) := by
  cases fields with
  | nil => exact follows_pure _
  | cons entry rest =>
      refine (ih.eval depth locals entry.2).bind fun v => ?_
      exact (ih.evalFields depth locals rest).bind fun vs => follows_pure _

theorem argumentText_succ (span : Span) (callee : Ident) (args : List Expr) :
    Follows R E (m.argumentText depth locals (fuel + 1) span callee args)
      ((m.on other).argumentText depth locals (fuel + 1) span callee args) := by
  cases args with
  | nil => exact follows_raise fun _ => FaultCause.noConfusion
  | cons arg rest =>
      exact (ih.eval depth locals arg).bind fun v => follows_textArgument arg.span callee.name v

/-- Built-in functions ask about `self`, behind their arguments and a check. -/
theorem callBuiltin_succ (hm : m.host.Agrees other R E) (b : Builtin) (span : Span)
    (callee : Ident) (args : List Expr) :
    Follows R E (m.callBuiltin depth locals (fuel + 1) b span callee args)
      ((m.on other).callBuiltin depth locals (fuel + 1) b span callee args) := by
  cases b with
  | print =>
      refine (ih.evalAll depth locals args).bind fun values => ?_
      refine Follows.bind (fun w v hw => ?_) fun _ => follows_pure _
      exact alike_ofHost hw.1 (hm.print _ hw.2)
  | emitSignal =>
      cases args with
      | nil => exact follows_raise fun _ => FaultCause.noConfusion
      | cons first rest =>
          cases first with
          | string nameSpan name =>
              have hsignal : (m.on other).signal? name = m.signal? name := rfl
              rw [Machine.callBuiltin, Machine.callBuiltin, hsignal]
              cases m.signal? name with
              | none => exact follows_raise fun _ => FaultCause.noConfusion
              | some signal =>
                  refine (ih.evalAll depth locals rest).bind fun values => ?_
                  exact follows_asked hm (hm.emit m.self _ _) fun _ => follows_pure _
          | _ => exact follows_raise fun _ => FaultCause.noConfusion
  | getParent =>
      refine follows_asked hm (hm.getParent m.self) fun r => ?_
      exact follows_found span (fun _ => FaultCause.noConfusion) r
  | getNode =>
      refine (ih.argumentText depth locals span callee args).bind fun path => ?_
      refine follows_asked hm (hm.getNode m.self path) fun r => ?_
      exact follows_found span (fun _ => FaultCause.noConfusion) r
  | hasNode =>
      refine (ih.argumentText depth locals span callee args).bind fun path => ?_
      exact follows_asked hm (hm.getNode m.self path) fun r => follows_pure _
  | findChild =>
      refine (ih.argumentText depth locals span callee args).bind fun name => ?_
      refine follows_asked hm (hm.findChild m.self name) fun r => ?_
      exact follows_found span (fun _ => FaultCause.noConfusion) r

theorem call_succ (name : Text) (args : List Value) (span : Option Span) :
    Follows R E (m.call depth (fuel + 1) name args span)
      ((m.on other).call depth (fuel + 1) name args span) := by
  have hfunction : (m.on other).function? name = m.function? name := rfl
  have hdepth : (m.on other).maxDepth = m.maxDepth := rfl
  rw [Machine.call, Machine.call, hfunction, hdepth]
  cases m.function? name with
  | none => exact follows_raise fun _ => FaultCause.noConfusion
  | some f =>
      by_cases hdeep : m.maxDepth ≤ depth
      · simp only [if_pos hdeep]
        exact follows_raise fun _ => FaultCause.noConfusion
      · simp only [if_neg hdeep]
        refine Follows.inFunction ?_ name
        exact (ih.execAll (depth + 1) _ _).bind fun flow => follows_conclude f flow

theorem exec_succ (hm : m.host.Agrees other R E) (st : Stmt Ty) :
    Follows R E (m.exec depth (fuel + 1) locals st)
      ((m.on other).exec depth (fuel + 1) locals st) := by
  cases st with
  | block b => exact ih.execBlock depth locals b
  | bind _ name _ _ init type =>
      exact (ih.eval depth locals init).bind fun v => follows_pure _
  | assign span target op value =>
      refine (ih.eval depth locals value).bind fun rhs => ?_
      exact (follows_assign hm locals span target op rhs).bind fun _ => follows_pure _
  | cond c => exact ih.execCond depth locals c
  | loop _ test body => exact ih.execLoop depth locals test body
  | ret _ e =>
      cases e with
      | none => exact follows_pure _
      | some e => exact (ih.eval depth locals e).bind fun v => follows_pure _
  | eval _ e => exact (ih.eval depth locals e).bind fun _ => follows_pure _

theorem execAll_succ (body : List (Stmt Ty)) :
    Follows R E (m.execAll depth (fuel + 1) locals body)
      ((m.on other).execAll depth (fuel + 1) locals body) := by
  cases body with
  | nil => exact follows_pure _
  | cons st rest =>
      refine (ih.exec depth locals st).bind fun flow => ?_
      cases flow with
      | next locals' => exact ih.execAll depth locals' rest
      | returned v => exact follows_pure _

theorem execBlock_succ (b : Block Ty) :
    Follows R E (m.execBlock depth (fuel + 1) locals b)
      ((m.on other).execBlock depth (fuel + 1) locals b) := by
  cases b with
  | mk _ body =>
      refine (ih.execAll depth ([] :: locals) body).bind fun flow => ?_
      cases flow with
      | next inner => exact follows_pure _
      | returned v => exact follows_pure _

theorem execCond_succ (c : Cond Ty) :
    Follows R E (m.execCond depth (fuel + 1) locals c)
      ((m.on other).execCond depth (fuel + 1) locals c) := by
  cases c with
  | mk _ test consequent alternate =>
      refine (ih.condition depth locals test).bind fun taken => ?_
      cases taken with
      | true => exact ih.execBlock depth locals consequent
      | false =>
          cases alternate with
          | absent => exact follows_pure _
          | block b => exact ih.execBlock depth locals b
          | cond c => exact ih.execCond depth locals c

theorem execLoop_succ (test : Expr) (body : Block Ty) :
    Follows R E (m.execLoop depth (fuel + 1) locals test body)
      ((m.on other).execLoop depth (fuel + 1) locals test body) := by
  refine (ih.condition depth locals test).bind fun again => ?_
  cases again with
  | true =>
      refine (ih.execBlock depth locals body).bind fun flow => ?_
      cases flow with
      | next locals' => exact ih.execLoop depth locals' test body
      | returned v => exact follows_pure _
  | false => exact follows_pure _

end FollowsAt

/-- On hosts that agree on living nodes every script runs alike, whatever the fuel. -/
theorem followsAt (hm : m.host.Agrees other R E) (fuel : Nat) : FollowsAt m other R E fuel := by
  induction fuel with
  | zero => exact .zero m other
  | succ fuel ih =>
      exact
        { eval         := fun depth locals => ih.eval_succ depth locals hm
          condition    := ih.condition_succ
          evalAll      := ih.evalAll_succ
          evalFields   := ih.evalFields_succ
          callBuiltin  := fun depth locals => ih.callBuiltin_succ depth locals hm
          argumentText := ih.argumentText_succ
          call         := ih.call_succ
          exec         := fun depth locals => ih.exec_succ depth locals hm
          execAll      := ih.execAll_succ
          execBlock    := ih.execBlock_succ
          execCond     := ih.execCond_succ
          execLoop     := ih.execLoop_succ }

end Machine

end SceneScript
