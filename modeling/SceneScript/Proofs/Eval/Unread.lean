import SceneScript.Proofs.Eval.Edited
import SceneScript.Proofs.Eval.Sound
import SceneScript.Proofs.Typing.Unread

/-!
# Running code with another value in a variable that it does not read

Two runs of code that does not read the variable `x` go side by side. Their local variables differ
in the value of `x` only, and both values have its type; since no expression has `x` in it, every
value, fault and change of the world is the same. An assignment to `x` may combine the new value
with the old one, which fails for both or for none. Only a node would give away which one it is,
when something is written through it.

* **`Locals.Beside`** — local variables that differ in the value of `x` only.
* **`Parallel`** — ends of two computations that go together.
* **`Machine.assign_parallel`** — assignments go the same way in both runs.
* **`Machine.UnreadAt`** — every part of the evaluator does the same with another initializer for
  `x`, at one amount of fuel; **`Machine.unreadAt`** by induction.
-/

namespace SceneScript

variable {σ α β : Type} {g : List Variable} {R : Changes σ} {w : World σ} {x : Ident}

/-! ## Frames side by side -/

/-- Two frames of the same variables, with the same values but for the variable `x`. -/
structure Bindings.Beside (x : Ident) (frame : List Variable) (b b' : Bindings) : Prop where
  left  : b.Matches frame
  right : b'.Matches frame
  same  : ∀ name v, Scope.inFrame? name frame = some v → v.id ≠ x → b'.find? name = b.find? name

/-- The local variables of two runs above the globals `g`: the same, with the same values but for
    the variable `x`. -/
inductive Locals.Beside (x : Ident) (g : List Variable) : Scope → Locals → Locals → Prop where
  | body {frame : List Variable} {b b' : Bindings} :
      b.Beside x frame b' → Beside x g [frame, g] [b] [b']
  | inner {frame : List Variable} {scope : Scope} {b b' : Bindings} {l l' : Locals} :
      b.Beside x frame b' → Beside x g scope l l' →
      Beside x g (frame :: scope) (b :: l) (b' :: l')

namespace Bindings

theorem Matches.find?_none {b : Bindings} {frame : List Variable} (h : b.Matches frame)
    {name : Text} : b.find? name = none ↔ Scope.inFrame? name frame = none := by
  have hname := h name
  rw [← Option.map_eq_none_iff (f := Value.type), hname, Option.map_eq_none_iff]

theorem Beside.refl {frame : List Variable} {b : Bindings} (h : b.Matches frame) :
    b.Beside x frame b := ⟨h, h, fun _ _ _ _ => rfl⟩

/-- A new variable, with the same value in both frames unless it is `x`. -/
theorem Beside.declare {frame : List Variable} {b b' : Bindings} (h : b.Beside x frame b')
    {v : Variable} {a a' : Value} (hfresh : Scope.inFrame? v.id.name frame = none)
    (ha : a.type = v.type) (ha' : a'.type = v.type) (hsame : v.id ≠ x → a' = a) :
    (b.set v.id.name a).Beside x (frame ++ [v]) (b'.set v.id.name a') := by
  refine ⟨h.left.declare hfresh ha, h.right.declare hfresh ha', fun name u hu hux => ?_⟩
  rw [Bindings.find?_set, Bindings.find?_set]
  rw [Scope.inFrame?_append] at hu
  by_cases hname : v.id.name = name
  · subst hname
    rw [hfresh, Option.none_or, if_pos rfl] at hu
    cases hu
    rw [if_pos rfl, if_pos rfl, hsame hux]
  · rw [if_neg hname, Option.or_none] at hu
    rw [if_neg hname, if_neg hname]
    exact h.same name u hu hux

/-- A variable is set, to the same value in both frames unless it is `x`. -/
theorem Beside.set {frame : List Variable} {b b' : Bindings} (h : b.Beside x frame b')
    {name : Text} {v : Variable} {a a' : Value} (hv : Scope.inFrame? name frame = some v)
    (ha : a.type = v.type) (ha' : a'.type = v.type) (hsame : v.id ≠ x → a' = a) :
    (b.set name a).Beside x frame (b'.set name a') := by
  refine ⟨h.left.set (by rw [hv, Option.map_some, ha]),
    h.right.set (by rw [hv, Option.map_some, ha']), fun other u hu hux => ?_⟩
  rw [Bindings.find?_set, Bindings.find?_set]
  by_cases hname : name = other
  · subst hname
    cases hv.symm.trans hu
    rw [if_pos rfl, if_pos rfl, hsame hux]
  · rw [if_neg hname, if_neg hname]
    exact h.same other u hu hux

end Bindings

namespace Locals.Beside

variable {scope : Scope} {l l' : Locals}

theorem left (h : Locals.Beside x g scope l l') : l.Models g scope := by
  induction h with
  | body hb => exact .body hb.left
  | inner hb _ ih => exact .inner hb.left ih

theorem right (h : Locals.Beside x g scope l l') : l'.Models g scope := by
  induction h with
  | body hb => exact .body hb.right
  | inner hb _ ih => exact .inner hb.right ih

/-- A name that does not mean `x` has the same value in both. -/
theorem find? (h : Locals.Beside x g scope l l') {name : Text}
    (hname : ∀ v, scope.find? name = some v → v.id ≠ x) : l'.find? name = l.find? name := by
  -- Where the innermost frames have the name they decide.
  have here : ∀ {frame : List Variable} {scope : Scope} {b b' : Bindings},
      b.Beside x frame b' → (∀ v, Scope.find? (frame :: scope) name = some v → v.id ≠ x) →
      b'.find? name = b.find? name ∧
        (b.find? name = none → ∀ v, Scope.find? scope name = some v → v.id ≠ x) := by
    intro frame scope b b' hb hname
    simp only [Scope.find?_cons] at hname
    cases hv : Scope.inFrame? name frame with
    | none =>
        rw [hb.left.find?_none.mpr hv, hb.right.find?_none.mpr hv]
        rw [hv] at hname
        exact ⟨rfl, fun _ => hname⟩
    | some v =>
        rw [hv] at hname
        refine ⟨hb.same name v hv (hname v rfl), fun hnone => ?_⟩
        rw [hb.left.find?_none, hv] at hnone
        cases hnone
  induction h with
  | body hb => rw [find?_cons, find?_cons, (here hb hname).1]
  | inner hb _ ih =>
      obtain ⟨hsame, hrest⟩ := here hb hname
      rw [find?_cons, find?_cons, hsame]
      rename_i b _ _ _ _
      cases hb : b.find? name with
      | some a => rfl
      | none => rw [Option.none_or, Option.none_or, ih (hrest hb)]

theorem declare (h : Locals.Beside x g scope l l') {v : Variable} {scope' : Scope} {a a' : Value}
    (hdef : scope.define? v = some scope') (ha : a.type = v.type) (ha' : a'.type = v.type)
    (hsame : v.id ≠ x → a' = a) :
    Locals.Beside x g scope' (l.declare v.id.name a) (l'.declare v.id.name a') := by
  have fresh : ∀ {frame : List Variable} {frames scope' : Scope},
      Scope.define? (frame :: frames) v = some scope' →
      Scope.inFrame? v.id.name frame = none ∧ scope' = (frame ++ [v]) :: frames := by
    intro frame frames scope' hdef
    simp only [Scope.define?] at hdef
    split at hdef
    · cases hdef
    · exact ⟨Option.not_isSome_iff_eq_none.mp ‹_›, (Option.some.inj hdef).symm⟩
  cases h with
  | body hb =>
      obtain ⟨hfresh, rfl⟩ := fresh hdef
      exact .body (hb.declare hfresh ha ha' hsame)
  | inner hb hrest =>
      obtain ⟨hfresh, rfl⟩ := fresh hdef
      exact .inner (hb.declare hfresh ha ha' hsame) hrest

/-- A store reaches the same variable in both, or there is no local one of that name in either. -/
theorem assign (h : Locals.Beside x g scope l l') {name : Text} {v : Variable} {a a' : Value}
    (hv : scope.find? name = some v) (ha : a.type = v.type) (ha' : a'.type = v.type)
    (hsame : v.id ≠ x → a' = a) :
    (∃ c c', l.assign? name a = some c ∧ l'.assign? name a' = some c' ∧
      Locals.Beside x g scope c c') ∨
    (l.assign? name a = none ∧ l'.assign? name a' = none) := by
  -- The frames that have the name are the same ones on both sides.
  have here : ∀ {frame : List Variable} {scope : Scope} {b b' : Bindings},
      b.Beside x frame b' → Scope.find? (frame :: scope) name = some v →
      ((b.find? name).isSome = true ∧ (b'.find? name).isSome = true ∧
        (b.set name a).Beside x frame (b'.set name a')) ∨
      ((b.find? name).isSome = false ∧ (b'.find? name).isSome = false ∧
        Scope.find? scope name = some v) := by
    intro frame scope b b' hb hv
    rw [Scope.find?_cons] at hv
    cases hu : Scope.inFrame? name frame with
    | none =>
        rw [hu, Option.none_or] at hv
        exact .inr ⟨by rw [hb.left.find?_none.mpr hu]; rfl,
          by rw [hb.right.find?_none.mpr hu]; rfl, hv⟩
    | some u =>
        rw [hu] at hv
        cases hv
        have hsome : ∀ {b : Bindings}, b.Matches frame → (b.find? name).isSome = true :=
          fun hb => Option.isSome_iff_ne_none.mpr fun hnone => by
            rw [hb.find?_none, hu] at hnone
            cases hnone
        exact .inl ⟨hsome hb.left, hsome hb.right, hb.set hu ha ha' hsame⟩
  induction h with
  | body hb =>
      rcases here hb hv with ⟨hs, hs', hset⟩ | ⟨hs, hs', -⟩
      · exact .inl ⟨_, _, by rw [assign?, if_pos hs], by rw [assign?, if_pos hs'], .body hset⟩
      · exact .inr ⟨by simp [assign?, hs], by simp [assign?, hs']⟩
  | inner hb hrest ih =>
      rcases here hb hv with ⟨hs, hs', hset⟩ | ⟨hs, hs', hv⟩
      · exact .inl ⟨_, _, by rw [assign?, if_pos hs], by rw [assign?, if_pos hs'],
          .inner hset hrest⟩
      · rcases ih hv with ⟨c, c', hc, hc', hbeside⟩ | ⟨hc, hc'⟩
        · exact .inl ⟨_, _, by simp [assign?, hs, hc], by simp [assign?, hs', hc'],
            .inner hb hbeside⟩
        · exact .inr ⟨by simp [assign?, hs, hc], by simp [assign?, hs', hc']⟩

theorem tail {frame : List Variable} (hne : scope ≠ [g])
    (h : Locals.Beside x g (frame :: scope) l l') : Locals.Beside x g scope l.tail l'.tail := by
  cases h with
  | body _ => exact absurd rfl hne
  | inner _ hrest => exact hrest

end Locals.Beside

/-! ## Runs side by side -/

/-- Two ends of computations: values that go together in the same world, or the same stop. -/
inductive Parallel (P : α → α → Prop) :
    EStateM.Result Halt (World σ) α → EStateM.Result Halt (World σ) α → Prop where
  | ok {a a' : α} {w : World σ} : P a a' → Parallel P (.ok a w) (.ok a' w)
  | error (e : Halt) (w : World σ) : Parallel P (.error e w) (.error e w)

namespace Parallel

variable {P P' : α → α → Prop} {y y' : Eval σ α}

theorem of_eq (h : y' w = y w) : Parallel (fun a a' => a' = a) (y w) (y' w) := by
  rw [h]
  cases y w with
  | ok a v => exact .ok rfl
  | error e v => exact .error e v

theorem eq (h : Parallel (fun a a' => a' = a) (y w) (y' w)) : y' w = y w := by
  generalize y w = r at h
  generalize y' w = r' at h
  cases h with
  | ok h => rw [h]
  | error e v => rfl

theorem mono {r r' : EStateM.Result Halt (World σ) α} (h : Parallel P r r')
    (hP : ∀ a a', P a a' → P' a a') : Parallel P' r r' := by
  cases h with
  | ok h => exact .ok (hP _ _ h)
  | error e v => exact .error e v

/-- One step after another, when the first run is one of typed code. -/
theorem bind {Q : α → World σ → Prop} {S : β → β → Prop} {f f' : α → Eval σ β}
    (h : Parallel P (y w) (y' w)) (hruns : Runs g R y w Q)
    (hnext : ∀ a a' v, P a a' → v.globals.Matches g → Q a v → Parallel S (f a v) (f' a' v)) :
    Parallel S ((y >>= f) w) ((y' >>= f') w) := by
  generalize hr : y w = r at h
  generalize hr' : y' w = r' at h
  cases h with
  | ok h =>
      obtain ⟨htyped, hq⟩ := hruns.of_ok hr
      rw [bind_of_ok hr, bind_of_ok hr']
      exact hnext _ _ _ h htyped hq
  | error e v =>
      rw [bind_of_error hr, bind_of_error hr']
      exact .error e v

/-- Values of whose types more is known. -/
theorem and {Q Q' : α → World σ → Prop} (h : Parallel P (y w) (y' w)) (hruns : Runs g R y w Q)
    (hruns' : Runs g R y' w Q') :
    Parallel (fun a a' => P a a' ∧ (∃ v, Q a v) ∧ ∃ v, Q' a' v) (y w) (y' w) := by
  generalize hr : y w = r at h
  generalize hr' : y' w = r' at h
  cases h with
  | ok h => exact .ok ⟨h, ⟨_, (hruns.of_ok hr).2⟩, ⟨_, (hruns'.of_ok hr').2⟩⟩
  | error e v => exact .error e v

end Parallel

/-- The same next step: locals that go together, or one value that is returned. -/
inductive Flow.Beside (P : Locals → Locals → Prop) : Flow → Flow → Prop where
  | next {l l' : Locals} : P l l' → Flow.Beside P (.next l) (.next l')
  | returned (v : Value) : Flow.Beside P (.returned v) (.returned v)

namespace Machine

variable {m : Machine σ}

/-! ## Assignments -/

/-- An operator on numbers goes the same way for all values of one type: it can only fail by its
    right operand. -/
theorem applyBinary_parallel {op : BinaryOp} (hop : op.IsArithmetic) {l l' r : Value}
    (htype : l'.type = l.type) (hl : l.type.isNumeric = true) (hr : r.type.isNumeric = true) :
    (∃ v v', applyBinary op l r = .ok v ∧ applyBinary op l' r = .ok v') ∨
    ∃ cause, applyBinary op l r = .error cause ∧
      applyBinary op l' r = .error cause := by
  have ints : ∀ i j n, (∃ v v', applyInts op i n = .ok v ∧ applyInts op j n = .ok v') ∨
      ∃ cause, applyInts op i n = .error cause ∧ applyInts op j n = .error cause := by
    intro i j n
    rcases hop with rfl | rfl | rfl | rfl
    · exact .inl ⟨_, _, rfl, rfl⟩
    · exact .inl ⟨_, _, rfl, rfl⟩
    · exact .inl ⟨_, _, rfl, rfl⟩
    · by_cases hn : n = 0
      · exact .inr ⟨.divisionByZero, by rw [applyInts, if_pos hn], by rw [applyInts, if_pos hn]⟩
      · exact .inl ⟨_, _, by rw [applyInts, if_neg hn], by rw [applyInts, if_neg hn]⟩
  cases l <;> cases hl <;> cases l' <;> cases htype <;> cases r <;> cases hr
  · rename_i i j n
    have hints : ∀ k, applyBinary op (.int k) (.int n) = applyInts op k n := by
      rcases hop with rfl | rfl | rfl | rfl <;> exact fun _ => rfl
    rw [hints, hints]
    exact ints i j n
  all_goals rcases hop with rfl | rfl | rfl | rfl <;> exact .inl ⟨_, _, rfl, rfl⟩

/-- Combining a value with an old one goes the same way for all old values of one type. -/
theorem combine_parallel {old old' rhs : Value} {op : AssignOp} {span : Span} {t u : Ty}
    (ht : old.type = t) (ht' : old'.type = t) (hu : rhs.type = u) (hc : Combines op t u) :
    Parallel (fun _ _ => True) (m.combine old rhs op span w) (m.combine old' rhs op span w) := by
  have arithmetic : ∀ {binary : BinaryOp}, op.arithmetic? = some binary →
      ((∃ v v', applyBinary binary old rhs = .ok v ∧
        applyBinary binary old' rhs = .ok v') ∨
      ∃ cause, applyBinary binary old rhs = .error cause ∧
        applyBinary binary old' rhs = .error cause) →
      Parallel (fun _ _ => True) (m.combine old rhs op span w)
        (m.combine old' rhs op span w) := by
    intro binary hop h
    simp only [combine, hop, m.binary_arithmetic hop]
    rcases h with ⟨v, v', h, h'⟩ | ⟨cause, h, h'⟩
    · rw [h, h']
      exact .ok trivial
    · rw [h, h']
      exact .error _ _
  cases hc with
  | set _ _ _ => exact .ok trivial
  | concat =>
      cases old <;> cases ht
      cases old' <;> cases ht'
      cases rhs <;> cases hu
      exact arithmetic rfl (.inl ⟨_, _, rfl, rfl⟩)
  | arithmetic _ _ _ hop hold hrhs _ =>
      subst ht hu
      have hsame : old'.type = old.type := ht'
      cases op with
      | set => exact absurd rfl hop
      | add => exact arithmetic rfl (applyBinary_parallel (.inl rfl) hsame hold hrhs)
      | sub => exact arithmetic rfl (applyBinary_parallel (.inr (.inl rfl)) hsame hold hrhs)
      | mul =>
          exact arithmetic rfl (applyBinary_parallel (.inr (.inr (.inl rfl))) hsame hold hrhs)
      | div =>
          exact arithmetic rfl (applyBinary_parallel (.inr (.inr (.inr rfl))) hsame hold hrhs)

/-- So does writing inside a value that is no node. -/
theorem nextValue_parallel (R : Changes σ) {rhs : Value} {op : AssignOp} {span : Span} {t u : Ty}
    (hg : w.globals.Matches g) (hu : rhs.type = u) (hc : Combines op t u) (path : List Text) :
    ∀ old old' : Value, old.type ≠ .node → old'.type = old.type → old.type.along? path = some t →
      Parallel (fun _ _ => True) (m.nextValue rhs op span old path w)
        (m.nextValue rhs op span old' path w) := by
  induction path with
  | nil =>
      intro old old' _ htype halong
      exact combine_parallel (Option.some.inj halong) (htype.trans (Option.some.inj halong)) hu hc
  | cons name rest ih =>
      intro base base' hn htype halong
      have hn' : base'.type ≠ .node := fun h => hn (htype.symm.trans h)
      obtain ⟨s, hs, halong⟩ := Option.bind_eq_some_iff.mp halong
      obtain ⟨old, hold, rfl⟩ := Value.getNamed?_typed hn hs
      obtain ⟨old', hold', htype'⟩ := Value.getNamed?_typed hn' (htype ▸ hs)
      have hnode : old.type ≠ .node := (Ty.fieldNamed?_storable hs).2
      show Parallel _ (m.writePath rhs op span base (name :: rest) w)
        (m.writePath rhs op span base' (name :: rest) w)
      rw [writePath_value hn hold, writePath_value hn' hold']
      have hruns : Runs g R (m.nextValue rhs op span old rest) w _ :=
        runs_nextValue hg hu hc rest old hnode halong
      have hruns' : Runs g R (m.nextValue rhs op span old' rest) w _ :=
        runs_nextValue hg hu hc rest old' (htype' ▸ hnode) (htype' ▸ halong)
      refine ((ih old old' hnode htype' halong).and hruns hruns').bind hruns ?_
      rintro v v' w' ⟨-, ⟨_, -, hv⟩, ⟨_, -, hv'⟩⟩ - -
      -- The new values of the field have its type, so both can be put into place.
      obtain ⟨rebuilt, hr, -⟩ := Value.setNamed?_typed hn hs hv
      obtain ⟨rebuilt', hr', -⟩ := Value.setNamed?_typed hn' (htype ▸ hs) (hv'.trans htype')
      rw [hr, hr']
      exact .ok trivial

/-- A value that is no node is written, as a whole or along a path. -/
theorem write_parallel (R : Changes σ) {current current' rhs : Value} {op : AssignOp} {span : Span}
    {t : Ty} {path : List Text} (hg : w.globals.Matches g) (hn : current.type ≠ .node)
    (htype : current'.type = current.type) (hc : Combines op t rhs.type)
    (halong : current.type.along? path = some t) :
    Parallel (fun v v' => v.type = current.type ∧ v'.type = current.type)
      (m.nextValue rhs op span current path w) (m.nextValue rhs op span current' path w) := by
  have hruns : Runs g R (m.nextValue rhs op span current path) w _ :=
    runs_nextValue hg rfl hc path current hn halong
  have hruns' : Runs g R (m.nextValue rhs op span current' path) w _ :=
    runs_nextValue hg rfl hc path current' (htype ▸ hn) (htype ▸ halong)
  refine ((nextValue_parallel R hg rfl hc path current current' hn htype halong).and hruns
    hruns').mono ?_
  rintro v v' ⟨-, ⟨_, -, hv⟩, ⟨_, -, hv'⟩⟩
  exact ⟨hv, hv'.trans htype⟩

/-- What is written into the value of a variable has its type again. -/
theorem runs_write (hm : m.host.Keeps m.signals R) (hg : w.globals.Matches g)
    {current rhs : Value} {op : AssignOp} {span : Span} {t : Ty} (hc : Combines op t rhs.type)
    {path : List Text} (halong : current.type.along? path = some t) :
    Runs g R (m.nextValue rhs op span current path) w (fun v _ => v.type = current.type) := by
  cases path with
  | nil => exact (runs_combine hg (Option.some.inj halong) rfl hc).mono fun _ _ h =>
      h.2.trans (Option.some.inj halong).symm
  | cons name rest => exact (runs_writePath hm hg rfl hc (by simp) halong).mono fun _ _ h => h.1

/-- Assigning goes the same way in both runs. -/
theorem assign_parallel (hm : m.host.Keeps m.signals R) {s : Surroundings} {l l' : Locals}
    (hl : Locals.Beside x g s.scope l l') (hg : w.globals.Matches g) {span : Span}
    {target : AssignTarget} {op : AssignOp} {rhs : Value} {t : Ty} (ht : TargetOk s target t)
    (hc : Combines op t rhs.type) (hspares : target.Spares x s) :
    Parallel (Locals.Beside x g s.scope) (m.assign l span target op rhs w)
      (m.assign l' span target op rhs w) := by
  cases ht with
  | self rootSpan _ path _ hne halong =>
      refine Parallel.bind (.of_eq rfl)
        (runs_writePath_node hm hg rfl hc (by simpa using hne) halong) fun _ _ _ _ _ _ => .ok hl
  | name targetSpan id path v _ hv halong hmut =>
      obtain ⟨current, hcur, htype⟩ : ∃ current, (l.find? id.name).or (w.globals.find? id.name) =
          some current ∧ current.type = v.type := by
        have hvis := hl.left.sees w.globals hg id.name
        rw [hv] at hvis
        exact Option.map_eq_some_iff.mp hvis
      obtain ⟨current', hcur', htype'⟩ : ∃ current, (l'.find? id.name).or
          (w.globals.find? id.name) = some current ∧ current.type = v.type := by
        have hvis := hl.right.sees w.globals hg id.name
        rw [hv] at hvis
        exact Option.map_eq_some_iff.mp hvis
      rw [← htype] at halong
      rw [assign_name, assign_name, bind_of_ok ((lookup_run l id w).trans (by rw [hcur])),
        bind_of_ok ((lookup_run l' id w).trans (by rw [hcur']))]
      have hruns : Runs g R (m.nextValue rhs op span current (path.map Ident.name)) w
          (fun v _ => v.type = current.type) := runs_write hm hg hc halong
      by_cases hsame : current' = current
      · subst hsame
        refine Parallel.bind (.of_eq rfl) hruns fun next next' w₁ hnext _ hn => ?_
        subst hnext
        have hn := hn.trans htype
        rcases hl.assign hv hn hn fun _ => rfl with ⟨c, c', hc, hc', hb⟩ | ⟨hc, hc'⟩
        · rw [store, store, hc, hc']
          exact .ok hb
        · rw [store, store, hc, hc']
          exact .ok hl
      · -- Only `x` has another value, and it is no node.
        have hx : v.id = x := by
          by_contra hne
          rw [hl.find? fun u hu => by cases hv.symm.trans hu; exact hne, hcur] at hcur'
          exact hsame (Option.some.inj hcur').symm
        have hnode : current.type ≠ .node := htype ▸ hspares id rfl v hv hx
        refine Parallel.bind (write_parallel R hg hnode (htype'.trans htype.symm) hc halong) hruns
          fun next next' w₁ hnext _ _ => ?_
        rcases hl.assign hv (hnext.1.trans htype) (hnext.2.trans htype) fun hne => absurd hx hne
          with ⟨c, c', hc, hc', hb⟩ | ⟨hc, hc'⟩
        · rw [store, store, hc, hc']
          exact .ok hb
        · -- Without a local variable of this name both runs read the same global.
          rw [Locals.find?_of_assign? hc] at hcur
          rw [Locals.find?_of_assign? hc'] at hcur'
          exact absurd (Option.some.inj (hcur'.symm.trans hcur)) hsame

end Machine

/-! ## Expressions -/

/-- The names in expressions mean the same in both. -/
def Locals.Agree (l l' : Locals) (parts : List Expr) : Prop :=
  ∀ id, .ident id ∈ parts → l'.find? id.name = l.find? id.name

theorem Locals.Agree.mono {l l' : Locals} {parts parts' : List Expr} (h : l.Agree l' parts)
    (hsub : parts' ⊆ parts) : l.Agree l' parts' := fun id hid => h id (hsub hid)

/-- Code that does not read `x` finds the same values in both. -/
theorem Locals.Beside.agree {s : Surroundings} {l l' : Locals} {parts : List Expr}
    (h : Beside x g s.scope l l') (hunread : s.Unread x parts) : l.Agree l' parts :=
  fun id hid => h.find? fun v hv => hunread id hid v hv

/-- The same first step, and the same next one after all that the first may lead to. -/
theorem bind_eq_of_runs {y y' : Eval σ α} {f f' : α → Eval σ β} {Q : α → World σ → Prop}
    (h : y' w = y w) (hruns : Runs g R y w Q)
    (hnext : ∀ a v, v.globals.Matches g → Q a v → f' a v = f a v) :
    (y' >>= f') w = (y >>= f) w := by
  refine Parallel.eq (Parallel.bind (.of_eq h) hruns fun a a' v hsame hg hq => ?_)
  subst hsame
  exact .of_eq (hnext _ v hg hq)

theorem bind_eq_first {y y' : Eval σ α} (h : y' w = y w) (f : α → Eval σ β) :
    (y' >>= f) w = (y >>= f) w := by
  show EStateM.bind _ _ _ = EStateM.bind _ _ _
  rw [EStateM.bind, EStateM.bind, h]

theorem Eval.inFunction_eq {y y' : Eval σ α} (h : y' w = y w) {name : Text} :
    inFunction name y' w = inFunction name y w := by
  rw [inFunction, inFunction, h]

/-- A literal, a name or `self` has a value, and leaves the world as it is. -/
theorem Expr.IsAtom.eval {e : Expr} (ha : e.IsAtom) {s : Surroundings} {t : Ty}
    (he : HasType s e t) {l : Locals} (hl : l.Sees g s.scope) (hg : w.globals.Matches g)
    (m : Machine σ) (depth fuel : Nat) :
    ∃ v, m.eval depth l (fuel + 1) e w = .ok v w ∧ v.type = t := by
  cases he with
  | int _ _ _ => exact ⟨_, rfl, rfl⟩
  | float _ _ _ => exact ⟨_, rfl, rfl⟩
  | bool _ _ => exact ⟨_, rfl, rfl⟩
  | string _ _ => exact ⟨_, rfl, rfl⟩
  | self _ => exact ⟨_, rfl, rfl⟩
  | ident id v hv =>
      have hvis := hl w.globals hg id.name
      rw [hv] at hvis
      obtain ⟨current, hcur, htype⟩ := Option.map_eq_some_iff.mp hvis
      exact ⟨current, (Machine.lookup_run l id w).trans (by rw [hcur]), htype⟩
  | _ => exact ha.elim

namespace Machine

/-! ## Running with another initializer -/

/-- Every part of the evaluator does the same with the other initializer of a variable that is not
    read, at one amount of fuel. -/
structure UnreadAt (m : Machine σ) (x : Ident) (b : Expr) (g : List Variable) (callable : Bool)
    (fuel : Nat) : Prop where
  eval : ∀ {depth l l' scope e t w}, HasType (m.around callable scope) e t →
    Locals.Sees g l scope → l.Agree l' e.parts → w.globals.Matches g →
    (m.edit (.reinit x b)).eval depth l' fuel e w = m.eval depth l fuel e w
  condition : ∀ {depth l l' scope e t w}, HasType (m.around callable scope) e t →
    Locals.Sees g l scope → l.Agree l' e.parts → w.globals.Matches g →
    (m.edit (.reinit x b)).condition depth l' fuel e w = m.condition depth l fuel e w
  evalAll : ∀ {depth l l' scope es w}, (∀ e ∈ es, ∃ t, HasType (m.around callable scope) e t) →
    Locals.Sees g l scope → l.Agree l' (exprsParts es) → w.globals.Matches g →
    (m.edit (.reinit x b)).evalAll depth l' fuel es w = m.evalAll depth l fuel es w
  evalFields : ∀ {depth l l' scope fields w},
    (∀ e ∈ fields.map Prod.snd, ∃ t, HasType (m.around callable scope) e t) →
    Locals.Sees g l scope → l.Agree l' (fieldsParts fields) → w.globals.Matches g →
    (m.edit (.reinit x b)).evalFields depth l' fuel fields w = m.evalFields depth l fuel fields w
  callBuiltin : ∀ {depth l l' scope builtin span callee args w},
    (∀ e ∈ args, ∃ t, HasType (m.around callable scope) e t) →
    Locals.Sees g l scope → l.Agree l' (exprsParts args) → w.globals.Matches g →
    (m.edit (.reinit x b)).callBuiltin depth l' fuel builtin span callee args w =
      m.callBuiltin depth l fuel builtin span callee args w
  argumentText : ∀ {depth l l' scope span callee args w},
    (∀ e ∈ args, ∃ t, HasType (m.around callable scope) e t) →
    Locals.Sees g l scope → l.Agree l' (exprsParts args) → w.globals.Matches g →
    (m.edit (.reinit x b)).argumentText depth l' fuel span callee args w =
      m.argumentText depth l fuel span callee args w
  call : ∀ {depth name args span f w}, callable = true → m.function? name = some f →
    ArgumentsFit args f.signature.params → w.globals.Matches g →
    (m.edit (.reinit x b)).call depth fuel name args span w = m.call depth fuel name args span w
  exec : ∀ {depth l l' scope scope' st r w}, callable = true →
    StmtOk r (m.around callable scope) st scope' → st.Spares x b (m.around callable scope) →
    Locals.Beside x g scope l l' → w.globals.Matches g →
    Parallel (Flow.Beside (Locals.Beside x g scope')) (m.exec depth fuel l st w)
      ((m.edit (.reinit x b)).exec depth fuel l' (st.edit (.reinit x b)) w)
  execAll : ∀ {depth l l' frame outer body r w}, callable = true →
    StmtsOk r (m.around callable (frame :: outer)) body →
    stmtsSpare x b (m.around callable (frame :: outer)) body →
    Locals.Beside x g (frame :: outer) l l' → w.globals.Matches g →
    Parallel (Flow.Beside fun c c' => ∃ frame', Locals.Beside x g (frame' :: outer) c c')
      (m.execAll depth fuel l body w)
      ((m.edit (.reinit x b)).execAll depth fuel l' (stmtsEdit (.reinit x b) body) w)
  execBlock : ∀ {depth l l' scope block r w}, callable = true →
    BlockOk r (m.around callable scope) block → block.Spares x b (m.around callable scope) →
    Locals.Beside x g scope l l' → w.globals.Matches g →
    Parallel (Flow.Beside (Locals.Beside x g scope)) (m.execBlock depth fuel l block w)
      ((m.edit (.reinit x b)).execBlock depth fuel l' (block.edit (.reinit x b)) w)
  execCond : ∀ {depth l l' scope k r w}, callable = true →
    CondOk r (m.around callable scope) k → k.Spares x b (m.around callable scope) →
    Locals.Beside x g scope l l' → w.globals.Matches g →
    Parallel (Flow.Beside (Locals.Beside x g scope)) (m.execCond depth fuel l k w)
      ((m.edit (.reinit x b)).execCond depth fuel l' (k.edit (.reinit x b)) w)
  execLoop : ∀ {depth l l' scope test body r w}, callable = true →
    HasType (m.around callable scope) test .bool → BlockOk r (m.around callable scope) body →
    (m.around callable scope).Unread x test.parts → body.Spares x b (m.around callable scope) →
    Locals.Beside x g scope l l' → w.globals.Matches g →
    Parallel (Flow.Beside (Locals.Beside x g scope)) (m.execLoop depth fuel l test body w)
      ((m.edit (.reinit x b)).execLoop depth fuel l' test (body.edit (.reinit x b)) w)

namespace UnreadAt

variable {m : Machine σ} {b : Expr} {callable : Bool} {fuel depth : Nat} {l l' : Locals}
  {scope : Scope}

theorem zero (m : Machine σ) (x : Ident) (b : Expr) (g : List Variable) (callable : Bool) :
    UnreadAt m x b g callable 0 where
  eval _ _ _ _         := rfl
  condition _ _ _ _    := rfl
  evalAll _ _ _ _      := rfl
  evalFields _ _ _ _   := rfl
  callBuiltin _ _ _ _  := rfl
  argumentText _ _ _ _ := rfl
  call _ _ _ _         := rfl
  exec _ _ _ _ _       := .error _ _
  execAll _ _ _ _ _    := .error _ _
  execBlock _ _ _ _ _  := .error _ _
  execCond _ _ _ _ _   := .error _ _
  execLoop _ _ _ _ _ _ _ := .error _ _

/-- An operator that evaluates both operands. -/
theorem eval_operator (ih : UnreadAt m x b g callable fuel) (hm : m.Ready g callable R)
    {span : Span} {op : BinaryOp} {left right : Expr} {t u : Ty} (hop : ¬op.IsLogic)
    (hleft : HasType (m.around callable scope) left t)
    (hright : HasType (m.around callable scope) right u) (hs : l.Sees g scope)
    (hagree : l.Agree l' (Expr.binary span op left right).parts) (hg : w.globals.Matches g) :
    (m.edit (.reinit x b)).eval depth l' (fuel + 1) (.binary span op left right) w =
      m.eval depth l (fuel + 1) (.binary span op left right) w := by
  have hagree := hagree.mono (List.subset_cons_self _ _)
  rw [Machine.eval_operator hop, Machine.eval_operator hop]
  refine bind_eq_of_runs (ih.eval hleft hs (hagree.mono (List.subset_append_left _ _)) hg)
    ((soundAt hm fuel).eval hleft hs hg) fun v w₁ hg₁ _ => ?_
  exact bind_eq_first (ih.eval hright hs (hagree.mono (List.subset_append_right _ _)) hg₁) _

theorem eval_succ (ih : UnreadAt m x b g callable fuel) (hm : m.Ready g callable R) {e : Expr}
    {t : Ty} (he : HasType (m.around callable scope) e t) (hs : l.Sees g scope)
    (hagree : l.Agree l' e.parts) (hg : w.globals.Matches g) :
    (m.edit (.reinit x b)).eval depth l' (fuel + 1) e w = m.eval depth l (fuel + 1) e w := by
  cases he with
  | int _ _ _ => rfl
  | float _ _ _ => rfl
  | bool _ _ => rfl
  | string _ _ => rfl
  | self _ => rfl
  | ident id v hv =>
      show lookup l' id w = lookup l id w
      rw [lookup, lookup, hagree id (List.mem_singleton.mpr rfl)]
  | field span object name u _ hobj hfield =>
      exact bind_eq_first (ih.eval hobj hs (hagree.mono (List.subset_cons_self _ _)) hg) _
  | neg span arg _ harg hnum =>
      exact bind_eq_first (ih.eval harg hs (hagree.mono (List.subset_cons_self _ _)) hg) _
  | not span arg harg =>
      exact bind_eq_first (ih.eval harg hs (hagree.mono (List.subset_cons_self _ _)) hg) _
  | concat span left right hl hr =>
      exact ih.eval_operator hm (BinaryOp.IsArithmetic.not_isLogic (.inl rfl)) hl hr hs hagree hg
  | arithmetic span op left right _ _ hop hl hr _ _ =>
      exact ih.eval_operator hm hop.not_isLogic hl hr hs hagree hg
  | order span op left right _ _ hop hl hr _ _ =>
      exact ih.eval_operator hm hop.not_isLogic hl hr hs hagree hg
  | equality span op left right _ _ hop hl hr _ =>
      exact ih.eval_operator hm hop.not_isLogic hl hr hs hagree hg
  | logic span op left right hop hl hr =>
      have hagree := hagree.mono (List.subset_cons_self _ _)
      have hleft := hagree.mono (List.subset_append_left _ _)
      have hright := hagree.mono (List.subset_append_right _ _)
      rcases hop with rfl | rfl
      · refine bind_eq_of_runs (ih.condition hl hs hleft hg)
          ((soundAt hm fuel).condition hl hs hg) fun taken w₁ hg₁ _ => ?_
        cases taken with
        | true => exact bind_eq_first (ih.condition hr hs hright hg₁) _
        | false => rfl
      · refine bind_eq_of_runs (ih.condition hl hs hleft hg)
          ((soundAt hm fuel).condition hl hs hg) fun taken w₁ hg₁ _ => ?_
        cases taken with
        | true => rfl
        | false => exact bind_eq_first (ih.condition hr hs hright hg₁) _
  | struct span name fields _ hname hst hfields hall =>
      exact bind_eq_first
        (ih.evalFields (List.forall_mem_map.mpr hfields.typed) hs
          (hagree.mono (List.subset_cons_self _ _)) hg) _
  | print span callee args hb hargs =>
      rw [Machine.eval, Machine.eval, hb]
      exact ih.callBuiltin hargs.typed hs (hagree.mono (List.subset_cons_self _ _)) hg
  | emit span callee nameSpan name args signal hb hsig hargs =>
      rw [Machine.eval, Machine.eval, hb]
      exact ih.callBuiltin (List.forall_mem_cons.mpr ⟨⟨_, .string nameSpan name⟩, hargs.typed⟩) hs
        (hagree.mono (List.subset_cons_self _ _)) hg
  | builtin span callee args builtin params hb hp hargs =>
      rw [Machine.eval, Machine.eval, hb]
      exact ih.callBuiltin hargs.typed hs (hagree.mono (List.subset_cons_self _ _)) hg
  | call span callee args f hb hf hinit hargs =>
      have hcall : callable = true := by simpa [around] using hinit
      rw [around_function?] at hf
      obtain ⟨info, hinfo, rfl⟩ := Option.map_eq_some_iff.mp hf
      rw [Machine.eval, Machine.eval, hb]
      refine bind_eq_of_runs
        (ih.evalAll hargs.typed hs (hagree.mono (List.subset_cons_self _ _)) hg)
        ((soundAt hm fuel).evalAll hargs hs hg) fun values w₁ hg₁ hv => ?_
      exact ih.call hcall hinfo hv hg₁

theorem evalAll_succ (ih : UnreadAt m x b g callable fuel) (hm : m.Ready g callable R)
    {es : List Expr} (hes : ∀ e ∈ es, ∃ t, HasType (m.around callable scope) e t)
    (hs : l.Sees g scope) (hagree : l.Agree l' (exprsParts es)) (hg : w.globals.Matches g) :
    (m.edit (.reinit x b)).evalAll depth l' (fuel + 1) es w =
      m.evalAll depth l (fuel + 1) es w := by
  cases es with
  | nil => rfl
  | cons e es =>
      obtain ⟨⟨t, he⟩, hes⟩ := List.forall_mem_cons.mp hes
      refine bind_eq_of_runs (ih.eval he hs (hagree.mono (List.subset_append_left _ _)) hg)
        ((soundAt hm fuel).eval he hs hg) fun v w₁ hg₁ _ => ?_
      exact bind_eq_first (ih.evalAll hes hs (hagree.mono (List.subset_append_right _ _)) hg₁) _

theorem evalFields_succ (ih : UnreadAt m x b g callable fuel) (hm : m.Ready g callable R)
    {fields : List (Ident × Expr)}
    (hfields : ∀ e ∈ fields.map Prod.snd, ∃ t, HasType (m.around callable scope) e t)
    (hs : l.Sees g scope) (hagree : l.Agree l' (fieldsParts fields)) (hg : w.globals.Matches g) :
    (m.edit (.reinit x b)).evalFields depth l' (fuel + 1) fields w =
      m.evalFields depth l (fuel + 1) fields w := by
  cases fields with
  | nil => rfl
  | cons field rest =>
      obtain ⟨⟨t, he⟩, hrest⟩ := List.forall_mem_cons.mp hfields
      refine bind_eq_of_runs (ih.eval he hs (hagree.mono (List.subset_append_left _ _)) hg)
        ((soundAt hm fuel).eval he hs hg) fun v w₁ hg₁ _ => ?_
      exact bind_eq_first
        (ih.evalFields hrest hs (hagree.mono (List.subset_append_right _ _)) hg₁) _

theorem callBuiltin_succ (ih : UnreadAt m x b g callable fuel) {builtin : Builtin} {span : Span}
    {callee : Ident} {args : List Expr}
    (hargs : ∀ e ∈ args, ∃ t, HasType (m.around callable scope) e t) (hs : l.Sees g scope)
    (hagree : l.Agree l' (exprsParts args)) (hg : w.globals.Matches g) :
    (m.edit (.reinit x b)).callBuiltin depth l' (fuel + 1) builtin span callee args w =
      m.callBuiltin depth l (fuel + 1) builtin span callee args w := by
  cases builtin with
  | print => exact bind_eq_first (ih.evalAll hargs hs hagree hg) _
  | emitSignal =>
      cases args with
      | nil => rfl
      | cons first rest =>
          cases first with
          | string nameSpan name =>
              have hrest : (m.edit (.reinit x b)).evalAll depth l' fuel rest w =
                  m.evalAll depth l fuel rest w :=
                ih.evalAll (List.forall_mem_cons.mp hargs).2 hs
                  (hagree.mono (List.subset_append_right _ _)) hg
              have hsignal : (m.edit (.reinit x b)).signal? name = m.signal? name := rfl
              simp only [Machine.callBuiltin, hsignal]
              cases m.signal? name with
              | none => rfl
              | some signal => exact bind_eq_first hrest _
          | _ => rfl
  | getParent => rfl
  | _ => exact bind_eq_first (ih.argumentText hargs hs hagree hg) _

theorem call_succ (ih : UnreadAt m x b g callable fuel) (hm : m.Ready g callable R)
    (hspares : callable = true → ∀ f ∈ m.functions, f.Spares x b (m.around true [g])) {name : Text}
    {args : List Value} {span : Option Span} {f : FunctionInfo} (hc : callable = true)
    (hf : m.function? name = some f) (hargs : ArgumentsFit args f.signature.params)
    (hg : w.globals.Matches g) :
    (m.edit (.reinit x b)).call depth (fuel + 1) name args span w =
      m.call depth (fuel + 1) name args span w := by
  have hmem := List.mem_of_find?_eq_some hf
  have hwt := hm.functions hc f hmem
  have hbody : (f.edit (.reinit x b)).decl.body.body =
      stmtsEdit (.reinit x b) f.decl.body.body :=
    (Block.body_edit _ _).trans (stmtsEdit_eq _ _).symm
  rw [Machine.call, Machine.call, function?_edit, hf]
  simp only [Option.map_some, hbody]
  by_cases hdeep : m.maxDepth ≤ depth
  · have hdeep' : (m.edit (.reinit x b)).maxDepth ≤ depth := hdeep
    simp only [if_pos hdeep, if_pos hdeep']
    rfl
  · have hdeep' : ¬(m.edit (.reinit x b)).maxDepth ≤ depth := hdeep
    simp only [if_neg hdeep, if_neg hdeep']
    have hframe := parameterFrame_matches f.decl.params f.signature.params args [] []
      Bindings.matches_nil hwt.arity hargs hwt.nodup fun _ _ => rfl
    subst hc
    have hruns : Runs g R (m.execAll (depth + 1) fuel
        [parameterFrame f.decl.params f.signature.params args []] f.decl.body.body) w _ :=
      (soundAt hm fuel).execAll rfl hwt.body (.body hframe) hg
    -- The locals are forgotten when the body has ended.
    refine Eval.inFunction_eq (Parallel.eq (Parallel.bind (ih.execAll rfl hwt.body
      (hspares rfl f hmem) (.body (.refl hframe)) hg) hruns fun flow flow' v h _ _ => ?_))
    cases h with
    | next _ => exact .of_eq rfl
    | returned _ => exact .of_eq rfl

/-- A new variable gets the same value, or both values of `x` are values of its type. -/
theorem bind_succ (ih : UnreadAt m x b g callable fuel) (hm : m.Ready g callable R) (hb : b.IsAtom)
    {span : Span} {name : Ident} {mutable : Bool} {declared : Option TypeRef} {init : Expr}
    {t type : Ty} {scope' : Scope} (hinit : HasType (m.around callable scope) init t)
    (hfit : t.Fits type) (hdef : scope.define? ⟨name, .local, type, mutable⟩ = some scope')
    (hspares : (Stmt.bind span name mutable declared init type).Spares x b
      (m.around callable scope)) (hl : Locals.Beside x g scope l l') (hg : w.globals.Matches g) :
    Parallel (Flow.Beside (Locals.Beside x g scope'))
      (m.exec depth (fuel + 1) l (.bind span name mutable declared init type) w)
      ((m.edit (.reinit x b)).exec depth (fuel + 1) l'
        ((Stmt.bind span name mutable declared init type).edit (.reinit x b)) w) := by
  obtain ⟨hunread, hatom⟩ := hspares
  have hruns : Runs g R (m.eval depth l fuel init) w _ :=
    (soundAt hm fuel).eval hinit hl.left.sees hg
  have hedit : (Stmt.bind span name mutable declared init type).edit (.reinit x b) =
      .bind span name mutable declared (if name = x then b else init) type := rfl
  rw [hedit]
  by_cases hname : name = x
  · obtain ⟨hatom, u, hu, hfit'⟩ := hatom hname
    rw [if_pos hname]
    cases fuel with
    | zero => exact .error _ _
    | succ fuel =>
        obtain ⟨v, hv, hvt⟩ := hatom.eval hinit hl.left.sees hg m depth fuel
        obtain ⟨v', hv', hvt'⟩ := hb.eval hu hl.right.sees hg (m.edit (.reinit x b)) depth fuel
        rw [Machine.exec, Machine.exec, bind_of_ok hv, bind_of_ok hv']
        exact .ok (.next (hl.declare hdef (Value.coerceOrKeep_type (hvt ▸ hfit))
          (Value.coerceOrKeep_type (hvt' ▸ hfit')) fun hne => absurd hname hne))
  · rw [if_neg hname]
    refine Parallel.bind (.of_eq (ih.eval hinit hl.left.sees (hl.agree hunread) hg)) hruns
      fun v v' w₁ hsame _ hv => ?_
    subst hsame
    have hv := Value.coerceOrKeep_type (hv ▸ hfit)
    exact .ok (.next (hl.declare hdef hv hv fun _ => rfl))

theorem exec_succ (ih : UnreadAt m x b g callable fuel) (hm : m.Ready g callable R) (hb : b.IsAtom)
    {st : Stmt Ty} {r : Ty} {scope' : Scope} (hc : callable = true)
    (hst : StmtOk r (m.around callable scope) st scope')
    (hspares : st.Spares x b (m.around callable scope)) (hl : Locals.Beside x g scope l l')
    (hg : w.globals.Matches g) :
    Parallel (Flow.Beside (Locals.Beside x g scope')) (m.exec depth (fuel + 1) l st w)
      ((m.edit (.reinit x b)).exec depth (fuel + 1) l' (st.edit (.reinit x b)) w) := by
  cases hst with
  | block _ block hblock => exact ih.execBlock hc hblock hspares hl hg
  | bind _ span name mutable declared init t type _ hinit hfit _ hdef =>
      exact ih.bind_succ hm hb hinit hfit hdef hspares hl hg
  | assign _ span target op value t found htarget hvalue hcomb =>
      obtain ⟨htargetSpares, hunread⟩ := hspares
      refine Parallel.bind (.of_eq (ih.eval hvalue hl.left.sees (hl.agree hunread) hg))
        ((soundAt hm fuel).eval hvalue hl.left.sees hg) fun rhs rhs' w₁ hsame hg₁ hrhs => ?_
      subst hsame
      rw [assign_edit]
      refine (assign_parallel hm.host (s := m.around callable scope) hl hg₁ htarget
        (hrhs ▸ hcomb) htargetSpares).bind (runs_assign hm.host (s := m.around callable scope)
          hl.left hg₁ htarget (hrhs ▸ hcomb)) fun c c' w₂ hcc' _ _ => ?_
      exact .ok (.next hcc')
  | cond _ k hcond => exact ih.execCond hc hcond hspares hl hg
  | loop _ span test body htest hbody =>
      exact ih.execLoop hc htest hbody hspares.1 hspares.2 hl hg
  | leave _ span hr => exact .ok (.returned _)
  | ret _ span e t he _ hfit =>
      refine Parallel.bind (.of_eq (ih.eval he hl.left.sees (hl.agree (hspares e rfl)) hg))
        ((soundAt hm fuel).eval he hl.left.sees hg) fun v v' w₁ hsame _ _ => ?_
      subst hsame
      exact .ok (.returned _)
  | eval _ span e t he =>
      refine Parallel.bind (.of_eq (ih.eval he hl.left.sees (hl.agree hspares) hg))
        ((soundAt hm fuel).eval he hl.left.sees hg) fun v v' w₁ _ _ _ => ?_
      exact .ok (.next hl)

theorem execAll_succ (ih : UnreadAt m x b g callable fuel) (hm : m.Ready g callable R)
    {frame : List Variable} {outer : Scope} {body : List (Stmt Ty)} {r : Ty}
    (hc : callable = true) (hbody : StmtsOk r (m.around callable (frame :: outer)) body)
    (hspares : stmtsSpare x b (m.around callable (frame :: outer)) body)
    (hl : Locals.Beside x g (frame :: outer) l l') (hg : w.globals.Matches g) :
    Parallel (Flow.Beside fun c c' => ∃ frame', Locals.Beside x g (frame' :: outer) c c')
      (m.execAll depth (fuel + 1) l body w)
      ((m.edit (.reinit x b)).execAll depth (fuel + 1) l' (stmtsEdit (.reinit x b) body) w) := by
  cases hbody with
  | nil => exact .ok (.next ⟨frame, hl⟩)
  | cons _ st rest scope' hst hrest =>
      obtain ⟨hspare, hspares⟩ := hspares
      rw [hst.scopeAfter] at hspares
      obtain ⟨frame', rfl⟩ := SoundAt.scope_after hst rfl
      refine (ih.exec hc hst hspare hl hg).bind ((soundAt hm fuel).exec hc hst hl.left hg)
        fun flow flow' w₁ hflow hg₁ _ => ?_
      cases hflow with
      | next hnext => exact ih.execAll hc hrest hspares hnext hg₁
      | returned v => exact .ok (.returned v)

theorem execBlock_succ (ih : UnreadAt m x b g callable fuel) (hm : m.Ready g callable R)
    {block : Block Ty} {r : Ty} (hc : callable = true)
    (hblock : BlockOk r (m.around callable scope) block)
    (hspares : block.Spares x b (m.around callable scope)) (hl : Locals.Beside x g scope l l')
    (hg : w.globals.Matches g) :
    Parallel (Flow.Beside (Locals.Beside x g scope)) (m.execBlock depth (fuel + 1) l block w)
      ((m.edit (.reinit x b)).execBlock depth (fuel + 1) l' (block.edit (.reinit x b)) w) := by
  cases hblock with
  | mk _ span body hbody =>
      have hinner : Locals.Beside x g ([] :: scope) ([] :: l) ([] :: l') :=
        .inner (.refl Bindings.matches_nil) hl
      refine (ih.execAll hc hbody hspares hinner hg).bind
        ((soundAt hm fuel).execAll hc hbody hinner.left hg) fun flow flow' w₁ hflow _ _ => ?_
      cases hflow with
      | next hnext =>
          obtain ⟨frame', hnext⟩ := hnext
          exact .ok (.next (hnext.tail hl.left.ne_globals))
      | returned v => exact .ok (.returned v)

theorem execCond_succ (ih : UnreadAt m x b g callable fuel) (hm : m.Ready g callable R)
    {k : Cond Ty} {r : Ty} (hc : callable = true) (hcond : CondOk r (m.around callable scope) k)
    (hspares : k.Spares x b (m.around callable scope)) (hl : Locals.Beside x g scope l l')
    (hg : w.globals.Matches g) :
    Parallel (Flow.Beside (Locals.Beside x g scope)) (m.execCond depth (fuel + 1) l k w)
      ((m.edit (.reinit x b)).execCond depth (fuel + 1) l' (k.edit (.reinit x b)) w) := by
  cases hcond with
  | mk _ span test consequent alternate htest hthen helse =>
      obtain ⟨hunread, hspare, hspares⟩ := hspares
      refine Parallel.bind (.of_eq (ih.condition htest hl.left.sees (hl.agree hunread) hg))
        ((soundAt hm fuel).condition htest hl.left.sees hg) fun _ taken w₁ hsame hg₁ _ => ?_
      subst hsame
      cases taken with
      | true => exact ih.execBlock hc hthen hspare hl hg₁
      | false =>
          cases helse with
          | absent => exact .ok (.next hl)
          | block _ block hblock => exact ih.execBlock hc hblock hspares hl hg₁
          | cond _ k hcond => exact ih.execCond hc hcond hspares hl hg₁

theorem execLoop_succ (ih : UnreadAt m x b g callable fuel) (hm : m.Ready g callable R)
    {test : Expr} {body : Block Ty} {r : Ty} (hc : callable = true)
    (htest : HasType (m.around callable scope) test .bool)
    (hbody : BlockOk r (m.around callable scope) body)
    (hunread : (m.around callable scope).Unread x test.parts)
    (hspares : body.Spares x b (m.around callable scope)) (hl : Locals.Beside x g scope l l')
    (hg : w.globals.Matches g) :
    Parallel (Flow.Beside (Locals.Beside x g scope)) (m.execLoop depth (fuel + 1) l test body w)
      ((m.edit (.reinit x b)).execLoop depth (fuel + 1) l' test (body.edit (.reinit x b)) w) := by
  refine Parallel.bind (.of_eq (ih.condition htest hl.left.sees (hl.agree hunread) hg))
    ((soundAt hm fuel).condition htest hl.left.sees hg) fun _ again w₁ hsame hg₁ _ => ?_
  subst hsame
  cases again with
  | false => exact .ok (.next hl)
  | true =>
      refine (ih.execBlock hc hbody hspares hl hg₁).bind
        ((soundAt hm fuel).execBlock hc hbody hl.left hg₁) fun flow flow' w₂ hflow hg₂ _ => ?_
      cases hflow with
      | next hnext => exact ih.execLoop hc htest hbody hunread hspares hnext hg₂
      | returned v => exact .ok (.returned v)

end UnreadAt

/-- The other initializer makes no difference, whatever the fuel. -/
theorem unreadAt {m : Machine σ} {b : Expr} {callable : Bool} (hm : m.Ready g callable R)
    (hb : b.IsAtom)
    (hspares : callable = true → ∀ f ∈ m.functions, f.Spares x b (m.around true [g])) (fuel : Nat) :
    UnreadAt m x b g callable fuel := by
  induction fuel with
  | zero => exact .zero m x b g callable
  | succ fuel ih =>
      exact
        { eval         := ih.eval_succ hm
          condition    := fun he hs hagree hg => bind_eq_first (ih.eval he hs hagree hg) _
          evalAll      := ih.evalAll_succ hm
          evalFields   := ih.evalFields_succ hm
          callBuiltin  := ih.callBuiltin_succ
          argumentText := fun hargs hs hagree hg => by
            rename_i args _
            cases args with
            | nil => rfl
            | cons arg rest =>
                obtain ⟨⟨t, harg⟩, -⟩ := List.forall_mem_cons.mp hargs
                exact bind_eq_first
                  (ih.eval harg hs (hagree.mono (List.subset_append_left _ _)) hg) _
          call         := ih.call_succ hm hspares
          exec         := ih.exec_succ hm hb
          execAll      := ih.execAll_succ hm
          execBlock    := ih.execBlock_succ hm
          execCond     := ih.execCond_succ hm
          execLoop     := ih.execLoop_succ hm }

end Machine

end SceneScript
