import SceneScript.Eval
import SceneScript.Proofs.Typing.Rules

/-!
# Values of variables against their declarations

The checker keeps frames of declared variables, the evaluator frames of values. They describe
one another when every name has in both of them nothing, or a variable and a value of its type.

* **`Bindings.Matches`** — one frame; it survives stores of the right type.
* **`Bindings.Steady`** — the variables of a frame that may not be assigned keep their values.
* **`Locals.Models`** — the frames of a running function above the globals.
* **`Locals.Sees`** — what an expression needs: every visible variable has a value of its type.
-/

namespace SceneScript

/-! ## One frame -/

theorem Bindings.find?_cons (n : Text) (v : Value) (b : Bindings) (name : Text) :
    Bindings.find? ((n, v) :: b) name = if n = name then some v else Bindings.find? b name := by
  by_cases h : n = name <;> simp [Bindings.find?, h]

theorem Bindings.find?_set (b : Bindings) (name : Text) (v : Value) (n : Text) :
    (b.set name v).find? n = if name = n then some v else b.find? n := by
  induction b with
  | nil => rw [Bindings.set, find?_cons]
  | cons e b ih =>
      obtain ⟨m, w⟩ := e
      rw [Bindings.set]
      by_cases hm : m = name
      · subst hm
        rw [if_pos (beq_self_eq_true m), find?_cons, find?_cons]
        by_cases hn : m = n <;> simp [hn]
      · rw [if_neg (by simpa using hm), find?_cons, find?_cons, ih]
        by_cases hn : m = n
        · have hname : name ≠ n := fun h => hm (hn.trans h.symm)
          simp [hn, hname]
        · simp [hn]

/-- Every name has in the values what it has among the declarations: nothing, or a value of the
    type of its variable. -/
def Bindings.Matches (b : Bindings) (frame : List Variable) : Prop :=
  ∀ name, (b.find? name).map Value.type = (Scope.inFrame? name frame).map Variable.type

theorem Bindings.matches_nil : Bindings.Matches [] [] := fun _ => rfl

/-- A value of the type of its variable may be stored. -/
theorem Bindings.Matches.set {b : Bindings} {frame : List Variable} (h : b.Matches frame)
    {name : Text} {v : Value}
    (hv : (Scope.inFrame? name frame).map Variable.type = some v.type) :
    (b.set name v).Matches frame := by
  intro n
  rw [find?_set]
  by_cases hn : name = n
  · rw [if_pos hn, ← hn, hv]
    rfl
  · rw [if_neg hn]
    exact h n

/-- A new variable is declared and given a value of its type. -/
theorem Bindings.Matches.declare {b : Bindings} {frame : List Variable} (h : b.Matches frame)
    {x : Variable} {v : Value} (hfresh : Scope.inFrame? x.id.name frame = none)
    (hv : v.type = x.type) : (b.set x.id.name v).Matches (frame ++ [x]) := by
  intro n
  rw [find?_set, Scope.inFrame?_append]
  by_cases hn : x.id.name = n
  · subst hn
    simp [hfresh, hv]
  · simpa [hn] using h n

/-- The variables that may not be assigned have the same values as before. -/
def Bindings.Steady (b : Bindings) (frame : List Variable) (b' : Bindings) : Prop :=
  ∀ name x, Scope.inFrame? name frame = some x → x.mutable = false → b'.find? name = b.find? name

namespace Bindings.Steady

variable {b b' b'' : Bindings} {frame : List Variable}

theorem refl (b : Bindings) (frame : List Variable) : b.Steady frame b := fun _ _ _ _ => rfl

theorem trans (h : b.Steady frame b') (h' : b'.Steady frame b'') : b.Steady frame b'' :=
  fun name x hx hfix => (h' name x hx hfix).trans (h name x hx hfix)

/-- A variable that may not be assigned may be given the value that it has. -/
theorem set {name : Text} {v : Value}
    (h : ∀ x, Scope.inFrame? name frame = some x → x.mutable = false → b.find? name = some v) :
    b.Steady frame (b.set name v) := by
  intro n x hx hfix
  rw [find?_set]
  by_cases hn : name = n
  · subst hn
    rw [if_pos rfl, h x hx hfix]
  · rw [if_neg hn]

end Bindings.Steady

/-! ## The frames of a function -/

/-- The values of the local variables match the frames of the scope above the globals `g`. -/
inductive Locals.Models (g : List Variable) : Locals → Scope → Prop where
  | body {b : Bindings} {frame : List Variable} : b.Matches frame → Models g [b] [frame, g]
  | inner {b : Bindings} {frame : List Variable} {locals : Locals} {scope : Scope} :
      b.Matches frame → Models g locals scope → Models g (b :: locals) (frame :: scope)

/-- Every name that is visible has a value of the type of its variable, and no other name has a
    value. -/
def Locals.Sees (g : List Variable) (locals : Locals) (scope : Scope) : Prop :=
  ∀ globals : Bindings, globals.Matches g → ∀ name,
    ((locals.find? name).or (globals.find? name)).map Value.type =
      (scope.find? name).map Variable.type

namespace Locals

variable {g : List Variable} {locals : Locals} {scope : Scope}

theorem find?_cons (b : Bindings) (locals : Locals) (name : Text) :
    Locals.find? (b :: locals) name = (b.find? name).or (locals.find? name) := by
  simp only [find?, List.findSome?_cons]
  cases b.find? name <;> rfl

/-- A store that finds no local variable has none to find. -/
theorem find?_of_assign? {name : Text} {v : Value} :
    ∀ {locals : Locals}, locals.assign? name v = none → locals.find? name = none
  | [], _ => rfl
  | frame :: frames, h => by
      rw [assign?] at h
      split at h
      · cases h
      · next hnone =>
          rw [find?_cons, Option.not_isSome_iff_eq_none.mp hnone, Option.none_or]
          exact find?_of_assign? (Option.map_eq_none_iff.mp h)

/-- Without local variables the globals are visible. -/
theorem sees_globals (g : List Variable) : Sees g [] [g] := by
  intro globals hg name
  rw [Scope.find?_cons]
  simpa [Locals.find?, Scope.find?] using hg name

theorem Models.sees (h : Models g locals scope) : Sees g locals scope := by
  intro globals hg name
  -- One more frame on both sides, whatever lies below it.
  have step : ∀ {b : Bindings} {frame : List Variable} {locals : Locals} {scope : Scope},
      b.Matches frame →
      ((locals.find? name).or (globals.find? name)).map Value.type =
        (scope.find? name).map Variable.type →
      ((Locals.find? (b :: locals) name).or (globals.find? name)).map Value.type =
        (Scope.find? (frame :: scope) name).map Variable.type := by
    intro b frame locals scope hb hrest
    have hbn := hb name
    rw [find?_cons, Scope.find?_cons]
    cases hf : Scope.inFrame? name frame <;> cases hv : b.find? name <;>
      simp_all
  induction h with
  | body hb => exact step hb (sees_globals g globals hg name)
  | inner hb _ ih => exact step hb ih

/-- A declaration that the checker allows gives a matching frame. -/
theorem Models.declare (h : Models g locals scope) {x : Variable} {v : Value} {scope' : Scope}
    (hd : scope.define? x = some scope') (hv : v.type = x.type) :
    Models g (locals.declare x.id.name v) scope' := by
  cases h with
  | body hb =>
      rename_i b frame
      by_cases hf : (Scope.inFrame? x.id.name frame).isSome
      · simp [Scope.define?, hf] at hd
      · simp only [Scope.define?, hf] at hd
        cases hd
        exact .body (hb.declare (Option.not_isSome_iff_eq_none.mp hf) hv)
  | inner hb hrest =>
      rename_i b frame locals scope
      by_cases hf : (Scope.inFrame? x.id.name frame).isSome
      · simp [Scope.define?, hf] at hd
      · simp only [Scope.define?, hf] at hd
        cases hd
        exact .inner (hb.declare (Option.not_isSome_iff_eq_none.mp hf) hv) hrest

/-- Storing a value of the right type changes a local variable, or there is none of that name
    and the variable is a global. -/
theorem Models.assign (h : Models g locals scope) {name : Text} {x : Variable} {v : Value}
    (hx : scope.find? name = some x) (hv : v.type = x.type) :
    (∃ changed, locals.assign? name v = some changed ∧ Models g changed scope) ∨
      (locals.assign? name v = none ∧ Scope.inFrame? name g = some x) := by
  -- The innermost frame has the name on both sides or on neither.
  have here : ∀ {b : Bindings} {frame : List Variable}, b.Matches frame →
      ((b.find? name).isSome = true ∧ (Scope.inFrame? name frame).isSome = true) ∨
        (b.find? name = none ∧ Scope.inFrame? name frame = none) := by
    intro b frame hb
    have hbn := hb name
    cases hf : Scope.inFrame? name frame <;> cases hw : b.find? name <;> simp_all
  have found : ∀ {b : Bindings} {frame : List Variable} {scope : Scope}, b.Matches frame →
      (Scope.inFrame? name frame).isSome = true →
      Scope.find? (frame :: scope) name = some x → (b.set name v).Matches frame := by
    intro b frame scope hb hf hx
    obtain ⟨y, hy⟩ := Option.isSome_iff_exists.mp hf
    rw [Scope.find?_cons, hy] at hx
    cases hx
    exact hb.set (by rw [hy, Option.map_some, hv])
  induction h with
  | body hb =>
      rcases here hb with ⟨hs, hf⟩ | ⟨hs, hf⟩
      · left
        exact ⟨_, by rw [Locals.assign?, if_pos hs], .body (found hb hf hx)⟩
      · right
        rw [Scope.find?_cons, hf, Option.none_or, Scope.find?_cons] at hx
        refine ⟨by simp [Locals.assign?, hs], ?_⟩
        simpa [Scope.find?] using hx
  | inner hb hrest ih =>
      rcases here hb with ⟨hs, hf⟩ | ⟨hs, hf⟩
      · left
        exact ⟨_, by rw [Locals.assign?, if_pos hs], .inner (found hb hf hx) hrest⟩
      · rw [Scope.find?_cons, hf, Option.none_or] at hx
        rcases ih hx with ⟨changed, hc, hm⟩ | ⟨hc, hg⟩
        · left
          exact ⟨_, by simp [Locals.assign?, hs, hc], .inner hb hm⟩
        · right
          exact ⟨by simp [Locals.assign?, hs, hc], hg⟩

/-- A block gives its frame up. -/
theorem Models.tail {frame : List Variable} {inner : Locals} (hne : scope ≠ [g])
    (h : Models g inner (frame :: scope)) : Models g inner.tail scope := by
  cases h with
  | body _ => exact absurd rfl hne
  | inner _ hrest => exact hrest

theorem Models.ne_globals (h : Models g locals scope) : scope ≠ [g] := by
  cases h with
  | body _ => simp
  | inner _ hrest =>
      intro hs
      cases hs
      cases hrest

end Locals

end SceneScript
