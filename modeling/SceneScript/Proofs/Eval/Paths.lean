import SceneScript.Proofs.Eval.Quiet
import SceneScript.Proofs.Number.Rounding

/-!
# What a write inside a value changes

Values are rebuilt from the written field outwards. What is read at the path of the write is the
new value, and what is read at any other path that neither leads there nor goes on from there is
what it was, although every level above the write was put together anew: a field that is copied
is rounded again, and rounding again changes nothing.

* **`Value.read?`** — the value at a path of fields.
* **`Value.stored`** — a value as a field keeps it; **`Value.storedAt`** — as a path keeps it.
* **`Value.Replaced`** — one value with another one in the place of the value at a path.
* **`Machine.combined?`** — the new value of a target, from its old one.
* **`Machine.nextValue_replaced`** — a write that ends well.
-/

namespace SceneScript

/-! ## Fields -/

/-- A text spells one field only. -/
theorem Field.ofText?_eq {name : Text} {f : Field} (h : ofText? name = some f) :
    name = Text.ofString f.word := by
  have hspelled := List.find?_some (p := fun f : Field => Text.ofString f.word == name) h
  exact (beq_iff_eq.mp hspelled).symm

namespace Value

/-- A value as a field keeps it: a float in single precision. -/
def stored : Value → Value
  | .float x => .ofFloat x
  | v        => v

@[simp] theorem stored_type (v : Value) : v.stored.type = v.type := by cases v <;> rfl

/-- What was written to a field is read back as the field keeps it. -/
theorem get?_set? {v old next v' : Value} {f : Field} (hold : v.get? f = some old)
    (ht : next.type = old.type) (h : v.set? f next = some v') : v'.get? f = some next.stored := by
  cases v <;> cases f <;> cases hold <;> cases next <;> cases ht <;> cases h <;>
    simp only [get?, stored, ofFloat, ofColor, ofTransform, Vec2.single,
      Binary64.toSingle_toSingle]

/-- The other fields read as before. -/
theorem get?_set?_ne {v next v' : Value} {f f' : Field} (hne : f' ≠ f)
    (h : v.set? f next = some v') : v'.get? f' = v.get? f' := by
  unfold set? at h
  split at h
  all_goals
    first
    | cases h
    | obtain ⟨x, -, rfl⟩ := Option.map_eq_some_iff.mp h
    | split at h <;> cases h
  all_goals
    cases f' <;> first
    | exact absurd rfl hne
    | simp only [get?, ofFloat, ofColor, ofTransform, Vec2.single, Binary64.toSingle_toSingle]

/-! ## Paths -/

/-- The value at a path of fields. -/
def read? : Value → List Text → Option Value
  | v, []           => some v
  | v, name :: path => (v.getNamed? name).bind fun inner => inner.read? path

/-- A value as it is kept at a path: in a field unless the path is empty. -/
def storedAt (c : Value) : List Text → Value
  | []     => c
  | _ :: _ => c.stored

/-- The second value is the first with `c` in the place of the value at a path. Every path that is
    no part of this one and has it as no part reads as before. -/
structure Replaced (v : Value) (path : List Text) (c v' : Value) : Prop where
  type  : v'.type = v.type
  here  : v'.read? path = some c
  apart : ∀ q, ¬q <+: path → ¬path <+: q → v'.read? q = v.read? q

theorem getNamed?_setNamed? {v old next v' : Value} {name : Text}
    (hold : v.getNamed? name = some old) (ht : next.type = old.type)
    (h : v.setNamed? name next = some v') : v'.getNamed? name = some next.stored := by
  obtain ⟨f, hf, hget⟩ := Option.bind_eq_some_iff.mp hold
  obtain ⟨f', hf', hset⟩ := Option.bind_eq_some_iff.mp h
  cases hf.symm.trans hf'
  rw [getNamed?, hf, Option.bind_some, get?_set? hget ht hset]

theorem getNamed?_setNamed?_ne {v next v' : Value} {name name' : Text} (hne : name' ≠ name)
    (h : v.setNamed? name next = some v') : v'.getNamed? name' = v.getNamed? name' := by
  obtain ⟨f, hf, hset⟩ := Option.bind_eq_some_iff.mp h
  rw [getNamed?, getNamed?]
  cases hf' : Field.ofText? name' with
  | none => rfl
  | some f' =>
      refine get?_set?_ne ?_ hset
      rintro rfl
      exact hne ((Field.ofText?_eq hf').trans (Field.ofText?_eq hf).symm)

/-- A value that has fields is kept as it is. -/
theorem read?_stored (v : Value) (name : Text) (path : List Text) :
    v.stored.read? (name :: path) = v.read? (name :: path) := by
  cases v <;> rfl

/-- What is replaced in a value is replaced in it as a field keeps it. -/
theorem Replaced.stored {v c v' : Value} {path : List Text}
    (h : v.Replaced path (c.storedAt path) v') : v.Replaced path c.stored v'.stored where
  type  := (stored_type v').trans h.type
  here  := by
    have hhere := h.here
    cases path with
    | nil => exact congrArg (fun o => o.map Value.stored) hhere
    | cons name path => exact (read?_stored v' name path).trans hhere
  apart q hq hq' := by
    cases q with
    | nil => exact absurd List.nil_prefix hq
    | cons name q => exact (read?_stored v' name q).trans (h.apart _ hq hq')

/-- What is replaced in a field is replaced in the value. -/
theorem Replaced.cons {v old c next v' : Value} {name : Text} {path : List Text}
    (hold : v.getNamed? name = some old) (h : old.Replaced path (c.storedAt path) next)
    (hset : v.setNamed? name next = some v') (ht : v'.type = v.type) :
    v.Replaced (name :: path) c.stored v' where
  type  := ht
  here  := by
    rw [read?, getNamed?_setNamed? hold h.type hset]
    exact h.stored.here
  apart q hq hq' := by
    cases q with
    | nil => exact absurd List.nil_prefix hq
    | cons name' q =>
        rw [read?, read?]
        by_cases hname : name' = name
        · subst hname
          rw [getNamed?_setNamed? hold h.type hset, hold]
          rw [List.cons_prefix_cons] at hq hq'
          exact h.stored.apart q (fun hpre => hq ⟨rfl, hpre⟩) fun hpre => hq' ⟨rfl, hpre⟩
        · rw [getNamed?_setNamed?_ne hname hset]

/-- A value that was brought to a type was coerced to it. -/
theorem coerce?_of_type {v : Value} {t : Ty} (h : (v.coerceOrKeep t).type = t) :
    v.coerce? t = some (v.coerceOrKeep t) := by
  rw [coerceOrKeep] at h ⊢
  cases hc : v.coerce? t with
  | some u => rfl
  | none =>
      rw [hc] at h
      have hsame : v.type = t := h
      simp only [coerce?, if_pos hsame] at hc
      cases hc

end Value

/-! ## Writes -/

namespace Machine

variable {σ : Type} {m : Machine σ} {g : List Variable} {R : Changes σ} {w w' : World σ}
variable {rhs c : Value} {op : AssignOp} {span : Span} {t u : Ty}

/-- The value of an assignment for a target that has the value `old`: combined with `old`, and
    coerced to the type of it. -/
def combined? (op : AssignOp) (old rhs : Value) : Option Value :=
  match op.arithmetic? with
  | none        => rhs.coerce? old.type
  | some binary =>
      match applyBinary binary old rhs with
      | .ok v    => v.coerce? old.type
      | .error _ => none

theorem combine_combined {old : Value} (hg : w.globals.Matches g)
    (hc : Combines op old.type rhs.type) (h : m.combine old rhs op span w = .ok c w') :
    w' = w ∧ combined? op old rhs = some c ∧ c.type = old.type := by
  have hrun : Runs g .anything (m.combine old rhs op span) w
    (fun v w' => w' = w ∧ v.type = old.type) := runs_combine hg rfl rfl hc
  obtain ⟨-, rfl, ht⟩ := hrun.of_ok h
  refine ⟨rfl, ?_, ht⟩
  rw [combine] at h
  rw [combined?]
  cases hop : op.arithmetic? with
  | none =>
      simp only [hop] at h ⊢
      cases h
      exact Value.coerce?_of_type ht
  | some binary =>
      simp only [hop, m.binary_arithmetic hop] at h ⊢
      obtain ⟨v, w₁, hv, hrest⟩ := of_bind_ok h
      cases hrest
      cases happly : applyBinary binary old rhs with
      | error cause => rw [happly] at hv; cases hv
      | ok v' =>
          rw [happly] at hv
          cases hv
          exact Value.coerce?_of_type ht

/-- A write inside a value that ends well changes the value at its path only. -/
theorem nextValue_replaced (hg : w.globals.Matches g) (hc : Combines op t rhs.type)
    (path : List Text) :
    ∀ {old v' : Value} {w' : World σ}, old.type ≠ .node → old.type.along? path = some t →
      m.nextValue rhs op span old path w = .ok v' w' →
      w' = w ∧ ∃ o c, old.read? path = some o ∧ combined? op o rhs = some c ∧
        old.Replaced path (c.storedAt path) v' := by
  induction path with
  | nil =>
      intro old v' w' _ halong h
      cases halong
      obtain ⟨hw, hcombined, ht⟩ := combine_combined hg hc h
      exact ⟨hw, old, v', rfl, hcombined, ht, rfl, fun q _ hq => absurd List.nil_prefix hq⟩
  | cons name path ih =>
      intro base v' w' hn halong h
      obtain ⟨s, hs, halong⟩ := Option.bind_eq_some_iff.mp halong
      obtain ⟨old, hold, rfl⟩ := Value.getNamed?_typed hn hs
      change m.writePath rhs op span base (name :: path) w = .ok v' w' at h
      rw [writePath_value hn hold] at h
      obtain ⟨next, w₁, hnext, hset⟩ := of_bind_ok h
      obtain ⟨rfl, o, c, ho, hcombined, hreplaced⟩ := ih (Ty.fieldNamed?_storable hs).2 halong hnext
      obtain ⟨rebuilt, hrebuilt, ht⟩ := Value.setNamed?_typed hn hs hreplaced.type
      rw [hrebuilt] at hset
      cases hset
      refine ⟨rfl, o, c, ?_, hcombined, .cons hold hreplaced hrebuilt ht⟩
      rw [Value.read?, hold, Option.bind_some, ho]

end Machine

end SceneScript
