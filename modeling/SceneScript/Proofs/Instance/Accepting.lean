import SceneScript.Proofs.Instance.Typed
import SceneScript.Proofs.Typing.Exports

/-!
# What a property accepts

A value that a property is given is looked at three times: it has to be of the type of the
property, or an integer for a float; its floats have to be finite; and where options are listed it
has to be one of them. The first of these that fails is the one that is reported. A value that
passes is kept as it is, an integer as a float where one is asked for, or brought into the range.

* **`Value.IsListed`** — a listed text, or an index into the list.
* **`Property.Rejects`**, **`Property.accept_error_iff`** — why a value is not accepted.
* **`Int32.IsNearest`** — the integer of a range that is closest to another one.
* **`Property.Takes`**, **`Property.accept_takes`** — what becomes of a value that is accepted.
-/

namespace SceneScript

/-! ## Values -/

/-- The floating-point numbers that a value holds. -/
def Value.floats : Value → List Binary64
  | .float x                  => [x]
  | .vector2 v                => [v.x, v.y]
  | .color r g b a            => [r, g, b, a]
  | .rect2 p s                => [p.x, p.y, s.x, s.y]
  | .transform2D p rotation s => [p.x, p.y, rotation, s.x, s.y]
  | _                         => []

/-- The value is one of the texts, or an index into them. -/
def Value.IsListed (values : List Text) (v : Value) : Prop :=
  (∃ t ∈ values, v = .string t) ∨
    ∃ n : Int32, v = .int n ∧ 0 ≤ n.toInt ∧ n.toInt < values.length

theorem Value.isFinite_iff (v : Value) :
    v.isFinite = true ↔ ∀ x ∈ v.floats, x.isFinite = true := by
  cases v <;> simp [isFinite, floats, Vec2.isFinite, and_assoc]

theorem isOption_iff {values : List Text} {v : Value} :
    isOption values v = true ↔ v.IsListed values := by
  cases v <;> simp [isOption, Value.IsListed]

/-- A value is brought to a type as it is, or widened. -/
theorem Value.coerce?_cases {v w : Value} {t : Ty} (h : v.coerce? t = some w) :
    (v.type = t ∧ w = v) ∨ ∃ n, v = .int n ∧ t = .f32 ∧ w = .ofFloat (.ofInt32 n) := by
  unfold coerce? at h
  split at h
  · next htype => exact .inl ⟨htype, (Option.some.inj h).symm⟩
  · split at h
    · next n _ => exact .inr ⟨n, rfl, rfl, (Option.some.inj h).symm⟩
    · cases h

/-- A value can be brought to the types that it fits. -/
theorem Value.coerce?_isSome_iff {v : Value} {t : Ty} : (v.coerce? t).isSome ↔ v.type.Fits t := by
  constructor
  · intro h
    obtain ⟨w, hw⟩ := Option.isSome_iff_exists.mp h
    rcases coerce?_cases hw with ⟨htype, -⟩ | ⟨n, rfl, rfl, -⟩
    · exact .inl htype
    · exact .inr ⟨rfl, rfl⟩
  · rintro (htype | ⟨htype, rfl⟩)
    · exact Option.isSome_iff_exists.mpr ⟨v, if_pos htype⟩
    · cases v <;> cases htype
      rfl

/-- An integer is widened to a finite number. -/
theorem Value.coerce?_isFinite {v w : Value} {t : Ty} (h : v.coerce? t = some w) :
    w.isFinite = v.isFinite := by
  rcases coerce?_cases h with ⟨-, rfl⟩ | ⟨n, rfl, -, rfl⟩
  · rfl
  · exact Binary64.isFinite_single n

/-! ## Values that are not accepted -/

namespace Property

variable {p : Property} {v : Value}

/-- The first reason that there is for a property not to accept a value. -/
inductive Rejects (p : Property) (v : Value) : PropertyError → Prop where
  | type : ¬v.type.Fits p.type → Rejects p v (.typeMismatch p.type v.type)
  | infinite (x : Binary64) :
      v.type.Fits p.type → x ∈ v.floats → x.isFinite = false → Rejects p v .nonFinite
  | unlisted (values : List Text) :
      v.type.Fits p.type → (∀ x ∈ v.floats, x.isFinite = true) → p.hint = .options values →
      ¬v.IsListed values → Rejects p v (.notListed values)

/-- A value that fits is refused when it is not finite or not listed. -/
theorem accept_of_coerced {u : Value} (h : v.coerce? p.type = some u) :
    p.accept v =
      if v.isFinite = true then
        match p.hint with
        | .options values => if isOption values u then .ok u else .error (.notListed values)
        | hint            => .ok (hint.clamp u)
      else .error .nonFinite := by
  rw [accept, h]
  dsimp only
  rw [Value.coerce?_isFinite h]
  cases v.isFinite <;> rfl

/-- Options are listed for integers and texts, so no value is widened where they are. -/
def ListsWhole (p : Property) : Prop := ∀ values, p.hint = .options values → p.type ≠ .f32

/-- A property does not accept a value for the first reason that there is. -/
theorem accept_error_iff (hp : p.ListsWhole) {e : PropertyError} :
    p.accept v = .error e ↔ p.Rejects v e := by
  -- Where options are listed, the value that is looked up is the one that was given.
  have hwhole : ∀ values u, p.hint = .options values → v.coerce? p.type = some u → u = v := by
    intro values u hhint hu
    rcases Value.coerce?_cases hu with ⟨-, rfl⟩ | ⟨-, -, hfloat, -⟩
    · rfl
    · exact absurd hfloat (hp values hhint)
  constructor
  · intro h
    cases hu : v.coerce? p.type with
    | none =>
        have hfit : ¬v.type.Fits p.type := by
          rw [← Value.coerce?_isSome_iff, hu]
          exact Bool.noConfusion
        rw [accept, hu] at h
        cases h
        exact .type hfit
    | some u =>
        have hfit : v.type.Fits p.type := Value.coerce?_isSome_iff.mp (by rw [hu]; rfl)
        rw [accept_of_coerced hu] at h
        split at h
        · next hfinite =>
            split at h
            · next values hhint =>
                split at h
                · cases h
                · next hoption =>
                    cases h
                    rw [hwhole values u hhint hu, isOption_iff] at hoption
                    exact .unlisted values hfit (v.isFinite_iff.mp hfinite) hhint hoption
            · cases h
        · next hinfinite =>
            cases h
            rw [Value.isFinite_iff] at hinfinite
            push Not at hinfinite
            obtain ⟨x, hx, hxfinite⟩ := hinfinite
            exact .infinite x hfit hx (Bool.eq_false_iff.mpr hxfinite)
  · intro h
    cases h with
    | type hfit =>
        rw [← Value.coerce?_isSome_iff, Option.not_isSome_iff_eq_none] at hfit
        rw [accept, hfit]
    | infinite x hfit hx hxfinite =>
        obtain ⟨u, hu⟩ := Option.isSome_iff_exists.mp (Value.coerce?_isSome_iff.mpr hfit)
        have hinfinite : ¬v.isFinite = true := fun hall => by
          rw [v.isFinite_iff.mp hall x hx] at hxfinite
          cases hxfinite
        rw [accept_of_coerced hu, if_neg hinfinite]
    | unlisted values hfit hfinite hhint hlisted =>
        obtain ⟨u, hu⟩ := Option.isSome_iff_exists.mp (Value.coerce?_isSome_iff.mpr hfit)
        rw [accept_of_coerced hu, if_pos (v.isFinite_iff.mpr hfinite), hhint]
        rw [← isOption_iff, ← hwhole values u hhint hu] at hlisted
        exact if_neg hlisted

end Property

/-! ## Values that are accepted -/

/-- The integer is the one between the bounds that is closest to another. -/
def IsNearest (a b n m : Int32) : Prop :=
  a.toInt ≤ m.toInt ∧ m.toInt ≤ b.toInt ∧
    ∀ k : Int, a.toInt ≤ k → k ≤ b.toInt → (m.toInt - n.toInt).natAbs ≤ (k - n.toInt).natAbs

theorem isNearest_clamp {a b n m : Int32} (hab : a.toInt ≤ b.toInt)
    (hm : m.toInt = min b.toInt (max a.toInt n.toInt)) : IsNearest a b n m := by
  refine ⟨by omega, by omega, fun k hak hkb => ?_⟩
  omega

namespace Property

variable {p : Property} {v : Value}

/-- What a property has as its value after it was given one. -/
structure Takes (p : Property) (v new : Value) : Prop where
  type    : new.type = p.type
  whole   : (∀ min max step, p.hint ≠ .range min max step) → v.coerce? p.type = some new
  clamped : ∃ u, v.coerce? p.type = some u ∧ new = p.hint.clamp u
  nearest : ∀ min max step, p.hint = .range min max step → p.type = .i32 →
    ∃ a b n m : Int32, min = .ofInt32 a ∧ max = .ofInt32 b ∧ v = .int n ∧ new = .int m ∧
      IsNearest a b n m

/-- A value that is accepted is brought to the type and into the range. -/
theorem accept_eq_ok {w : Value} (h : p.accept v = .ok w) :
    ∃ u, v.coerce? p.type = some u ∧ w = p.hint.clamp u := by
  cases hu : v.coerce? p.type with
  | none =>
      rw [accept, hu] at h
      cases h
  | some u =>
      refine ⟨u, rfl, ?_⟩
      rw [accept_of_coerced hu] at h
      split at h
      · split at h
        · next hhint =>
            split at h
            · cases h
              rw [hhint]
              rfl
            · cases h
        · exact (Except.ok.inj h).symm
      · cases h

/-- Where options are listed, only one of them is accepted. -/
theorem accept_listed {w : Value} (h : p.accept v = .ok w) {values : List Text}
    (hhint : p.hint = .options values) : w.IsListed values := by
  obtain ⟨u, hu, -⟩ := accept_eq_ok h
  rw [accept_of_coerced hu, hhint] at h
  split at h
  · dsimp only at h
    split at h
    · next hoption =>
        cases h
        exact isOption_iff.mp hoption
    · cases h
  · cases h

/-- Integers are accepted for an integer unless options are listed. -/
theorem accept_int (htype : p.type = .i32) (hhint : ∀ values, p.hint ≠ .options values)
    (n : Int32) : ∃ w, p.accept (.int n) = .ok w := by
  have hcoerce : Value.coerce? (.int n) p.type = some (.int n) := if_pos htype.symm
  have hfinite : Value.isFinite (.int n) = true := rfl
  rw [accept_of_coerced hcoerce, if_pos hfinite]
  split
  · next values hvalues => exact absurd hvalues (hhint values)
  · exact ⟨_, rfl⟩

/-- What becomes of a value that a property accepts, for a property of a script that compiles. -/
theorem accept_takes {mark : ExportMark} {g : GlobalDecl} {t : Ty} (hp : Exports mark g t p)
    {w : Value} (h : p.accept v = .ok w) : p.Takes v w := by
  obtain ⟨u, hu, rfl⟩ := accept_eq_ok h
  refine ⟨accept_type h, fun hrange => ?_, ⟨u, hu, rfl⟩, fun min max step hhint htype => ?_⟩
  · have hclamp : p.hint.clamp u = u := by
      cases hhint : p.hint with
      | range min max step => exact absurd hhint (hrange min max step)
      | _ => rfl
    rw [hu, hclamp]
  · obtain ⟨a, b, ha, hb, hab⟩ := hp.range_ints hhint htype
    rcases Value.coerce?_cases hu with ⟨hint, rfl⟩ | ⟨-, -, hfloat, -⟩
    · cases u with
      | int n =>
          obtain ⟨m, hm, hmnearest⟩ := Hint.clamp_int a b n step
          refine ⟨a, b, n, m, ha, hb, rfl, ?_, isNearest_clamp hab hmnearest⟩
          rw [hhint, ha, hb, hm]
      | _ =>
          rw [htype] at hint
          cases hint
    · rw [htype] at hfloat
      cases hfloat

/-- Options belong to integers and texts. -/
theorem listsWhole_of_exports {mark : ExportMark} {g : GlobalDecl} {t : Ty}
    (hp : Exports mark g t p) : p.ListsWhole := by
  intro values hhint hfloat
  rcases hp.options_type hhint with htype | htype <;> rw [hfloat] at htype <;> cases htype

end Property

end SceneScript
