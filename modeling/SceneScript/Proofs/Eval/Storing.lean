import SceneScript.Proofs.Eval.Frames
import SceneScript.Proofs.Outcome

/-!
# Which variable a store changes

A name means its innermost variable: of the frames of a function, innermost first, and the globals
behind them, the first frame that has the name. A store changes this variable and no other, and
asks nothing of the host.

* **`Rebinds`** — frames before and after the innermost variable of a name gets another value.
* **`Machine.store_rebinds`** — what a store does.
-/

namespace SceneScript

/-- The innermost variable of a name, which had the value `v`, has the value `v'`. Every other name
    of its frame, and every other frame, has what it had. -/
inductive Rebinds (name : Text) (v v' : Value) : List Bindings → List Bindings → Prop where
  | here {b b' : Bindings} {frames : List Bindings} :
      b.find? name = some v → b'.find? name = some v' →
      (∀ n, n ≠ name → b'.find? n = b.find? n) → Rebinds name v v' (b :: frames) (b' :: frames)
  | outer {b : Bindings} {frames frames' : List Bindings} :
      b.find? name = none → Rebinds name v v' frames frames' →
      Rebinds name v v' (b :: frames) (b :: frames')

namespace Locals

theorem find?_append (locals frames : Locals) (name : Text) :
    find? (locals ++ frames) name = (locals.find? name).or (frames.find? name) := by
  induction locals with
  | nil => rfl
  | cons b locals ih => rw [List.cons_append, find?_cons, find?_cons, ih, Option.or_assoc]

theorem find?_singleton (b : Bindings) (name : Text) : find? [b] name = b.find? name := by
  rw [find?_cons]
  exact Option.or_none

end Locals

namespace Rebinds

variable {name : Text} {v v' : Value} {b : Bindings} {frames frames' : List Bindings}

/-- The name has the one value before and the other after. -/
theorem find? (h : Rebinds name v v' frames frames') :
    Locals.find? frames name = some v ∧ Locals.find? frames' name = some v' := by
  induction h with
  | here hv hv' _ =>
      rw [Locals.find?_cons, Locals.find?_cons, hv, hv']
      exact ⟨rfl, rfl⟩
  | outer hb _ ih =>
      rw [Locals.find?_cons, Locals.find?_cons, hb]
      exact ih

/-- Other names have what they had. -/
theorem find?_ne (h : Rebinds name v v' frames frames') {n : Text} (hn : n ≠ name) :
    Locals.find? frames' n = Locals.find? frames n := by
  induction h with
  | here _ _ hother => rw [Locals.find?_cons, Locals.find?_cons, hother n hn]
  | outer _ _ ih => rw [Locals.find?_cons, Locals.find?_cons, ih]

/-- A variable of the innermost frame. -/
theorem set (h : b.find? name = some v) :
    Rebinds name v v' (b :: frames) (b.set name v' :: frames) := by
  refine .here h (by rw [Bindings.find?_set, if_pos rfl]) fun n hn => ?_
  rw [Bindings.find?_set, if_neg (Ne.symm hn)]

/-- More frames behind those that are searched. -/
theorem append (h : Rebinds name v v' frames frames') (more : List Bindings) :
    Rebinds name v v' (frames ++ more) (frames' ++ more) := by
  induction h with
  | here hv hv' hother => exact .here hv hv' hother
  | outer hb _ ih => exact .outer hb ih

/-- Frames without the name before those that are searched. -/
theorem behind (h : Rebinds name v v' frames frames') :
    ∀ {locals : Locals}, locals.find? name = none →
      Rebinds name v v' (locals ++ frames) (locals ++ frames')
  | [], _ => h
  | b :: locals, hnone => by
      rw [Locals.find?_cons, Option.or_eq_none_iff] at hnone
      exact .outer hnone.1 (h.behind hnone.2)

/-- A local variable. -/
theorem assign : ∀ {locals changed : Locals}, locals.assign? name v' = some changed →
    locals.find? name = some v → Rebinds name v v' locals changed
  | [], _, h, _ => by cases h
  | b :: locals, _, h, hv => by
      rw [Locals.find?_cons] at hv
      rw [Locals.assign?] at h
      cases hb : b.find? name with
      | some u =>
          rw [hb] at h hv
          cases h
          cases hv
          exact .set hb
      | none =>
          rw [hb] at h hv
          obtain ⟨changed, hchanged, rfl⟩ := Option.map_eq_some_iff.mp h
          exact .outer hb (assign hchanged hv)

end Rebinds

/-- The frames that a name is looked up in. -/
def World.frames {σ : Type} (w : World σ) (locals : Locals) : List Bindings := locals ++ [w.globals]

variable {σ : Type} {w : World σ} {name : Text} {v : Value}

theorem World.find?_frames (w : World σ) (locals : Locals) (name : Text) :
    Locals.find? (w.frames locals) name = (locals.find? name).or (w.globals.find? name) := by
  rw [frames, Locals.find?_append, Locals.find?_singleton]

theorem Locals.isSome_find?_of_assign? :
    ∀ {locals changed : Locals}, locals.assign? name v = some changed →
      (locals.find? name).isSome = true
  | [], _, h => by cases h
  | b :: locals, _, h => by
      rw [assign?] at h
      rw [find?_cons]
      cases hb : b.find? name with
      | some u => rfl
      | none =>
          rw [hb] at h
          obtain ⟨changed, hchanged, -⟩ := Option.map_eq_some_iff.mp h
          exact isSome_find?_of_assign? hchanged

namespace Machine

theorem store_run (locals : Locals) (name : Text) (v : Value) (w : World σ) :
    store locals name v w =
      match locals.assign? name v with
      | some changed => .ok changed w
      | none         => .ok locals { w with globals := w.globals.set name v } := by
  rw [store]
  cases locals.assign? name v <;> rfl

/-- A store gives the innermost variable of the name the value. -/
theorem store_rebinds (v' : Value) {locals : Locals}
    (hv : Locals.find? (w.frames locals) name = some v) :
    ∃ locals' w', store locals name v' w = .ok locals' w' ∧ w'.host = w.host ∧
      Rebinds name v v' (w.frames locals) (w'.frames locals') := by
  rw [World.find?_frames] at hv
  rw [store_run]
  cases hassign : locals.assign? name v' with
  | some changed =>
      obtain ⟨u, hu⟩ := Option.isSome_iff_exists.mp (Locals.isSome_find?_of_assign? hassign)
      rw [hu] at hv
      cases hv
      exact ⟨changed, w, rfl, rfl, (Rebinds.assign hassign hu).append _⟩
  | none =>
      have hnone := Locals.find?_of_assign? hassign
      rw [hnone, Option.none_or] at hv
      exact ⟨locals, _, rfl, rfl, (Rebinds.set hv).behind hnone⟩

end Machine

end SceneScript
