/-!
# What a computation leads to

Reading a script and running it are both computations with a state that can stop early. Their
theory needs one notion only: what holds of the result and the state when a computation ends
well, and what holds when it stops.

* **`Ends x s Q E`** — from the state `s`, the computation `x` gives a result that satisfies
  `Q`, or stops with a cause that satisfies `E`.
* **`ends_bind`** — one computation after another; **`Ends.mono`** — weaker conditions.
-/

namespace SceneScript

variable {ε σ α β : Type}

/-- From `s`, the computation ends well with `Q` or stops with `E`. -/
def Ends (x : EStateM ε σ α) (s : σ) (Q : α → σ → Prop) (E : ε → σ → Prop) : Prop :=
  match x s with
  | .ok a s'    => Q a s'
  | .error e s' => E e s'

variable {x : EStateM ε σ α} {s : σ} {Q Q' : α → σ → Prop} {E E' : ε → σ → Prop}

theorem ends_of_ok {a : α} {s' : σ} (h : x s = .ok a s') : Ends x s Q E ↔ Q a s' := by
  rw [Ends, h]

theorem ends_of_error {e : ε} {s' : σ} (h : x s = .error e s') : Ends x s Q E ↔ E e s' := by
  rw [Ends, h]

theorem ends_congr {y : EStateM ε σ α} (h : x s = y s) : Ends x s Q E ↔ Ends y s Q E := by
  rw [Ends, Ends, h]

theorem Ends.mono (h : Ends x s Q E) (hQ : ∀ a s', Q a s' → Q' a s')
    (hE : ∀ e s', E e s' → E' e s') : Ends x s Q' E' := by
  cases hx : x s with
  | ok a s' => exact (ends_of_ok hx).mpr (hQ a s' ((ends_of_ok hx).mp h))
  | error e s' => exact (ends_of_error hx).mpr (hE e s' ((ends_of_error hx).mp h))

/-- What is known twice is known together. -/
theorem Ends.and (h : Ends x s Q E) (h' : Ends x s Q' E') :
    Ends x s (fun a s' => Q a s' ∧ Q' a s') (fun e s' => E e s' ∧ E' e s') := by
  cases hx : x s with
  | ok a s' => exact (ends_of_ok hx).mpr ⟨(ends_of_ok hx).mp h, (ends_of_ok hx).mp h'⟩
  | error e s' =>
      exact (ends_of_error hx).mpr ⟨(ends_of_error hx).mp h, (ends_of_error hx).mp h'⟩

@[simp] theorem ends_pure {a : α} : Ends (pure a) s Q E ↔ Q a s := Iff.rfl

@[simp] theorem ends_get {Q : σ → σ → Prop} : Ends (get : EStateM ε σ σ) s Q E ↔ Q s s := Iff.rfl

theorem bind_of_ok {f : α → EStateM ε σ β} {a : α} {s' : σ} (h : x s = .ok a s') :
    (x >>= f) s = f a s' := by
  show EStateM.bind x f s = f a s'
  rw [EStateM.bind, h]

theorem bind_of_error {f : α → EStateM ε σ β} {e : ε} {s' : σ} (h : x s = .error e s') :
    (x >>= f) s = .error e s' := by
  show EStateM.bind x f s = .error e s'
  rw [EStateM.bind, h]

/-- Where one computation after another ends well, both do. -/
theorem of_bind_ok {f : α → EStateM ε σ β} {b : β} {s'' : σ} (h : (x >>= f) s = .ok b s'') :
    ∃ a s', x s = .ok a s' ∧ f a s' = .ok b s'' := by
  cases hx : x s with
  | ok a s' => exact ⟨a, s', rfl, (bind_of_ok hx).symm.trans h⟩
  | error e s' => cases (bind_of_error hx).symm.trans h

@[simp] theorem ends_bind {f : α → EStateM ε σ β} {Q : β → σ → Prop} :
    Ends (x >>= f) s Q E ↔ Ends x s (fun a s' => Ends (f a) s' Q E) E := by
  cases hx : x s with
  | ok a s' => rw [ends_of_ok hx, Ends, bind_of_ok hx, Ends]
  | error e s' => rw [ends_of_error hx, ends_of_error (bind_of_error hx)]

@[simp] theorem ends_map {f : α → β} {Q : β → σ → Prop} :
    Ends (f <$> x) s Q E ↔ Ends x s (fun a s' => Q (f a) s') E := by
  rw [map_eq_pure_bind, ends_bind]
  rfl

end SceneScript
