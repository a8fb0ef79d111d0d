import SceneScript.Proofs.Number.Integers

/-!
# What rounding does

Rounding a ratio to a format is rounding it to a multiple of the distance between neighbours at its
magnitude. What it gives is no further from the ratio than half that distance, and rounding once
more changes nothing. Only the ratio matters, not the terms that it is given in.

* **`roundDiv_mul_le`** / **`le_roundDiv_mul`** — the nearest integer is within a half.
* **`Format.round_scale`** — both terms of a ratio multiplied by a number.
* **`Format.Holds`** — the counts of steps that are numbers of a format; **`Format.round_holds`**,
  **`Format.round_of_holds`** — they are what rounding gives and what it leaves alone.
* **`Binary64.toSingle_toSingle`** — rounding to single precision is idempotent.
-/

namespace SceneScript

/-! ## The nearest integer -/

theorem roundDiv_mul_le (a : Nat) {b : Nat} (hb : 0 < b) :
    2 * (roundDiv a b * b) ≤ 2 * a + b := by
  have hdivmod : a / b * b + a % b = a := Nat.div_add_mod' a b
  have hmod := Nat.mod_lt a hb
  have hnext : (a / b + 1) * b = a / b * b + b := Nat.succ_mul _ _
  rw [roundDiv]
  split_ifs <;> omega

theorem le_roundDiv_mul (a : Nat) {b : Nat} (hb : 0 < b) :
    2 * a ≤ 2 * (roundDiv a b * b) + b := by
  have hdivmod : a / b * b + a % b = a := Nat.div_add_mod' a b
  have hmod := Nat.mod_lt a hb
  have hnext : (a / b + 1) * b = a / b * b + b := Nat.succ_mul _ _
  rw [roundDiv]
  split_ifs <;> omega

/-- An integer below a ratio is below the nearest integer. -/
theorem le_roundDiv {a b c : Nat} (hb : 0 < b) (h : c * b ≤ a) : c ≤ roundDiv a b := by
  have hdiv := (Nat.le_div_iff_mul_le hb).mpr h
  rw [roundDiv]
  split_ifs <;> omega

/-- An integer that is more than a half above a ratio is above the nearest integer. -/
theorem roundDiv_lt {a b c : Nat} (hb : 0 < b) (h : 2 * a + b < 2 * (c * b)) :
    roundDiv a b < c := by
  have hround := roundDiv_mul_le a hb
  exact Nat.lt_of_mul_lt_mul_right (a := b) (by omega)

theorem roundDiv_scale (a b : Nat) {c : Nat} (hc : 0 < c) :
    roundDiv (a * c) (b * c) = roundDiv a b := by
  have hbelow : 2 * (a % b * c) < b * c ↔ 2 * (a % b) < b := by
    rw [← Nat.mul_assoc]
    exact Nat.mul_lt_mul_right hc
  have habove : b * c < 2 * (a % b * c) ↔ b < 2 * (a % b) := by
    rw [← Nat.mul_assoc]
    exact Nat.mul_lt_mul_right hc
  rw [roundDiv, roundDiv, Nat.mul_div_mul_right a b hc, Nat.mul_mod_mul_right]
  simp only [hbelow, habove]

namespace Format

variable {f : Format}

theorem round_grid (f : Format) (negative : Bool) (num den : Nat) :
    f.round negative num den =
      if f.limit ≤ roundDiv num (den * f.grid (num / den)) * f.grid (num / den) then
        .infinite negative
      else .finite negative (roundDiv num (den * f.grid (num / den)) * f.grid (num / den)) := rfl

/-- Only the ratio is rounded, not its terms. -/
theorem round_scale (f : Format) (negative : Bool) (num den : Nat) {c : Nat} (hc : 0 < c) :
    f.round negative (num * c) (den * c) = f.round negative num den := by
  simp only [round, Nat.mul_div_mul_right num den hc, Nat.mul_right_comm den c,
    roundDiv_scale _ _ hc]

/-- A count of steps that is a number of the format. -/
def Holds (f : Format) (steps : Nat) : Prop := f.grid steps ∣ steps ∧ steps < f.limit

/-- A number of the format is left alone. -/
theorem round_of_holds {steps : Nat} (negative : Bool) (h : f.Holds steps) :
    f.round negative steps 1 = .finite negative steps :=
  round_exact negative le_rfl h.1 h.2

/-- Neighbours at a smaller magnitude are no further apart. -/
theorem grid_dvd {steps k : Nat} (hprecision : 0 < f.precision) (hgrain : f.grain ≤ k)
    (h : steps < 2 ^ (k + f.precision)) : f.grid steps ∣ 2 ^ k := by
  refine Nat.pow_dvd_pow 2 (max_le hgrain ?_)
  by_cases hzero : steps = 0
  · rw [hzero, Nat.log2_zero]
    omega
  · have hlog := (Nat.log2_lt hzero).mpr h
    omega

/-- Neighbours are as close as they get, or a number has all the bits of the format. -/
theorem grid_cases (hprecision : 0 < f.precision) (num : Nat) :
    f.grid num = 2 ^ f.grain ∨ f.grid num * 2 ^ (f.precision - 1) ≤ num := by
  rcases Nat.lt_or_ge f.grain (num.log2 + 1 - f.precision) with hlarge | hsmall
  · right
    have hnonzero : num ≠ 0 := by
      rintro rfl
      rw [Nat.log2_zero] at hlarge
      omega
    refine Nat.le_trans (Nat.le_of_eq ?_) (Nat.log2_self_le hnonzero)
    have hexponent : num.log2 + 1 - f.precision + (f.precision - 1) = num.log2 := by omega
    rw [grid, max_eq_right hlarge.le, Nat.pow_eq, ← Nat.pow_add, hexponent]
  · exact .inl (congrArg (Nat.pow 2) (max_eq_left hsmall))

/-- Rounding gives a number of the format. -/
theorem round_holds {negative s : Bool} {num den n : Nat} (hprecision : 0 < f.precision)
    (h : f.round negative num den = .finite s n) : s = negative ∧ f.Holds n := by
  rw [round] at h
  split_ifs at h with hlimit
  injection h with hs hn
  refine ⟨hs.symm, ?_, hn ▸ Nat.not_le.mp hlimit⟩
  obtain ⟨k, hk⟩ : ∃ k, k = max f.grain ((num / den).log2 + 1 - f.precision) := ⟨_, rfl⟩
  rw [← hk] at hn
  have hquotient : num / den < 2 ^ (k + f.precision) :=
    Nat.lt_log2_self.trans_le (Nat.pow_le_pow_right (Nat.succ_pos 1) (by omega))
  have hsteps : roundDiv num (den * 2 ^ k) ≤ 2 ^ f.precision := by
    refine (roundDiv_le num _).trans (Nat.succ_le_of_lt ?_)
    rw [← Nat.div_div_eq_div_mul]
    exact Nat.div_lt_of_lt_mul (by rwa [← Nat.pow_add])
  change roundDiv num (den * 2 ^ k) * 2 ^ k = n at hn
  rcases hsteps.lt_or_eq with hless | htop
  · -- below the next power of two the neighbours are as far apart as they were
    have hbound : n < 2 ^ (k + f.precision) := by
      rw [← hn, Nat.pow_add, Nat.mul_comm]
      exact Nat.mul_lt_mul_of_pos_left hless (Nat.two_pow_pos k)
    exact (grid_dvd hprecision (by omega) hbound).trans (hn ▸ Nat.dvd_mul_left _ _)
  · have hpower : n = 2 ^ (k + f.precision) := by
      rw [← hn, htop, Nat.pow_add, Nat.mul_comm]
    rw [hpower]
    refine (grid_dvd (k := k + 1) hprecision (by omega) ?_).trans (Nat.pow_dvd_pow 2 (by omega))
    exact Nat.pow_lt_pow_right Nat.one_lt_two (by omega)

end Format

namespace Binary64

/-- Rounding to single precision once more changes nothing. -/
theorem toSingle_toSingle (x : Binary64) : x.toSingle.toSingle = x.toSingle := by
  cases x with
  | nan => rfl
  | infinite s => rfl
  | finite s n =>
    rw [toSingle]
    rcases h : binary32.round s n 1 with _ | t | ⟨t, k⟩
    · rfl
    · rfl
    · obtain ⟨-, hk⟩ := Format.round_holds (by decide) h
      rw [toSingle, Format.round_of_holds t hk]

end Binary64

end SceneScript
