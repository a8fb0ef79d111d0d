import SceneScript.Proofs.Number.Rounding

/-!
# What a decimal stands for

Reading a decimal is rounding it as the ratio that it is. The two shortcuts for a magnitude that is
far outside the format change nothing: what they give is what rounding gives. So only the ratio
matters, and a zero at the end of the digits may as well be one more in the exponent.

* **`two_pow_le_ten_pow`** / **`ten_pow_le_two_pow`** — a power of two and a power of ten compared.
* **`Format.round_huge`** / **`Format.round_tiny`** — what is rounded to infinity and to zero.
* **`Decimal.toBinary64_eq`** — the decimal as a ratio.
* **`Decimal.toBinary64_zeros`** / **`Decimal.toBinary64_stripZeros`** — zeros at the end.
-/

namespace SceneScript

/-! ## Powers of two and of ten -/

/-- The binary logarithm of ten is at least `93 / 28`. -/
theorem two_pow_le_ten_pow {m b : Nat} (h : 28 * m ≤ 93 * b) : 2 ^ m ≤ 10 ^ b := by
  refine (Nat.pow_le_pow_iff_left (n := 93) (by decide)).mp ?_
  calc (2 ^ m) ^ 93 = (2 ^ 93) ^ m := by rw [← Nat.pow_mul, ← Nat.pow_mul, Nat.mul_comm]
    _ ≤ (10 ^ 28) ^ m := Nat.pow_le_pow_left (by decide) m
    _ = 10 ^ (28 * m) := (Nat.pow_mul 10 28 m).symm
    _ ≤ 10 ^ (93 * b) := Nat.pow_le_pow_right (by decide) h
    _ = (10 ^ b) ^ 93 := by rw [← Nat.pow_mul, Nat.mul_comm]

/-- The binary logarithm of ten is at most `196 / 59`. -/
theorem ten_pow_le_two_pow {a m : Nat} (h : 196 * a ≤ 59 * m) : 10 ^ a ≤ 2 ^ m := by
  refine (Nat.pow_le_pow_iff_left (n := 59) (by decide)).mp ?_
  calc (10 ^ a) ^ 59 = (10 ^ 59) ^ a := by rw [← Nat.pow_mul, ← Nat.pow_mul, Nat.mul_comm]
    _ ≤ (2 ^ 196) ^ a := Nat.pow_le_pow_left (by decide) a
    _ = 2 ^ (196 * a) := (Nat.pow_mul 2 196 a).symm
    _ ≤ 2 ^ (59 * m) := Nat.pow_le_pow_right (by decide) h
    _ = (2 ^ m) ^ 59 := by rw [← Nat.pow_mul, Nat.mul_comm]

/-! ## Digits -/

theorem lt_pow_digits (n : Nat) : n < 10 ^ (decimalDigits n).length :=
  (Nat.length_toDigits_le_iff (by decide) Nat.length_toDigits_pos).mp le_rfl

theorem pow_digits_le {n : Nat} (hn : n ≠ 0) : 10 ^ ((decimalDigits n).length - 1) ≤ n := by
  by_cases hone : (decimalDigits n).length - 1 = 0
  · rw [hone, Nat.pow_zero]
    exact Nat.one_le_iff_ne_zero.mpr hn
  · refine Nat.not_lt.mp fun hlt => ?_
    have hlength := (Nat.length_toDigits_le_iff (by decide) (Nat.pos_of_ne_zero hone)).mpr hlt
    rw [← decimalDigits] at hlength
    omega

/-! ## Magnitudes far outside of a format -/

namespace Format

variable {f : Format} {num den l : Nat}

/-- A ratio from the limit on is rounded to infinity. -/
theorem round_huge (hprecision : 0 < f.precision) (hlimit : f.limit = 2 ^ l) (hgrain : f.grain ≤ l)
    (hden : 0 < den) (negative : Bool) (h : 2 ^ l * den ≤ num) :
    f.round negative num den = .infinite negative := by
  have hquotient : 2 ^ l ≤ num / den := (Nat.le_div_iff_mul_le hden).mpr h
  obtain ⟨s, hs⟩ : ∃ s, f.grid (num / den) = 2 ^ s := ⟨_, rfl⟩
  have hgrid : 2 ^ s ≤ num / den := by
    refine hs ▸ (grid_le hprecision _).trans (max_le (le_trans ?_ hquotient) le_rfl)
    exact Nat.pow_le_pow_right (Nat.succ_pos 1) hgrain
  have hsteps : 2 ^ l ≤ roundDiv num (den * 2 ^ s) * 2 ^ s := by
    have hpos : 0 < den * 2 ^ s := Nat.mul_pos hden (Nat.two_pow_pos s)
    rcases Nat.le_total s l with hle | hle
    · have hsplit : 2 ^ (l - s) * 2 ^ s = 2 ^ l := by rw [← Nat.pow_add, Nat.sub_add_cancel hle]
      rw [← hsplit]
      refine Nat.mul_le_mul_right _ (le_roundDiv hpos ?_)
      rwa [Nat.mul_comm den, ← Nat.mul_assoc, hsplit]
    · have hone : 1 ≤ roundDiv num (den * 2 ^ s) := by
        refine le_roundDiv hpos ?_
        rw [Nat.one_mul, Nat.mul_comm]
        exact (Nat.le_div_iff_mul_le hden).mp hgrid
      calc 2 ^ l ≤ 1 * 2 ^ s := by
            rw [Nat.one_mul]
            exact Nat.pow_le_pow_right (Nat.succ_pos 1) hle
        _ ≤ roundDiv num (den * 2 ^ s) * 2 ^ s := Nat.mul_le_mul_right _ hone
  rw [round_grid, hs, hlimit, if_pos hsteps]

/-- Less than half of the least step is rounded to zero. -/
theorem round_tiny (hlimit : 0 < f.limit) (negative : Bool) (h : 2 * num < den) :
    f.round negative num den = .finite negative 0 := by
  have hpos := f.grid_pos (num / den)
  have hzero : roundDiv num (den * f.grid (num / den)) = 0 := by
    have hden : den ≤ den * f.grid (num / den) := Nat.le_mul_of_pos_right den hpos
    refine Nat.lt_one_iff.mp (roundDiv_lt (by omega) ?_)
    omega
  rw [round_grid, hzero, Nat.zero_mul, if_neg (Nat.not_le.mpr hlimit)]

end Format

/-! ## Decimals as ratios -/

namespace Decimal

/-- A decimal with its first digit beyond place 400 is beyond the limit. -/
theorem round_beyond {d : Decimal} (negative : Bool) (hdigits : d.digits ≠ 0)
    (hplace : 400 < (decimalDigits d.digits).length + d.exponent) :
    binary64.round negative (d.digits * 10 ^ d.exponent.toNat * stepsPerOne)
      (10 ^ (-d.exponent).toNat) = .infinite negative := by
  obtain ⟨k, hk, hone⟩ := stepsPerOne_pow
  obtain ⟨l, hl, hlimit⟩ := limit_binary64
  obtain ⟨far, hfar⟩ : ∃ far, far = 400 := ⟨_, rfl⟩
  refine Format.round_huge (by decide) hlimit (Nat.zero_le l) (Nat.pow_pos (by decide)) negative ?_
  have hpower : 2 ^ (l - k) * 10 ^ (-d.exponent).toNat ≤ d.digits * 10 ^ d.exponent.toNat :=
    calc 2 ^ (l - k) * 10 ^ (-d.exponent).toNat
      _ ≤ 10 ^ far * 10 ^ (-d.exponent).toNat :=
          Nat.mul_le_mul_right _ (two_pow_le_ten_pow (by omega))
      _ = 10 ^ (far + (-d.exponent).toNat) := (Nat.pow_add 10 _ _).symm
      _ ≤ 10 ^ ((decimalDigits d.digits).length - 1 + d.exponent.toNat) :=
          Nat.pow_le_pow_right (by decide) (by omega)
      _ = 10 ^ ((decimalDigits d.digits).length - 1) * 10 ^ d.exponent.toNat := Nat.pow_add 10 _ _
      _ ≤ d.digits * 10 ^ d.exponent.toNat := Nat.mul_le_mul_right _ (pow_digits_le hdigits)
  have hsplit : 2 ^ l = 2 ^ (l - k) * 2 ^ k := by rw [← Nat.pow_add, Nat.sub_add_cancel (by omega)]
  rw [hone, hsplit, Nat.mul_right_comm]
  exact Nat.mul_le_mul_right _ hpower

/-- A decimal with its first digit behind place -400 is too small for the least step. -/
theorem round_behind {d : Decimal} (negative : Bool)
    (hplace : (decimalDigits d.digits).length + d.exponent < -400) :
    binary64.round negative (d.digits * 10 ^ d.exponent.toNat * stepsPerOne)
      (10 ^ (-d.exponent).toNat) = .finite negative 0 := by
  obtain ⟨k, hk, hone⟩ := stepsPerOne_pow
  obtain ⟨l, -, hlimit⟩ := limit_binary64
  obtain ⟨far, hfar⟩ : ∃ far, far = 400 := ⟨_, rfl⟩
  refine Format.round_tiny (hlimit ▸ Nat.two_pow_pos l) negative ?_
  have hinteger : d.exponent.toNat = 0 := by omega
  rw [hone, hinteger, Nat.pow_zero, Nat.mul_one]
  calc 2 * (d.digits * 2 ^ k)
    _ = d.digits * 2 ^ (k + 1) := by rw [Nat.pow_succ, Nat.mul_left_comm, Nat.mul_comm 2]
    _ < 10 ^ (decimalDigits d.digits).length * 2 ^ (k + 1) :=
        Nat.mul_lt_mul_of_pos_right (lt_pow_digits _) (Nat.two_pow_pos _)
    _ ≤ 10 ^ (decimalDigits d.digits).length * 10 ^ far :=
        Nat.mul_le_mul_left _ (two_pow_le_ten_pow (by omega))
    _ = 10 ^ ((decimalDigits d.digits).length + far) := (Nat.pow_add 10 _ _).symm
    _ ≤ 10 ^ (-d.exponent).toNat := Nat.pow_le_pow_right (by decide) (by omega)

/-- A decimal is read as the ratio that it is, rounded. -/
theorem toBinary64_eq (negative : Bool) (d : Decimal) :
    d.toBinary64 negative =
      binary64.round negative (d.digits * 10 ^ d.exponent.toNat * stepsPerOne)
        (10 ^ (-d.exponent).toNat) := by
  rw [toBinary64]
  split_ifs with hzero hhuge htiny hinteger
  · obtain ⟨l, -, hlimit⟩ := limit_binary64
    rw [hzero, Nat.zero_mul, Nat.zero_mul,
      Format.round_tiny (hlimit ▸ Nat.two_pow_pos l) negative (Nat.pow_pos (by decide))]
  · exact (round_beyond negative hzero hhuge).symm
  · exact (round_behind negative htiny).symm
  · rw [Binary64.ofRatio, Nat.pow_eq, show (-d.exponent).toNat = 0 by omega, Nat.pow_zero]
  · rw [Binary64.ofRatio, Nat.pow_eq, show d.exponent.toNat = 0 by omega, Nat.pow_zero,
      Nat.mul_one]

/-- A zero at the end of the digits is one more in the exponent. -/
theorem toBinary64_ten (negative : Bool) (n : Nat) (e : Int) :
    toBinary64 negative ⟨n * 10, e⟩ = toBinary64 negative ⟨n, e + 1⟩ := by
  rw [toBinary64_eq, toBinary64_eq]
  rcases Int.lt_or_le e 0 with hneg | hpos
  · have hexponent : (-e).toNat = (-(e + 1)).toNat + 1 := by omega
    rw [show e.toNat = 0 by omega, show (e + 1).toNat = 0 by omega, hexponent, Nat.pow_succ,
      Nat.pow_zero, Nat.mul_one, Nat.mul_one, Nat.mul_right_comm,
      Format.round_scale _ _ _ _ (by decide)]
  · rw [show (-e).toNat = 0 by omega, show (-(e + 1)).toNat = 0 by omega,
      show (e + 1).toNat = e.toNat + 1 by omega, Nat.pow_succ, ← Nat.mul_assoc,
      Nat.mul_right_comm n 10]

/-- Zeros at the end of the digits are as many in the exponent. -/
theorem toBinary64_zeros (negative : Bool) (n : Nat) (e : Int) (k : Nat) :
    toBinary64 negative ⟨n * 10 ^ k, e⟩ = toBinary64 negative ⟨n, e + k⟩ := by
  induction k generalizing e with
  | zero => rw [Nat.pow_zero, Nat.mul_one, Int.natCast_zero, Int.add_zero]
  | succ k ih =>
      rw [Nat.pow_succ, ← Nat.mul_assoc, toBinary64_ten, ih, Int.natCast_succ, Int.add_assoc,
        Int.add_comm 1]

/-- A decimal without zeros at the end is read like the decimal with them. -/
theorem toBinary64_stripZeros (negative : Bool) (n : Nat) (d : Decimal) :
    (d.stripZeros n).toBinary64 negative = d.toBinary64 negative := by
  induction n generalizing d with
  | zero => rfl
  | succ n ih =>
      rw [stripZeros]
      split_ifs with h
      · rw [ih, ← toBinary64_ten, Nat.div_mul_cancel (Nat.dvd_of_mod_eq_zero h.2)]
      · rfl

/-- The sign is passed on. -/
theorem toBinary64_negative {s : Bool} {d : Decimal} {n : Nat}
    (h : d.toBinary64 s = .finite s n) (negative : Bool) :
    d.toBinary64 negative = .finite negative n := by
  rw [toBinary64_eq, Format.round_grid] at h ⊢
  split_ifs at h ⊢ with hlimit
  · injection h with _ hn
    rw [hn]

end Decimal

end SceneScript
