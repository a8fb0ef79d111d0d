import Mathlib.Algebra.Order.Ring.Nat
import Mathlib.Tactic.SplitIfs
import SceneScript.Property

/-!
# Integers among the floating-point numbers

Every 32-bit integer is a binary64 number, and comparing two of them as floating-point numbers is
comparing them as integers. So the way through floating-point numbers that a value takes when it is
brought into a range changes nothing: what comes out is the nearest integer in the range.

* **`Format.round_exact`** — a number of the format is rounded to itself.
* **`Binary64.ofInt32_eq`** — a 32-bit integer as a number; **`Binary64.toInt32_ofInt32`** and
  **`Binary64.lt_ofInt32`** — it comes back, and the order is kept.
* **`Hint.clamp_int`** — an integer brought between two integers.
* **`Binary64.isFinite_single`** — single precision holds every 32-bit integer.
-/

namespace SceneScript

/-! ## Rounding -/

-- The large exponents are named, so that no power of their size is computed.

theorem stepsPerOne_pow : ∃ k, k = 1074 ∧ stepsPerOne = 2 ^ k := ⟨_, rfl, by decide +kernel⟩

theorem limit_binary64 : ∃ l, l = 2098 ∧ binary64.limit = 2 ^ l := ⟨_, rfl, by decide +kernel⟩

theorem limit_binary32 : ∃ l, l = 1202 ∧ binary32.limit = 2 ^ l := ⟨_, rfl, by decide +kernel⟩

theorem stepsPerOne_pos : 0 < stepsPerOne := by
  obtain ⟨k, -, hk⟩ := stepsPerOne_pow
  rw [hk]
  exact Nat.two_pow_pos k

theorem roundDiv_mul (q : Nat) {d : Nat} (hd : 0 < d) : roundDiv (q * d) d = q := by
  rw [roundDiv, Nat.mul_mod_left, Nat.mul_zero, Nat.mul_div_cancel q hd]
  exact if_pos hd

theorem roundDiv_le (num den : Nat) : roundDiv num den ≤ num / den + 1 := by
  rw [roundDiv]
  split_ifs <;> omega

namespace Format

/-- The steps between neighbours of the format at a magnitude. -/
def grid (f : Format) (num : Nat) : Nat := Nat.pow 2 (max f.grain (num.log2 + 1 - f.precision))

variable {f : Format} {num : Nat}

theorem grid_pos (f : Format) (num : Nat) : 0 < f.grid num := Nat.pow_pos (Nat.succ_pos 1)

theorem round_eq (f : Format) (negative : Bool) (num : Nat) :
    f.round negative num 1 =
      if f.limit ≤ roundDiv num (f.grid num) * f.grid num then .infinite negative
      else .finite negative (roundDiv num (f.grid num) * f.grid num) := by
  rw [round, Nat.div_one, Nat.one_mul]
  rfl

/-- A number of the format is rounded to itself. -/
theorem round_exact {k : Nat} (negative : Bool)
    (hgrid : max f.grain (num.log2 + 1 - f.precision) ≤ k) (hdvd : 2 ^ k ∣ num)
    (hlimit : num < f.limit) : f.round negative num 1 = .finite negative num := by
  obtain ⟨q, hq⟩ := Nat.dvd_trans (Nat.pow_dvd_pow 2 hgrid) hdvd
  have hsteps : roundDiv num (f.grid num) * f.grid num = num := by
    have hnum : q * f.grid num = num := (Nat.mul_comm _ _).trans hq.symm
    have hround := roundDiv_mul q (f.grid_pos num)
    rw [hnum] at hround
    rw [hround, hnum]
  rw [round_eq, hsteps, if_neg (Nat.not_le.mpr hlimit)]

/-- Neighbours are no further apart than their magnitude, but for the least ones. -/
theorem grid_le (hprecision : 0 < f.precision) (num : Nat) :
    f.grid num ≤ max (2 ^ f.grain) num := by
  have hshift : max f.grain (num.log2 + 1 - f.precision) ≤ max f.grain num.log2 :=
    max_le_max_left _ (by omega)
  refine (Nat.pow_le_pow_right (Nat.succ_pos 1) hshift).trans ?_
  rcases max_choice f.grain num.log2 with hmax | hmax
  · rw [hmax]
    exact le_max_left _ _
  · rw [hmax]
    by_cases hnum : num = 0
    · rw [hnum]
      exact le_max_of_le_left Nat.one_le_two_pow
    · exact le_max_of_le_right (Nat.log2_self_le hnum)

/-- What is well below the limit stays finite. -/
theorem round_isFinite (hprecision : 0 < f.precision) (negative : Bool)
    (hlimit : num + max (2 ^ f.grain) num < f.limit) :
    (f.round negative num 1).isFinite = true := by
  have hsteps : roundDiv num (f.grid num) * f.grid num ≤ num + f.grid num := by
    refine (Nat.mul_le_mul_right _ (roundDiv_le num _)).trans ?_
    rw [Nat.succ_mul]
    exact Nat.add_le_add_right (Nat.div_mul_le_self num _) _
  have hgrid := grid_le hprecision num
  rw [round_eq, if_neg (by omega)]
  rfl

end Format

/-! ## Integers -/

theorem natAbs_toInt_le (n : Int32) : n.toInt.natAbs ≤ 2 ^ 31 := by
  have hlower := Int32.le_toInt n
  have hupper := Int32.toInt_lt n
  omega

/-- A 32-bit integer has few steps. -/
theorem steps_lt (n : Int32) : ∃ k, k = 1106 ∧ n.toInt.natAbs * stepsPerOne < 2 ^ k := by
  obtain ⟨k, hk, hone⟩ := stepsPerOne_pow
  refine ⟨32 + k, by omega, ?_⟩
  rw [hone, Nat.pow_add]
  exact Nat.mul_lt_mul_of_pos_right ((natAbs_toInt_le n).trans_lt (by decide)) (Nat.two_pow_pos k)

namespace Format

variable {f : Format} {l : Nat}

/-- A format with enough bits has all 32-bit integers. -/
theorem round_int32 (hgrain : f.grain ≤ 1074) (hprecision : 32 ≤ f.precision)
    (hlimit : f.limit = 2 ^ l) (hl : 1106 ≤ l) (negative : Bool) (n : Int32) :
    f.round negative (n.toInt.natAbs * stepsPerOne) 1 =
      .finite negative (n.toInt.natAbs * stepsPerOne) := by
  obtain ⟨k, hk, hone⟩ := stepsPerOne_pow
  obtain ⟨s, hs, hsteps⟩ := steps_lt n
  have hlog : (n.toInt.natAbs * stepsPerOne).log2 < s := by
    by_cases hzero : n.toInt.natAbs * stepsPerOne = 0
    · rw [hzero, Nat.log2_zero]
      omega
    · exact (Nat.log2_lt hzero).mpr hsteps
  have hdvd : 2 ^ k ∣ n.toInt.natAbs * stepsPerOne := hone ▸ Nat.dvd_mul_left _ _
  refine round_exact negative (max_le (by omega) (by omega)) hdvd ?_
  rw [hlimit]
  exact hsteps.trans_le (Nat.pow_le_pow_right (Nat.succ_pos 1) (by omega))

/-- A format with a limit beyond them has no 32-bit integer rounded to infinity. -/
theorem isFinite_int32 (hgrain : f.grain ≤ 1106) (hprecision : 0 < f.precision)
    (hlimit : f.limit = 2 ^ l) (hl : 1106 < l) (negative : Bool) (n : Int32) :
    (f.round negative (n.toInt.natAbs * stepsPerOne) 1).isFinite = true := by
  obtain ⟨s, hs, hsteps⟩ := steps_lt n
  have hleast : 2 ^ f.grain ≤ 2 ^ s := Nat.pow_le_pow_right (Nat.succ_pos 1) (by omega)
  have hbelow : 2 ^ s + 2 ^ s ≤ f.limit := by
    rw [hlimit, ← Nat.two_mul, ← Nat.pow_succ']
    exact Nat.pow_le_pow_right (Nat.succ_pos 1) (by omega)
  refine round_isFinite hprecision negative (lt_of_lt_of_le ?_ hbelow)
  exact Nat.add_lt_add_of_lt_of_le hsteps (max_le hleast hsteps.le)

end Format

namespace Binary64

/-- The steps of a 32-bit integer are counted exactly. -/
theorem ofInt32_eq (n : Int32) :
    ofInt32 n = .finite (decide (n.toInt < 0)) (n.toInt.natAbs * stepsPerOne) := by
  obtain ⟨l, hl, hlimit⟩ := limit_binary64
  have hgrain : binary64.grain ≤ 1074 := Nat.zero_le 1074
  have hprecision : 32 ≤ binary64.precision := by decide
  rw [ofInt32, ofInt, Format.round_int32 hgrain hprecision hlimit (by omega)]

theorem signed_ofInt (n : Int) (k : Nat) : signed (decide (n < 0)) (n.natAbs * k) = n * k := by
  rw [signed]
  by_cases hn : n < 0
  · rw [if_pos (decide_eq_true hn), Int.natCast_mul, ← Int.neg_mul,
      Int.ofNat_natAbs_of_nonpos hn.le,
      Int.neg_neg]
  · rw [if_neg (by simpa using hn), Int.natCast_mul, Int.natAbs_of_nonneg (not_lt.mp hn)]

theorem toInt32_ofInt32 (n : Int32) : (ofInt32 n).toInt32 = n := by
  have hsigned := signed_ofInt n.toInt 1
  rw [Nat.mul_one, Int.natCast_one, Int.mul_one] at hsigned
  rw [toInt32, ofInt32_eq, truncate, Nat.mul_div_cancel _ stepsPerOne_pos, hsigned,
    Int32.ofInt_toInt]

theorem ofInt32_injective {m n : Int32} (h : ofInt32 m = ofInt32 n) : m = n := by
  rw [← toInt32_ofInt32 m, h, toInt32_ofInt32]

theorem lt_ofInt32 (m n : Int32) : (ofInt32 m).lt (ofInt32 n) = decide (m.toInt < n.toInt) := by
  have hpos : (0 : Int) < stepsPerOne := Int.natCast_pos.mpr stepsPerOne_pos
  rw [ofInt32_eq, ofInt32_eq, lt, signed_ofInt, signed_ofInt]
  exact decide_eq_decide.mpr (Int.mul_lt_mul_right hpos)

theorem ofInt32_ne_nan (n : Int32) : ofInt32 n ≠ .nan := by
  rw [ofInt32_eq]
  exact Binary64.noConfusion

/-- The larger of two integers. -/
theorem max_ofInt32 (m n : Int32) :
    ∃ k, (ofInt32 m).max (ofInt32 n) = ofInt32 k ∧ k.toInt = Max.max m.toInt n.toInt := by
  rw [max, if_neg (by simp [ofInt32_ne_nan]), lt_ofInt32, lt_ofInt32]
  by_cases hlt : m.toInt < n.toInt
  · exact ⟨n, if_pos (decide_eq_true hlt), by omega⟩
  by_cases hgt : n.toInt < m.toInt
  · refine ⟨m, ?_, by omega⟩
    rw [if_neg (by simpa using hlt), if_pos (decide_eq_true hgt)]
  · have hsame : m = n := Int32.toInt_inj.mp (by omega)
    subst hsame
    refine ⟨m, ?_, by omega⟩
    simp

/-- The smaller of two integers. -/
theorem min_ofInt32 (m n : Int32) :
    ∃ k, (ofInt32 m).min (ofInt32 n) = ofInt32 k ∧ k.toInt = Min.min m.toInt n.toInt := by
  rw [min, if_neg (by simp [ofInt32_ne_nan]), lt_ofInt32, lt_ofInt32]
  by_cases hlt : m.toInt < n.toInt
  · exact ⟨m, if_pos (decide_eq_true hlt), by omega⟩
  by_cases hgt : n.toInt < m.toInt
  · refine ⟨n, ?_, by omega⟩
    rw [if_neg (by simpa using hlt), if_pos (decide_eq_true hgt)]
  · have hsame : m = n := Int32.toInt_inj.mp (by omega)
    subst hsame
    refine ⟨m, ?_, by omega⟩
    simp

/-- A 32-bit integer in single precision may be rounded, and it is finite. -/
theorem isFinite_single (n : Int32) : (ofInt32 n).toSingle.isFinite = true := by
  obtain ⟨l, hl, hlimit⟩ := limit_binary32
  rw [ofInt32_eq, toSingle]
  exact Format.isFinite_int32 (by decide) (by decide) hlimit (by omega) _ n

end Binary64

/-- An integer brought between two integers, through floating-point numbers and back. -/
theorem Hint.clamp_int (a b n : Int32) (step : Binary64) :
    ∃ m, (Hint.range (.ofInt32 a) (.ofInt32 b) step).clamp (.int n) = .int m ∧
      m.toInt = min b.toInt (max a.toInt n.toInt) := by
  obtain ⟨k, hk, hkmax⟩ := Binary64.max_ofInt32 a n
  obtain ⟨m, hm, hmmin⟩ := Binary64.min_ofInt32 b k
  refine ⟨m, ?_, by rw [hmmin, hkmax]⟩
  rw [clamp, hk, hm, Value.ofInteger, Binary64.toInt32_ofInt32]

end SceneScript
