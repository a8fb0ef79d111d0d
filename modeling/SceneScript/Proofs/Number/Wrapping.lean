import SceneScript.Proofs.Number.Rounding

/-!
# Integer arithmetic by way of floating-point numbers

Sums, differences and quotients of 32-bit integers may be computed as binary64 numbers and brought
back to 32 bits afterwards, products by multiplying the operands as unsigned words. Each of these
ways leads to the exact result, reduced to 32 bits. Sums and differences are small enough to be
exact. A quotient is rounded, but two integers of 32 bits that do not divide have a quotient which
is further below the next integer than the rounding reaches, so cutting off its fraction gives what
cutting off the fraction of the exact quotient gives.

* **`Binary64.toInt32_add`**, **`toInt32_sub`**, **`toInt32_neg`** — sums and differences.
* **`Binary64.truncate_div`**, **`Binary64.toInt32_div`** — a quotient without its fraction.
* **`wordProduct_eq`** — the low 32 bits of a product.
-/

namespace SceneScript

namespace Binary64

/-! ## Sums -/

theorem signed_not (negative : Bool) (steps : Nat) :
    signed (!negative) steps = -signed negative steps := by
  cases negative <;> simp [signed]

theorem signed_zero (negative : Bool) : signed negative 0 = 0 := by
  cases negative <;> rfl

/-- Integers of up to 53 bits are binary64 numbers. -/
theorem round_integer (negative : Bool) {n : Nat} (hn : n < 2 ^ 53) :
    binary64.round negative (n * stepsPerOne) 1 = .finite negative (n * stepsPerOne) := by
  obtain ⟨k, hk, hone⟩ := stepsPerOne_pow
  obtain ⟨l, hl, hlimit⟩ := limit_binary64
  have hsteps : n * stepsPerOne < 2 ^ (k + 53) := by
    rw [hone, Nat.pow_add, Nat.mul_comm]
    exact Nat.mul_lt_mul_of_pos_left hn (Nat.two_pow_pos k)
  refine Format.round_of_holds negative ⟨?_, ?_⟩
  · have hgrid := Format.grid_dvd (f := binary64) (by decide) (Nat.zero_le k) hsteps
    exact hgrid.trans (hone ▸ Nat.dvd_mul_left _ _)
  · rw [hlimit]
    exact hsteps.trans_le (Nat.pow_le_pow_right (Nat.succ_pos 1) (by omega))

theorem truncate_integer (z : Int) :
    (Binary64.finite (decide (z < 0)) (z.natAbs * stepsPerOne)).truncate = z := by
  have hsigned := signed_ofInt z 1
  rw [Nat.mul_one, Int.natCast_one, Int.mul_one] at hsigned
  rw [truncate, Nat.mul_div_cancel _ stepsPerOne_pos, hsigned]

/-- The sum of two integers is exact while it has no more than 53 bits. -/
theorem truncate_add {s t : Bool} {m n : Nat} {p q : Int} (hm : signed s m = p * stepsPerOne)
    (hn : signed t n = q * stepsPerOne) (hsum : (p + q).natAbs < 2 ^ 53) :
    ((Binary64.finite s m).add (.finite t n)).truncate = p + q := by
  have hone : (0 : Int) < stepsPerOne := Int.natCast_pos.mpr stepsPerOne_pos
  have hsteps : signed s m + signed t n = (p + q) * stepsPerOne := by rw [hm, hn, Int.add_mul]
  have hsign : (p + q) * stepsPerOne < 0 ↔ p + q < 0 := by
    have hcancel := Int.mul_lt_mul_right (b := p + q) (c := 0) hone
    rwa [Int.zero_mul] at hcancel
  rw [add, hsteps]
  by_cases hzero : (p + q) * stepsPerOne = 0
  · rw [if_pos hzero, truncate, Nat.zero_div, signed_zero]
    exact ((Int.mul_eq_zero.mp hzero).resolve_right hone.ne').symm
  · rw [if_neg hzero, Int.natAbs_mul, Int.natAbs_natCast, round_integer _ hsum,
      decide_eq_decide.mpr hsign, truncate_integer]

theorem toInt32_add (m n : Int32) : ((ofInt32 m).add (ofInt32 n)).toInt32 = m + n := by
  have hm := natAbs_toInt_le m
  have hn := natAbs_toInt_le n
  rw [toInt32, ofInt32_eq, ofInt32_eq,
    truncate_add (signed_ofInt _ _) (signed_ofInt _ _) (by omega), Int32.ofInt_add,
    Int32.ofInt_toInt, Int32.ofInt_toInt]

theorem toInt32_sub (m n : Int32) : ((ofInt32 m).sub (ofInt32 n)).toInt32 = m - n := by
  have hm := natAbs_toInt_le m
  have hn := natAbs_toInt_le n
  have hneg : signed (!decide (n.toInt < 0)) (n.toInt.natAbs * stepsPerOne) =
      -n.toInt * stepsPerOne := by
    rw [signed_not, signed_ofInt, Int.neg_mul]
  rw [sub, toInt32, ofInt32_eq, ofInt32_eq, neg, truncate_add (signed_ofInt _ _) hneg (by omega),
    ← Int.sub_eq_add_neg, Int32.ofInt_sub, Int32.ofInt_toInt, Int32.ofInt_toInt]

theorem toInt32_neg (n : Int32) : (ofInt32 n).neg.toInt32 = -n := by
  have htruncate := truncate_integer n.toInt
  rw [truncate] at htruncate
  rw [toInt32, ofInt32_eq, neg, truncate, signed_not, htruncate, Int32.ofInt_neg, Int32.ofInt_toInt]

/-! ## Quotients -/

/-- The ratio of two integers is rounded by less than what separates it from the next integer. -/
theorem rounding_lt {m n : Nat} (hn : 0 < n) (hm : m < 2 ^ 32) (hn' : n < 2 ^ 32) :
    n * binary64.grid (m * stepsPerOne / n) < 2 * stepsPerOne := by
  obtain ⟨k, hk, hone⟩ := stepsPerOne_pow
  have hword : 2 ^ 32 ≤ stepsPerOne := hone ▸ Nat.pow_le_pow_right (Nat.succ_pos 1) (by omega)
  rcases Format.grid_cases (f := binary64) (by decide) (m * stepsPerOne / n) with hleast | hbits
  · rw [hleast, show binary64.grain = 0 from rfl]
    omega
  · have hword : n * (binary64.grid (m * stepsPerOne / n) * 2 ^ 52) < 2 ^ 32 * stepsPerOne := by
      refine ((Nat.mul_le_mul_left n hbits).trans (Nat.mul_div_le _ n)).trans_lt ?_
      exact Nat.mul_lt_mul_of_pos_right hm stepsPerOne_pos
    rw [← Nat.mul_assoc] at hword
    omega

/-- A ratio of integers is cut off at the same integer after it is rounded. -/
theorem round_ratio {m n : Nat} (negative : Bool) (hn : 0 < n) (hm : m < 2 ^ 32)
    (hn' : n < 2 ^ 32) : ∃ steps, binary64.round negative (m * stepsPerOne) n =
      .finite negative steps ∧ steps / stepsPerOne = m / n := by
  obtain ⟨k, hk, hone⟩ := stepsPerOne_pow
  obtain ⟨l, hl, hlimit⟩ := limit_binary64
  obtain ⟨grid, hgrid⟩ : ∃ g, g = binary64.grid (m * stepsPerOne / n) := ⟨_, rfl⟩
  have hrounding : n * grid < 2 * stepsPerOne := hgrid ▸ rounding_lt hn hm hn'
  have hpos : 0 < n * grid := Nat.mul_pos hn (hgrid ▸ Format.grid_pos _ _)
  obtain ⟨parts, hparts⟩ : grid ∣ stepsPerOne := by
    rw [hgrid, hone]
    refine Format.grid_dvd (by decide) (Nat.zero_le k) ((Nat.div_le_self _ n).trans_lt ?_)
    rw [Nat.pow_add, Nat.mul_comm m]
    exact Nat.mul_lt_mul_of_pos_left (hm.trans (by decide)) (Nat.two_pow_pos k)
  have hscale : ∀ q, q * parts * (n * grid) = q * n * stepsPerOne := fun q => by
    rw [hparts, Nat.mul_mul_mul_comm, Nat.mul_comm parts]
  have hlower : m / n * parts ≤ roundDiv (m * stepsPerOne) (n * grid) := by
    refine le_roundDiv hpos ?_
    rw [hscale]
    exact Nat.mul_le_mul_right _ (Nat.div_mul_le_self m n)
  have hupper : roundDiv (m * stepsPerOne) (n * grid) < (m / n + 1) * parts := by
    refine roundDiv_lt hpos ?_
    have hnext : (m + 1) * stepsPerOne ≤ (m / n + 1) * n * stepsPerOne :=
      Nat.mul_le_mul_right _ (Nat.lt_div_mul_add hn |>.trans_eq (Nat.succ_mul _ _).symm)
    rw [Nat.succ_mul m] at hnext
    rw [hscale]
    omega
  have hbetween : ∀ q, q * parts * grid = q * stepsPerOne := fun q => by
    rw [hparts, Nat.mul_assoc, Nat.mul_comm parts]
  have hsteps : roundDiv (m * stepsPerOne) (n * grid) * grid < (m / n + 1) * stepsPerOne := by
    rw [← hbetween (m / n + 1)]
    exact Nat.mul_lt_mul_of_pos_right hupper (hgrid ▸ Format.grid_pos _ _)
  refine ⟨roundDiv (m * stepsPerOne) (n * grid) * grid, ?_, ?_⟩
  · have hfinite : roundDiv (m * stepsPerOne) (n * grid) * grid < binary64.limit := by
      have hquotient := Nat.div_le_self m n
      refine hsteps.trans_le ?_
      rw [hlimit, hone]
      refine (Nat.mul_le_mul_right _ (show m / n + 1 ≤ 2 ^ 32 by omega)).trans ?_
      rw [← Nat.pow_add]
      exact Nat.pow_le_pow_right (Nat.succ_pos 1) (by omega)
    rw [Format.round_grid, ← hgrid, if_neg (Nat.not_le.mpr hfinite)]
  · refine Nat.div_eq_of_lt_le ?_ hsteps
    rw [← hbetween (m / n)]
    exact Nat.mul_le_mul_right grid hlower

/-- A quotient without its fraction, from the magnitudes and the signs. -/
theorem signed_div (p q : Int) :
    signed (decide (p < 0) != decide (q < 0)) (p.natAbs / q.natAbs) = p.tdiv q := by
  have hcast : ((p.natAbs / q.natAbs : Nat) : Int) = (p.natAbs : Int).tdiv q.natAbs := rfl
  rcases lt_or_ge p 0 with hp | hp <;> rcases lt_or_ge q 0 with hq | hq
  · rw [signed, hcast, Int.ofNat_natAbs_of_nonpos hp.le, Int.ofNat_natAbs_of_nonpos hq.le,
      Int.neg_tdiv, Int.tdiv_neg, Int.neg_neg]
    simp [hp, hq]
  · rw [signed, hcast, Int.ofNat_natAbs_of_nonpos hp.le, Int.natAbs_of_nonneg hq, Int.neg_tdiv]
    simp [hp, hq]
  · rw [signed, hcast, Int.natAbs_of_nonneg hp, Int.ofNat_natAbs_of_nonpos hq.le, Int.tdiv_neg]
    simp [hp, hq]
  · rw [signed, hcast, Int.natAbs_of_nonneg hp, Int.natAbs_of_nonneg hq]
    simp [hp.not_gt, hq.not_gt]

/-- The quotient of two integers without its fraction. -/
theorem truncate_div (m n : Int32) (hn : n ≠ 0) :
    ((ofInt32 m).div (ofInt32 n)).truncate = m.toInt.tdiv n.toInt := by
  have hm := natAbs_toInt_le m
  have hbound := natAbs_toInt_le n
  have hpos : 0 < n.toInt.natAbs := by
    refine Int.natAbs_pos.mpr fun hzero => hn (Int32.toInt_inj.mp ?_)
    rw [hzero]
    rfl
  obtain ⟨steps, hround, hsteps⟩ := round_ratio
    (decide (m.toInt < 0) != decide (n.toInt < 0)) hpos (by omega : m.toInt.natAbs < _) (by omega)
  rw [ofInt32_eq, ofInt32_eq, div, if_neg (Nat.mul_pos hpos stepsPerOne_pos).ne',
    Format.round_scale _ _ _ _ stepsPerOne_pos, hround, truncate, hsteps, signed_div]

theorem toInt32_div (m n : Int32) (hn : n ≠ 0) : ((ofInt32 m).div (ofInt32 n)).toInt32 = m / n := by
  rw [toInt32, truncate_div m n hn, Int32.ofInt_tdiv (Int32.minValue_le_toInt m)
    (Int32.toInt_le m) (Int32.minValue_le_toInt n) (Int32.toInt_le n), Int32.ofInt_toInt,
    Int32.ofInt_toInt]

end Binary64

/-! ## Products -/

/-- The low 32 bits of the product of two unsigned words, as a signed word. -/
def wordProduct (m n : Int32) : Int32 :=
  Int32.ofInt ((m.toUInt32.toNat * n.toUInt32.toNat : Nat) : Int)

theorem ofInt_toUInt32 (n : Int32) : Int32.ofInt n.toUInt32.toNat = n := by
  rw [Int32.ofInt, BitVec.ofInt_natCast]
  exact congrArg Int32.ofBitVec (BitVec.ofNat_toNat 32 n.toBitVec)

theorem wordProduct_eq (m n : Int32) : wordProduct m n = m * n := by
  rw [wordProduct, Int.natCast_mul, Int32.ofInt_mul, ofInt_toUInt32, ofInt_toUInt32]

end SceneScript
