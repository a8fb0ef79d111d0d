import SceneScript.Proofs.Number.Decimals

/-!
# The shortest digits of a number read back

The search for the shortest digits tries one digit, then one more, and looks each time whether the
decimal reads back. It gives up at seventeen digits without looking, and it need not look: a unit of
the seventeenth digit is less than a unit of the last bit, so the nearest decimal with as many
digits is too close to the number to be read as another one.

* **`Format.round_near`** — a ratio closer to a number than half a unit of its last bit.
* **`decimalPlace_reaches`** — the place of the first digit is not too high.
* **`shortest_toBinary64`** — the shortest digits read back.
-/

namespace SceneScript

/-! ## Close to a number of a format -/

theorem roundDiv_eq {a b c : Nat} (hb : 0 < b) (hle : 2 * a < 2 * (c * b) + b)
    (hge : 2 * (c * b) < 2 * a + b) : roundDiv a b = c := by
  have hnext (d : Nat) : (d + 1) * b = d * b + b := Nat.succ_mul d b
  have hround := le_roundDiv_mul a hb
  refine Nat.le_antisymm (Nat.le_of_lt_succ (roundDiv_lt hb ?_)) (Nat.le_of_lt_succ ?_)
  · rw [Nat.succ_eq_add_one, hnext]
    omega
  · refine Nat.lt_of_mul_lt_mul_right (a := b) ?_
    rw [Nat.succ_eq_add_one, hnext]
    omega

/-- Two different multiples are as far apart. -/
theorem add_le_of_dvd {g m n : Nat} (hm : g ∣ m) (hn : g ∣ n) (h : m < n) : m + g ≤ n := by
  have hgap := Nat.le_of_dvd (Nat.sub_pos_of_lt h) (Nat.dvd_sub hn hm)
  omega

namespace Format

variable {f : Format} {a b n u : Nat}

theorem lt_grid (f : Format) (num : Nat) : num < 2 ^ f.precision * f.grid num := by
  rw [grid, Nat.pow_eq, ← Nat.pow_add]
  exact Nat.lt_log2_self.trans_le (Nat.pow_le_pow_right (Nat.succ_pos 1) (by omega))

/-- Close to a number of the format, the distance between neighbours divides the number, and the
    number is not beyond the first that has a larger distance. -/
theorem grid_near (hprecision : 0 < f.precision) (hn : f.Holds n) (hb : 0 < b)
    (hle : 2 * a ≤ 2 * (n * b) + u) (hge : 2 * (n * b) ≤ 2 * a + u)
    (hsmall : 2 ^ f.precision * u < n * b) :
    f.grid (a / b) ∣ n ∧ n ≤ 2 ^ f.precision * f.grid (a / b) := by
  obtain ⟨k, hgrain, hk⟩ : ∃ k, f.grain ≤ k ∧ f.grid n = 2 ^ k := ⟨_, le_max_left _ _, rfl⟩
  obtain ⟨s, hs⟩ : ∃ s, 2 ^ f.precision * f.grid (a / b) = 2 ^ s := ⟨_, (Nat.pow_add 2 _ _).symm⟩
  have hdvd : 2 ^ k ∣ n := hk ▸ hn.1
  have hbelow : n < 2 ^ f.precision * 2 ^ k := hk ▸ f.lt_grid n
  have hunit : u < 2 ^ k * b := by
    refine Nat.lt_of_mul_lt_mul_left (a := 2 ^ f.precision) (hsmall.trans_le ?_)
    rw [← Nat.mul_assoc]
    exact Nat.mul_le_mul_right b hbelow.le
  constructor
  · have hnext : (n + 2 ^ k) * b ≤ 2 ^ f.precision * 2 ^ k * b :=
      Nat.mul_le_mul_right b (add_le_of_dvd hdvd (Nat.dvd_mul_left _ _) hbelow)
    refine Nat.dvd_trans (grid_dvd hprecision hgrain ?_) hdvd
    rw [Nat.pow_add, Nat.mul_comm (2 ^ k)]
    rw [Nat.add_mul] at hnext
    exact (Nat.div_lt_iff_lt_mul hb).mpr (by omega)
  · rw [hs]
    refine Nat.not_lt.mp fun hbeyond => ?_
    have hquotient : a < 2 ^ s * b := (Nat.div_lt_iff_lt_mul hb).mp (hs ▸ f.lt_grid (a / b))
    rcases Nat.lt_or_ge s k with hless | hmore
    · -- the number is at least twice as far out as the ratio
      have htwice : 2 * 2 ^ s ≤ n := by
        rw [← Nat.pow_succ']
        exact (Nat.pow_le_pow_right (Nat.succ_pos 1) hless).trans
          (Nat.le_of_dvd (by omega) hdvd)
      have htwice := Nat.mul_le_mul_right b htwice
      have hunit := Nat.le_mul_of_pos_left u (Nat.two_pow_pos f.precision)
      rw [Nat.mul_assoc] at htwice
      omega
    · -- the number is one distance behind the ratio
      have hgap := Nat.mul_le_mul_right b
        (add_le_of_dvd (Nat.pow_dvd_pow 2 hmore) hdvd hbeyond)
      rw [Nat.add_mul] at hgap
      omega

/-- A ratio that is closer to a number of the format than half a unit of its last bit is rounded
    to it. -/
theorem round_near (hprecision : 0 < f.precision) (hn : f.Holds n) (hb : 0 < b)
    (hle : 2 * a ≤ 2 * (n * b) + u) (hge : 2 * (n * b) ≤ 2 * a + u)
    (hsmall : 2 ^ f.precision * u < n * b) (negative : Bool) :
    f.round negative a b = .finite negative n := by
  obtain ⟨hdvd, htop⟩ := grid_near hprecision hn hb hle hge hsmall
  have hpos := f.grid_pos (a / b)
  rw [round_grid]
  generalize f.grid (a / b) = g at hdvd htop hpos
  obtain ⟨q, rfl⟩ := hdvd
  have hunit : u < b * g := by
    refine Nat.lt_of_mul_lt_mul_left (a := 2 ^ f.precision) (hsmall.trans_le ?_)
    rw [Nat.mul_comm b, ← Nat.mul_assoc]
    exact Nat.mul_le_mul_right b htop
  have hproduct : g * q * b = q * (b * g) := by
    rw [Nat.mul_right_comm, Nat.mul_comm, Nat.mul_comm b]
  rw [hproduct] at hle hge
  have hnearest : roundDiv a (b * g) = q :=
    roundDiv_eq (Nat.mul_pos hb hpos) (by omega) (by omega)
  rw [hnearest, Nat.mul_comm q, if_neg (Nat.not_le.mpr hn.2)]

end Format

/-! ## The place of the first digit -/

theorem reachesPowerOfTen_iff (steps : Nat) (k : Int) :
    reachesPowerOfTen steps k = true ↔
      10 ^ k.toNat * stepsPerOne ≤ steps * 10 ^ (-k).toNat := by
  rw [reachesPowerOfTen]
  split_ifs with hk
  · rw [decide_eq_true_iff, Nat.pow_eq, show (-k).toNat = 0 by omega, Nat.pow_zero, Nat.mul_one]
  · rw [decide_eq_true_iff, Nat.pow_eq, show k.toNat = 0 by omega, Nat.pow_zero, Nat.one_mul]

theorem inPowersOfTen_eq (steps : Nat) (k : Int) :
    inPowersOfTen steps k = (steps * 10 ^ (-k).toNat, stepsPerOne * 10 ^ k.toNat) := by
  rw [inPowersOfTen]
  split_ifs with hk
  · rw [Nat.pow_eq, show (-k).toNat = 0 by omega, Nat.pow_zero, Nat.mul_one]
  · rw [Nat.pow_eq, show k.toNat = 0 by omega, Nat.pow_zero, Nat.mul_one]

/-- The binary logarithm does not put the first digit too high. -/
theorem reachesPowerOfTen_log2 {steps : Nat} (hpos : 0 < steps) (hlimit : steps < binary64.limit) :
    reachesPowerOfTen steps (Int.fdiv (((steps.log2 : Int) - 1074) * 30103) 100000 - 1) = true := by
  obtain ⟨k, hk, hone⟩ := stepsPerOne_pow
  obtain ⟨l, hl, hl2⟩ := limit_binary64
  have hlog : steps.log2 < l := (Nat.log2_lt hpos.ne').mpr (hl2 ▸ hlimit)
  rw [Int.fdiv_eq_ediv_of_nonneg _ (by decide), reachesPowerOfTen_iff, hone]
  obtain ⟨g, hg⟩ : ∃ g, ((steps.log2 : Int) - 1074) * 30103 / 100000 = g := ⟨_, rfl⟩
  rw [hg]
  calc 10 ^ (g - 1).toNat * 2 ^ k
    _ ≤ 2 ^ (steps.log2 - k) * 2 ^ k :=
        Nat.mul_le_mul_right _ (ten_pow_le_two_pow (by omega))
    _ = 2 ^ steps.log2 * 2 ^ (k - steps.log2) := by
        rw [← Nat.pow_add, ← Nat.pow_add,
          show steps.log2 - k + k = steps.log2 + (k - steps.log2) by omega]
    _ ≤ steps * 10 ^ (-(g - 1)).toNat :=
        Nat.mul_le_mul (Nat.log2_self_le hpos.ne') (two_pow_le_ten_pow (by omega))

/-- The place of the first digit is not too high. -/
theorem decimalPlace_reaches {steps : Nat} (hpos : 0 < steps) (hlimit : steps < binary64.limit) :
    reachesPowerOfTen steps (decimalPlace steps - 1) = true := by
  have hlog := reachesPowerOfTen_log2 hpos hlimit
  rw [decimalPlace]
  split_ifs with hhigh hmiddle
  · rwa [show ∀ g : Int, g + 2 - 1 = g + 1 by omega]
  · rwa [Int.add_sub_cancel]
  · exact hlog

/-! ## Seventeen digits -/

theorem precision_lt : 2 ^ binary64.precision < 10 ^ 16 := by decide

/-- The nearest decimal with seventeen digits reads back. -/
theorem seventeen_readsBack {steps : Nat} {k : Int} (hn : binary64.Holds steps)
    (hk : reachesPowerOfTen steps (k - 1) = true) :
    readsBack steps ⟨roundDiv (inPowersOfTen steps (k - 17)).1 (inPowersOfTen steps (k - 17)).2,
      k - 17⟩ = true := by
  obtain ⟨e, he⟩ : ∃ e, e = k - 17 := ⟨_, rfl⟩
  rw [reachesPowerOfTen_iff, show k - 1 = e + 16 by omega] at hk
  rw [← he, inPowersOfTen_eq, readsBack, decide_eq_true_iff, Decimal.toBinary64_eq]
  have hten (i : Nat) : 0 < 10 ^ i := Nat.pow_pos (by decide)
  obtain ⟨u, hu⟩ : ∃ u, u = stepsPerOne * 10 ^ e.toNat := ⟨_, rfl⟩
  have hupos : 0 < u := hu ▸ Nat.mul_pos stepsPerOne_pos (hten _)
  have hunit (c : Nat) : c * 10 ^ e.toNat * stepsPerOne = c * u := by
    rw [hu, Nat.mul_assoc, Nat.mul_comm stepsPerOne]
  -- a unit of the last digit against the number
  have hdigit : 10 ^ 16 * u ≤ steps * 10 ^ (-e).toNat := by
    refine Nat.le_of_mul_le_mul_right (c := 10 ^ (-(e + 16)).toNat) ?_ (hten _)
    calc 10 ^ 16 * u * 10 ^ (-(e + 16)).toNat
      _ = 10 ^ (16 + e.toNat + (-(e + 16)).toNat) * stepsPerOne := by
          rw [hu, Nat.pow_add, Nat.pow_add, Nat.mul_comm stepsPerOne, ← Nat.mul_assoc,
            Nat.mul_right_comm _ stepsPerOne]
      _ = 10 ^ (e + 16).toNat * stepsPerOne * 10 ^ (-e).toNat := by
          rw [show 16 + e.toNat + (-(e + 16)).toNat = (e + 16).toNat + (-e).toNat by omega,
            Nat.pow_add, Nat.mul_right_comm]
      _ ≤ steps * 10 ^ (-(e + 16)).toNat * 10 ^ (-e).toNat := Nat.mul_le_mul_right _ hk
      _ = steps * 10 ^ (-e).toNat * 10 ^ (-(e + 16)).toNat := Nat.mul_right_comm _ _ _
  have hsmall : 2 ^ binary64.precision * u < steps * 10 ^ (-e).toNat :=
    (Nat.mul_lt_mul_of_pos_right precision_lt hupos).trans_le hdigit
  dsimp only
  rw [← hu, hunit]
  exact Format.round_near (by decide) hn (hten _) (roundDiv_mul_le _ hupos)
    (le_roundDiv_mul _ hupos) hsmall false

/-! ## The search -/

theorem neighbour?_readsBack {steps n : Nat} {k : Int} {d : Decimal}
    (h : neighbour? steps k n = some d) : readsBack steps d = true := by
  unfold neighbour? at h
  dsimp only at h
  split_ifs at h with hnearest hbelow habove
  · exact Option.some.inj h ▸ hnearest
  · exact Option.some.inj h ▸ hbelow
  · exact Option.some.inj h ▸ habove

/-- What the search gives reads back; at seventeen digits it need not look. -/
theorem shortestFrom_readsBack {steps : Nat} {k : Int} (hn : binary64.Holds steps)
    (hk : reachesPowerOfTen steps (k - 1) = true) :
    ∀ tries n : Nat, tries + n = 17 → readsBack steps (shortestFrom steps k tries n) = true := by
  intro tries
  induction tries with
  | zero =>
      intro n hcount
      rw [show n = 17 by omega, shortestFrom]
      exact seventeen_readsBack hn hk
  | succ tries ih =>
      intro n hcount
      rw [shortestFrom]
      cases hfound : neighbour? steps k n with
      | some d => exact neighbour?_readsBack hfound
      | none => exact ih (n + 1) (by omega)

/-- The shortest digits of a number read back, with either sign. -/
theorem shortest_toBinary64 {steps : Nat} (hpos : 0 < steps) (hn : binary64.Holds steps)
    (negative : Bool) : (shortest steps).toBinary64 negative = .finite negative steps := by
  have hsearch := shortestFrom_readsBack hn (decimalPlace_reaches hpos hn.2) 16 1 rfl
  rw [readsBack, decide_eq_true_iff] at hsearch
  rw [shortest, Decimal.toBinary64_stripZeros, Decimal.toBinary64_negative hsearch]

end SceneScript
