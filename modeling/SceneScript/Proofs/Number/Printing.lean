import Mathlib.Data.List.Basic
import Mathlib.Tactic.IntervalCases
import SceneScript.Number.Numeral
import SceneScript.Proofs.Number.Shortest

/-!
# The text of a number reads back

Whatever way the digits of a decimal are laid out, the text is read as a decimal of the same value:
the zeros that fill places before the point are in the digits then and not in the exponent, and
nothing else is different. So the text of a finite number is read as that number, but for the zero
with a sign, which is written without it.

* **`numeralChars`** — the characters of these texts.
* **`Spells`** — characters that are read as a decimal of a certain value.
* **`spells_write`** — the digits of a decimal laid out.
* **`readNumber_numberText`** — the text of a number reads back.
-/

namespace SceneScript

/-! ## Characters -/

/-- The digits. -/
def digitChars : List Char := ['0', '1', '2', '3', '4', '5', '6', '7', '8', '9']

/-- The characters that the text of a number may have. -/
def numeralChars : List Char := digitChars ++ ['.', 'e', '+', '-']

theorem mem_digitChars {c : Char} (h : c.isDigit = true) : c ∈ digitChars := by
  have hbounds : 48 ≤ c.toNat ∧ c.toNat ≤ 57 := by
    simpa [Char.isDigit, UInt32.le_iff_toNat_le] using h
  obtain ⟨hlower, hupper⟩ := hbounds
  rw [← Char.ofNat_toNat c]
  interval_cases c.toNat <;> decide

theorem digit_mem_numeralChars {c : Char} (h : c ∈ digitChars) : c ∈ numeralChars :=
  List.mem_append_left _ h

/-- What a check of all items has shown. Characters are finitely many, and `decide` would go through
    all of them where a list of them is meant. -/
theorem forall_of_all {α : Type} {p : α → Prop} [DecidablePred p] {xs : List α}
    (h : (xs.all fun x => decide (p x)) = true) : ∀ x ∈ xs, p x := fun x hx =>
  of_decide_eq_true (List.all_eq_true.mp h x hx)

theorem isDigitUnit_digit : ∀ c ∈ digitChars, isDigitUnit (unitOf c) = true :=
  forall_of_all (by decide)

theorem toNat_unitOf_digit : ∀ c ∈ digitChars, (unitOf c).toNat = c.toNat :=
  forall_of_all (by decide)

theorem isBlank_numeral : ∀ c ∈ numeralChars, isBlank (unitOf c) = false :=
  forall_of_all (by decide)

theorem encodeChar_numeral : ∀ c ∈ numeralChars, encodeChar c = [unitOf c] :=
  forall_of_all (by decide)

/-- The units of marks of bases, of the first letter of `Infinity` and of the comma. -/
def foreignUnits : List UInt16 := [0x78, 0x58, 0x6F, 0x4F, 0x62, 0x42, 0x49, 0x2C]

theorem unitOf_numeral_notMem : ∀ c ∈ numeralChars, unitOf c ∉ foreignUnits :=
  forall_of_all (by decide)

/-- Characters of numbers have one unit each. -/
theorem Text.ofString_numeral {s : String} (h : ∀ c ∈ s.toList, c ∈ numeralChars) :
    Text.ofString s = ⟨s.toList.map unitOf⟩ := by
  rw [ofString, List.map_eq_flatMap]
  exact congrArg Text.mk (List.flatMap_congr fun c hc => encodeChar_numeral c (h c hc))

/-! ## Digits -/

theorem mem_decimalDigits {c : Char} {n : Nat} (h : c ∈ decimalDigits n) : c ∈ digitChars :=
  mem_digitChars (Nat.isDigit_of_mem_toDigits (by decide) (by decide) h)

theorem decimalDigits_ne_nil (n : Nat) : decimalDigits n ≠ [] := Nat.toDigits_ne_nil

/-- Digits are read as their value. -/
theorem decimalValue_map {cs : List Char} (h : ∀ c ∈ cs, c ∈ digitChars) :
    decimalValue (cs.map unitOf) = Nat.ofDigitChars 10 cs 0 := by
  rw [decimalValue, Nat.ofDigitChars, List.foldl_map]
  refine List.foldl_ext _ _ 0 fun n c hc => ?_
  rw [toNat_unitOf_digit c (h c hc), Nat.mul_comm]
  rfl

theorem ofDigitChars_decimalDigits (n : Nat) : Nat.ofDigitChars 10 (decimalDigits n) 0 = n :=
  Nat.ofDigitChars_toDigits (by decide) (by decide)

theorem decimalValue_decimalDigits (n : Nat) :
    decimalValue ((decimalDigits n).map unitOf) = n := by
  rw [decimalValue_map fun c => mem_decimalDigits, ofDigitChars_decimalDigits]

theorem mem_zeros {c : Char} {k : Nat} (h : c ∈ List.replicate k '0') : c ∈ digitChars :=
  List.eq_of_mem_replicate h ▸ List.mem_cons_self

/-- Zeros before the digits do not count. -/
theorem decimalValue_zeros_digits (k n : Nat) :
    decimalValue ((List.replicate k '0' ++ decimalDigits n).map unitOf) = n := by
  have hdigits : ∀ c ∈ List.replicate k '0' ++ decimalDigits n, c ∈ digitChars :=
    List.forall_mem_append.mpr ⟨fun _ => mem_zeros, fun _ => mem_decimalDigits⟩
  rw [decimalValue_map hdigits, Nat.ofDigitChars_append, Nat.ofDigitChars_replicate_zero,
    Nat.mul_zero, ofDigitChars_decimalDigits]

/-- Zeros behind the digits are powers of ten. -/
theorem decimalValue_digits_zeros (n k : Nat) :
    decimalValue ((decimalDigits n ++ List.replicate k '0').map unitOf) = n * 10 ^ k := by
  have hdigits : ∀ c ∈ decimalDigits n ++ List.replicate k '0', c ∈ digitChars :=
    List.forall_mem_append.mpr ⟨fun _ => mem_decimalDigits, fun _ => mem_zeros⟩
  rw [decimalValue_map hdigits, Nat.ofDigitChars_append, Nat.ofDigitChars_replicate_zero,
    ofDigitChars_decimalDigits, Nat.mul_comm]

/-! ## Texts that are read as decimals -/

section Until

variable {α : Type} {p : α → Bool} {xs rest : List α}

/-- The items up to the first that is not of a kind. -/
theorem takeWhile_until (hxs : ∀ x ∈ xs, p x = true) (hrest : ∀ x ∈ rest.head?, p x = false) :
    (xs ++ rest).takeWhile p = xs := by
  rw [List.takeWhile_append_of_pos hxs]
  cases rest with
  | nil => exact List.append_nil xs
  | cons x rest => rw [List.takeWhile_cons_of_neg (by simpa using hrest x rfl), List.append_nil]

/-- The items from the first that is not of a kind. -/
theorem dropWhile_until (hxs : ∀ x ∈ xs, p x = true) (hrest : ∀ x ∈ rest.head?, p x = false) :
    (xs ++ rest).dropWhile p = rest := by
  rw [List.dropWhile_append_of_pos hxs]
  cases rest with
  | nil => rfl
  | cons x rest => exact List.dropWhile_cons_of_neg (by simpa using hrest x rfl)

end Until

/-- Characters that are read as the exponent of a decimal. -/
structure SpellsExponent (tail : List Char) (e : Int) : Prop where
  numeral : ∀ c ∈ tail, c ∈ numeralChars
  head    : ∀ c ∈ tail.head?, c = 'e'
  value   : readExponent (tail.map unitOf) = some e

/-- Characters that are read as a decimal with the value of this one. -/
structure Spells (cs : List Char) (d : Decimal) : Prop where
  numeral : ∀ c ∈ cs, c ∈ numeralChars
  head    : ∃ c ∈ digitChars, cs.head? = some c
  value   : ∃ d' : Decimal, readDecimal (cs.map unitOf) = some d' ∧
    ∀ negative, d'.toBinary64 negative = d.toBinary64 negative

namespace SpellsExponent

variable {tail : List Char} {e : Int}

theorem nil : SpellsExponent [] 0 :=
  ⟨fun _ hc => absurd hc List.not_mem_nil, fun c hc => absurd hc (Option.not_mem_none c), rfl⟩

/-- An exponent behind its mark and its sign. -/
theorem mark (e : Int) :
    SpellsExponent ('e' :: (if e < 0 then '-' else '+') :: decimalDigits e.natAbs) e where
  numeral := by
    intro c hc
    rcases List.mem_cons.mp hc with rfl | hc
    · decide
    rcases List.mem_cons.mp hc with rfl | hc
    · split <;> decide
    · exact digit_mem_numeralChars (mem_decimalDigits hc)
  head := fun c hc => (Option.some.inj hc).symm
  value := by
    obtain ⟨us, hus⟩ : ∃ us, us = (decimalDigits e.natAbs).map unitOf := ⟨_, rfl⟩
    have hall : us.all isDigitUnit = true := by
      rw [hus, List.all_map, List.all_eq_true]
      exact fun c hc => isDigitUnit_digit c (mem_decimalDigits hc)
    have hsome : us.isEmpty = false := by simpa [hus] using decimalDigits_ne_nil e.natAbs
    have hvalue : decimalValue us = e.natAbs := hus ▸ decimalValue_decimalDigits e.natAbs
    have hread : ∀ sign negative, splitSign (unitOf sign :: us) = (negative, us) →
        readExponent (unitOf 'e' :: unitOf sign :: us) =
          some (if negative then -(e.natAbs : Int) else e.natAbs) := by
      intro sign negative hsplit
      have hmark : unitOf 'e' = 0x65 := rfl
      simp [readExponent, hmark, hsplit, hall, hsome, hvalue]
    rw [List.map_cons, List.map_cons, ← hus]
    split_ifs with hsign
    · rw [hread '-' true rfl]
      exact congrArg some (Int.ofNat_natAbs_of_nonpos hsign.le ▸ Int.neg_neg e)
    · rw [hread '+' false rfl]
      exact congrArg some (Int.natAbs_of_nonneg (Int.not_lt.mp hsign))

/-- What begins an exponent is neither a digit nor a point. -/
theorem head_unit (h : SpellsExponent tail e) :
    ∀ u ∈ (tail.map unitOf).head?, isDigitUnit u = false ∧ u ≠ 0x2E := by
  intro u hu
  rw [List.head?_map] at hu
  obtain ⟨c, hc, rfl⟩ := Option.map_eq_some_iff.mp hu
  rw [h.head c hc]
  decide

end SpellsExponent

section Reading

variable {whole fraction tail : List Char} {e : Int}

theorem isDigitUnit_map (hwhole : ∀ c ∈ whole, c ∈ digitChars) :
    ∀ u ∈ whole.map unitOf, isDigitUnit u = true := by
  intro u hu
  obtain ⟨c, hc, rfl⟩ := List.mem_map.mp hu
  exact isDigitUnit_digit c (hwhole c hc)

/-- Digits and an exponent. -/
theorem readDecimal_integer (hwhole : ∀ c ∈ whole, c ∈ digitChars) (hne : whole ≠ [])
    (htail : SpellsExponent tail e) :
    readDecimal ((whole ++ tail).map unitOf) = some ⟨decimalValue (whole.map unitOf), e⟩ := by
  have hdigits := isDigitUnit_map hwhole
  have hstop := fun u hu => (htail.head_unit u hu).1
  have hpoint := fun u hu => (htail.head_unit u hu).2
  have hvalue := htail.value
  have hempty : (whole.map unitOf).isEmpty = false := by simpa using hne
  rw [List.map_append, readDecimal, takeWhile_until hdigits hstop, dropWhile_until hdigits hstop]
  cases hunits : tail.map unitOf with
  | nil =>
      rw [hunits] at hvalue
      simp [hempty, hvalue]
  | cons u more =>
      rw [hunits] at hvalue hpoint
      simp [hempty, hvalue, hpoint u rfl]

/-- Digits, a point, digits and an exponent. -/
theorem readDecimal_fraction (hwhole : ∀ c ∈ whole, c ∈ digitChars) (hne : whole ≠ [])
    (hfraction : ∀ c ∈ fraction, c ∈ digitChars) (htail : SpellsExponent tail e) :
    readDecimal ((whole ++ '.' :: (fraction ++ tail)).map unitOf) =
      some ⟨decimalValue ((whole ++ fraction).map unitOf), e - fraction.length⟩ := by
  have hdigits := isDigitUnit_map hwhole
  have hmore := isDigitUnit_map hfraction
  have hstop := fun u hu => (htail.head_unit u hu).1
  have hempty : (whole.map unitOf).isEmpty = false := by simpa using hne
  have hpoint : ∀ u ∈ (unitOf '.' :: (fraction ++ tail).map unitOf).head?, isDigitUnit u = false :=
    fun u hu => by
      cases hu
      decide
  have hdot : unitOf '.' = 0x2E := rfl
  rw [List.map_append, List.map_cons, readDecimal, takeWhile_until hdigits hpoint,
    dropWhile_until hdigits hpoint, List.map_append]
  simp only [hdot, if_true, takeWhile_until hmore hstop, dropWhile_until hmore hstop, hempty,
    htail.value, Bool.false_and, Bool.false_eq_true, if_false, List.length_map, List.map_append]
  rfl

end Reading

namespace Spells

variable {d : Decimal} {e : Int} {cs whole fraction tail : List Char}

theorem head_digits (hwhole : ∀ c ∈ whole, c ∈ digitChars) (hne : whole ≠ []) (more : List Char) :
    ∃ c ∈ digitChars, (whole ++ more).head? = some c := by
  obtain ⟨c, rest, rfl⟩ := List.exists_cons_of_ne_nil hne
  exact ⟨c, hwhole c List.mem_cons_self, rfl⟩

/-- Digits without a point. -/
theorem integer (hwhole : ∀ c ∈ whole, c ∈ digitChars) (hne : whole ≠ [])
    (htail : SpellsExponent tail e)
    (hvalue : ∀ negative, Decimal.toBinary64 negative ⟨decimalValue (whole.map unitOf), e⟩ =
      d.toBinary64 negative) : Spells (whole ++ tail) d where
  numeral := by
    intro c hc
    rcases List.mem_append.mp hc with hc | hc
    · exact digit_mem_numeralChars (hwhole c hc)
    · exact htail.numeral c hc
  head := head_digits hwhole hne tail
  value := ⟨_, readDecimal_integer hwhole hne htail, hvalue⟩

/-- Digits with a point among them. -/
theorem point (hwhole : ∀ c ∈ whole, c ∈ digitChars) (hne : whole ≠ [])
    (hfraction : ∀ c ∈ fraction, c ∈ digitChars) (htail : SpellsExponent tail e)
    (hdigits : decimalValue ((whole ++ fraction).map unitOf) = d.digits)
    (hexponent : e - fraction.length = d.exponent) :
    Spells (whole ++ '.' :: (fraction ++ tail)) d where
  numeral := by
    intro c hc
    rcases List.mem_append.mp hc with hc | hc
    · exact digit_mem_numeralChars (hwhole c hc)
    rcases List.mem_cons.mp hc with rfl | hc
    · decide
    rcases List.mem_append.mp hc with hc | hc
    · exact digit_mem_numeralChars (hfraction c hc)
    · exact htail.numeral c hc
  head := head_digits hwhole hne _
  value := ⟨_, readDecimal_fraction hwhole hne hfraction htail, fun negative => by
    rw [hdigits, hexponent]⟩

end Spells

/-! ## Layouts -/

theorem toList_exponent (e : Int) :
    (plainLayout.mark ++ (if e < 0 then "-" else plainLayout.plus) ++
      String.ofList (decimalDigits e.natAbs)).toList =
      'e' :: (if e < 0 then '-' else '+') :: decimalDigits e.natAbs := by
  rw [String.toList_append, String.toList_append, String.toList_ofList]
  split <;> rfl

theorem toList_zeros (cs : List Char) (k : Nat) :
    ("0." ++ String.ofList (List.replicate k '0' ++ cs)).toList =
      ['0'] ++ '.' :: (List.replicate k '0' ++ cs ++ []) := by
  rw [String.toList_append, String.toList_ofList, String.toList_ofList, List.append_nil]
  rfl

/-- The digits of a decimal, laid out, are read as a decimal of its value. -/
theorem spells_write (d : Decimal) : Spells (plainLayout.write d).toList d := by
  have hdigits : ∀ c ∈ decimalDigits d.digits, c ∈ digitChars := fun _ => mem_decimalDigits
  have hne := decimalDigits_ne_nil d.digits
  have hvalue := decimalValue_decimalDigits d.digits
  obtain ⟨place, hplace⟩ : ∃ place, place = ((decimalDigits d.digits).length : Int) + d.exponent :=
    ⟨_, rfl⟩
  rw [Layout.write]
  dsimp only
  rw [← hplace]
  by_cases hinteger : (decimalDigits d.digits).length ≤ place ∧ place ≤ plainLayout.last
  · -- zeros up to the point
    rw [if_pos hinteger, String.toList_ofList, ← List.append_nil (_ ++ _)]
    refine .integer (List.forall_mem_append.mpr ⟨hdigits, fun _ => mem_zeros⟩)
      (List.append_ne_nil_of_left_ne_nil hne _) .nil fun negative => ?_
    rw [decimalValue_digits_zeros, Decimal.toBinary64_zeros]
    exact congrArg (fun e => Decimal.toBinary64 negative ⟨d.digits, e⟩) (by omega)
  rw [if_neg hinteger]
  by_cases hmiddle : 0 < place ∧ place ≤ plainLayout.last
  · -- the point is among the digits
    rw [if_pos hmiddle, String.toList_ofList, ← List.append_nil (List.drop _ _)]
    refine .point (fun c hc => hdigits c (List.mem_of_mem_take hc)) ?_
      (fun c hc => hdigits c (List.mem_of_mem_drop hc)) .nil ?_ ?_
    · rw [ne_eq, List.take_eq_nil_iff, not_or]
      exact ⟨by omega, hne⟩
    · rw [List.take_append_drop, hvalue]
    · rw [List.length_drop]
      omega
  rw [if_neg hmiddle]
  by_cases hsmall : plainLayout.first < place ∧ place ≤ 0
  · -- zeros behind the point
    rw [if_pos hsmall, toList_zeros]
    refine .point (List.forall_mem_singleton.mpr (by decide)) (List.cons_ne_nil _ _)
      (List.forall_mem_append.mpr ⟨fun _ => mem_zeros, hdigits⟩) .nil ?_ ?_
    · exact decimalValue_zeros_digits ((-place).toNat + 1) d.digits
    · rw [List.length_append, List.length_replicate]
      omega
  -- an exponent, behind one digit or behind a fraction
  rw [if_neg hsmall]
  obtain ⟨c, more, hcons⟩ := List.exists_cons_of_ne_nil hne
  rw [hcons] at hdigits hvalue hplace ⊢
  have hfirst : ∀ a ∈ [c], a ∈ digitChars :=
    List.forall_mem_singleton.mpr (hdigits c List.mem_cons_self)
  cases more with
  | nil =>
      dsimp only
      rw [String.toList_append, String.toList_ofList, toList_exponent]
      refine .integer hfirst (List.cons_ne_nil c []) (.mark (place - 1)) fun negative => ?_
      rw [hvalue]
      rw [List.length_singleton] at hplace
      exact congrArg (fun e => Decimal.toBinary64 negative ⟨d.digits, e⟩) (by omega)
  | cons a more =>
      dsimp only
      rw [String.toList_append, String.toList_ofList, toList_exponent]
      rw [List.length_cons] at hplace
      have hspelled := Spells.point hfirst (List.cons_ne_nil c [])
        (fun b hb => hdigits b (List.mem_cons_of_mem c hb)) (.mark (place - 1)) hvalue (by omega)
      exact hspelled

/-! ## Numbers -/

theorem trim_eq {us : List UInt16} (h : ∀ u ∈ us, isBlank u = false) : Text.trim ⟨us⟩ = ⟨us⟩ := by
  have hkeep : ∀ vs : List UInt16, (∀ v ∈ vs, isBlank v = false) → vs.dropWhile isBlank = vs := by
    intro vs hvs
    cases vs with
    | nil => rfl
    | cons v vs => exact List.dropWhile_cons_of_neg (by simp [hvs v List.mem_cons_self])
  rw [Text.trim, dropTrailing, hkeep us h, hkeep us.reverse (by simpa using h),
    List.reverse_reverse]

/-- No base is marked in the text of a decimal. -/
theorem readPrefixed_numeral {cs : List Char} (h : ∀ c ∈ cs, c ∈ numeralChars) :
    readPrefixed (cs.map unitOf) = none := by
  match cs with
  | [] => rfl
  | [c] => rfl
  | c :: mark :: more =>
      have hmark := unitOf_numeral_notMem mark (h mark (List.mem_cons_of_mem c List.mem_cons_self))
      simp only [foreignUnits, List.mem_cons, not_or] at hmark
      obtain ⟨hx, hX, ho, hO, hb, hB, -⟩ := hmark
      simp [readPrefixed, hx, hX, ho, hO, hb, hB]

theorem numeral_ne_infinity {cs : List Char} (h : ∀ c ∈ cs, c ∈ numeralChars) :
    cs.map unitOf ≠ (Text.ofString "Infinity").units := by
  intro heq
  have hmem : unitOf 'I' ∈ cs.map unitOf := by
    rw [heq]
    decide
  obtain ⟨c, hc, hunit⟩ := List.mem_map.mp hmem
  refine unitOf_numeral_notMem c (h c hc) ?_
  rw [hunit]
  decide

/-- What stands before the digits of a number. -/
def signChars (negative : Bool) : List Char := if negative then ['-'] else []

theorem sign_numeral {cs : List Char} (h : ∀ c ∈ cs, c ∈ numeralChars) (negative : Bool) :
    ∀ c ∈ signChars negative ++ cs, c ∈ numeralChars := by
  refine List.forall_mem_append.mpr ⟨?_, h⟩
  cases negative with
  | true => exact List.forall_mem_singleton.mpr (by decide)
  | false => exact fun c hc => absurd hc List.not_mem_nil

theorem splitSign_digit {c : Char} (hc : c ∈ digitChars) (negative : Bool) (rest : List Char) :
    splitSign ((signChars negative ++ c :: rest).map unitOf) =
      (negative, (c :: rest).map unitOf) := by
  have hsign : ∀ a ∈ digitChars, unitOf a ≠ 0x2D ∧ unitOf a ≠ 0x2B := forall_of_all (by decide)
  obtain ⟨hminus, hplus⟩ := hsign c hc
  cases negative with
  | true => rfl
  | false => exact (if_neg hminus).trans (if_neg hplus)

/-- Characters that are read as a decimal are read as a number, behind a sign or without one. -/
theorem Spells.readNumber_eq {cs : List Char} {d : Decimal} (h : Spells cs d) (negative : Bool) :
    readNumber ⟨(signChars negative ++ cs).map unitOf⟩ = d.toBinary64 negative := by
  obtain ⟨c, hdigit, hhead⟩ := h.head
  obtain ⟨d', hread, hvalue⟩ := h.value
  obtain ⟨rest, rfl⟩ : ∃ rest, cs = c :: rest := ⟨_, List.eq_cons_of_mem_head? hhead⟩
  have hnumeral := sign_numeral h.numeral negative
  have hblank : ∀ u ∈ (signChars negative ++ c :: rest).map unitOf, isBlank u = false := by
    intro u hu
    obtain ⟨a, ha, rfl⟩ := List.mem_map.mp hu
    exact isBlank_numeral a (hnumeral a ha)
  have hsome : ((signChars negative ++ c :: rest).map unitOf).isEmpty = false := by
    cases negative <;> rfl
  rw [readNumber, trim_eq hblank]
  simp only [hsome, Bool.false_eq_true, if_false, readPrefixed_numeral hnumeral,
    splitSign_digit hdigit, if_neg (numeral_ne_infinity h.numeral), hread, hvalue]

theorem toList_numberText {n : Nat} (hn : n ≠ 0) (s : Bool) :
    (numberText (.finite s n)).toList =
      signChars s ++ (plainLayout.write (shortest n)).toList := by
  rw [numberText, if_neg hn, String.toList_append]
  cases s <;> rfl

/-- The text of a finite number has no characters but those of numbers. -/
theorem numberText_numeral (s : Bool) (n : Nat) :
    ∀ c ∈ (numberText (.finite s n)).toList, c ∈ numeralChars := by
  by_cases hn : n = 0
  · rw [numberText, if_pos hn]
    exact List.forall_mem_singleton.mpr (by decide)
  · rw [toList_numberText hn]
    exact sign_numeral (spells_write _).numeral s

/-- The text of a finite number is read as that number; a zero loses its sign. -/
theorem readNumber_numberText {n : Nat} (hholds : binary64.Holds n) (s : Bool) :
    readNumber (numberText (.finite s n)) = .finite (s && n != 0) n := by
  by_cases hn : n = 0
  · rw [numberText, if_pos hn, hn, bne_self_eq_false, Bool.and_false]
    decide +kernel
  · rw [Text.ofString_numeral (numberText_numeral s n), toList_numberText hn,
      (spells_write _).readNumber_eq, shortest_toBinary64 (Nat.pos_of_ne_zero hn) hholds,
      bne_iff_ne.mpr hn, Bool.and_true]

end SceneScript
