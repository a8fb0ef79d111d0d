import Mathlib.Data.List.Basic
import SceneScript.Text

/-!
# Texts as they are shown

A text is shown as a string, pairs of units as one character and halves of pairs as a mark. Nothing
is shown longer or shorter than it is, and texts that are shown alike, in characters below the halves
of pairs, are the same.

* **`eq_of_units_ofString`** — strings are told by their units, and so by the texts they are.
* **`length_ofString_toString`** — the width.
* **`Text.eq_of_toString`** — texts that are shown alike.
-/

namespace SceneScript

/-- A character has one unit, or two when it stands for a pair. -/
theorem length_encodeChar (c : Char) :
    (encodeChar c).length = if c.toNat < 0x10000 then 1 else 2 := by
  rw [encodeChar]
  split <;> rfl

/-- Characters below U+10000 have one unit each. -/
theorem units_ofString {s : String} (h : ∀ c ∈ s.toList, c.toNat < 0x10000) :
    (Text.ofString s).units = s.toList.map unitOf := by
  rw [Text.ofString, List.map_eq_flatMap]
  exact List.flatMap_congr fun c hc => if_pos (h c hc)

/-- A character below U+10000 is told by its unit. -/
theorem ofNat_unitOf {c : Char} (h : c.toNat < 0x10000) : Char.ofNat (unitOf c).toNat = c := by
  rw [unitOf, Nat.toUInt16_eq, UInt16.toNat_ofNat', Nat.mod_eq_of_lt h, Char.ofNat_toNat]

/-- So is a string of such characters by its units. -/
theorem eq_of_units_ofString {s t : String} (hs : ∀ c ∈ s.toList, c.toNat < 0x10000)
    (ht : ∀ c ∈ t.toList, c.toNat < 0x10000)
    (h : (Text.ofString s).units = (Text.ofString t).units) : s = t := by
  have hback : ∀ {l : List Char}, (∀ c ∈ l, c.toNat < 0x10000) →
      (l.map unitOf).map (fun u => Char.ofNat u.toNat) = l := by
    intro l hl
    rw [List.map_map]
    exact (List.map_congr_left fun c hc => ofNat_unitOf (hl c hc)).trans (List.map_id l)
  rw [units_ofString hs, units_ofString ht] at h
  exact String.toList_inj.mp ((hback hs).symm.trans ((congrArg _ h).trans (hback ht)))

/-- A half of a pair shows as the mark for it, another unit as itself. -/
theorem toNat_charOfUnit (u : UInt16) :
    (charOfUnit u).toNat = 0xFFFD ∨ (charOfUnit u).toNat = u.toNat := by
  rw [charOfUnit]
  split
  · exact .inl (by decide)
  · next hhalf =>
      have hu : u.toNat < 0x10000 := u.toNat_lt
      have hvalid : u.toNat.isValidChar := by
        simp only [isHighHalf, isLowHalf, Bool.or_eq_true, Bool.and_eq_true, decide_eq_true_eq,
          UInt16.le_iff_toNat_le, UInt16.lt_iff_toNat_lt, not_or, not_and, UInt16.reduceToNat]
          at hhalf
        unfold Nat.isValidChar
        omega
      rw [Char.ofNat, dif_pos hvalid]
      exact .inr rfl

theorem toNat_charOfUnit_lt (u : UInt16) : (charOfUnit u).toNat < 0x10000 := by
  have hu : u.toNat < 0x10000 := u.toNat_lt
  rcases toNat_charOfUnit u with h | h <;> omega

theorem toNat_charOfPair_ge {high low : UInt16} (h : (isHighHalf high && isLowHalf low) = true) :
    0x10000 ≤ (charOfPair high low).toNat := by
  simp only [isHighHalf, isLowHalf, Bool.and_eq_true, decide_eq_true_eq, UInt16.le_iff_toNat_le,
    UInt16.lt_iff_toNat_lt, UInt16.reduceToNat] at h
  have hvalid : (0x10000 + (high.toNat - 0xD800) * 0x400 + (low.toNat - 0xDC00)).isValidChar := by
    unfold Nat.isValidChar
    omega
  rw [charOfPair, Char.ofNat, dif_pos hvalid]
  show 0x10000 ≤ 0x10000 + (high.toNat - 0xD800) * 0x400 + (low.toNat - 0xDC00)
  omega

/-- A text is shown with as many units as it has, halves of pairs included. -/
theorem length_ofString_toString (t : Text) : (Text.ofString t.toString).length = t.length := by
  have hunits : ∀ us : List UInt16, ((decodeUnits us).flatMap encodeChar).length = us.length := by
    intro us
    fun_induction decodeUnits us with
    | case1 => rfl
    | case2 u =>
        rw [List.flatMap_singleton, length_encodeChar, if_pos (toNat_charOfUnit_lt u)]
        rfl
    | case3 u v rest hpair ih =>
        have hlarge := toNat_charOfPair_ge hpair
        rw [List.flatMap_cons, List.length_append, ih, length_encodeChar, if_neg (by omega)]
        simp only [List.length_cons]
        omega
    | case4 u v rest hpair ih =>
        rw [List.flatMap_cons, List.length_append, ih, length_encodeChar,
          if_pos (toNat_charOfUnit_lt u)]
        simp only [List.length_cons]
        omega
  rw [Text.length, Text.ofString, Text.toString, String.toList_ofList]
  exact hunits t.units

/-- The unit of a character below the halves of pairs. -/
theorem unitOf_charOfUnit {u : UInt16} (h : (charOfUnit u).toNat < 0xD800) :
    unitOf (charOfUnit u) = u := by
  rcases toNat_charOfUnit u with hmark | hself
  · omega
  · rw [unitOf, hself, Nat.toUInt16_eq, UInt16.ofNat_toNat]

/-- Characters below the halves of pairs give their units back. -/
theorem units_of_decodeUnits {us : List UInt16} (h : ∀ c ∈ decodeUnits us, c.toNat < 0xD800) :
    (decodeUnits us).map unitOf = us := by
  fun_induction decodeUnits us with
  | case1 => rfl
  | case2 u => rw [List.map_singleton, unitOf_charOfUnit (h _ List.mem_cons_self)]
  | case3 u v rest hpair ih =>
      have hlarge := toNat_charOfPair_ge hpair
      have hlow := h _ List.mem_cons_self
      omega
  | case4 u v rest hpair ih =>
      obtain ⟨hu, hrest⟩ := List.forall_mem_cons.mp h
      rw [List.map_cons, unitOf_charOfUnit hu, ih hrest]

/-- A text is the one that it is shown like, when that is shown in characters below the halves of
    pairs. -/
theorem Text.eq_of_toString {s t : Text} (h : s.toString = t.toString)
    (ht : ∀ c ∈ decodeUnits t.units, c.toNat < 0xD800) : s = t := by
  have hchars : decodeUnits s.units = decodeUnits t.units := by
    rw [← String.toList_inj, toString, toString, String.toList_ofList, String.toList_ofList] at h
    exact h
  have hs : ∀ c ∈ decodeUnits s.units, c.toNat < 0xD800 := fun c hc => ht c (hchars ▸ hc)
  refine congrArg Text.mk ?_
  calc s.units = (decodeUnits s.units).map unitOf := (units_of_decodeUnits hs).symm
    _ = (decodeUnits t.units).map unitOf := congrArg _ hchars
    _ = t.units := units_of_decodeUnits ht

end SceneScript
