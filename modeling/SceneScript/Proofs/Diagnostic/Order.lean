import Mathlib.Data.List.Basic
import SceneScript.Diagnostic

/-!
# The order of diagnostics

Diagnostics are sorted by a comparison that ends with the dictionary order of their codes. It is
a total order up to ties, so what is sorted by it is in order. Codes are a letter and three
digits, and on these the dictionary order is the order of strings.

* **`Diagnostic.order`** is transitive, as are the comparisons it is made of.
* **`Diagnostic.Before`** — the order in plain words: place, errors first, code.
* **`Diagnostic.Coded`** — the code is a letter that tells the severity, and three digits.
* **`pairwise_sortDiagnostics`** — a sorted list of diagnostics with codes is in that order.
-/

namespace SceneScript

/-! ## The comparison -/

/-- Comparing by a view of the items is transitive. -/
theorem transCmp_view {α β : Type} (cmp : α → α → Ordering) [Std.TransCmp cmp] (f : β → α) :
    Std.TransCmp fun a b => cmp (f a) (f b) where
  eq_swap    := Std.OrientedCmp.eq_swap
  isLE_trans := Std.TransCmp.isLE_trans

theorem Collation.compareKeys_eq :
    ∀ a b : List Nat, compareKeys a b = List.compareLex compare a b
  | [], []           => rfl
  | [], _ :: _       => rfl
  | _ :: _, []       => rfl
  | x :: xs, y :: ys => by
      rw [compareKeys, List.compareLex_cons_cons, compareKeys_eq xs ys]

instance : Std.TransCmp Collation.compareKeys := by
  have h : Collation.compareKeys = List.compareLex compare :=
    funext fun a => funext fun b => Collation.compareKeys_eq a b
  rw [h]
  infer_instance

instance : Std.TransCmp Text.collate := by
  have hplace := transCmp_view Collation.compareKeys fun t : Text =>
    (Collation.spelled t).flatMap Collation.Element.place
  have haccent := transCmp_view Collation.compareKeys fun t : Text =>
    (Collation.spelled t).map Collation.Element.accent
  have hform := transCmp_view Collation.compareKeys fun t : Text =>
    (Collation.spelled t).map fun e => e.form.rank
  exact inferInstanceAs (Std.TransCmp (compareLex _ (compareLex _ _)))

instance : Std.TransCmp Diagnostic.order := by
  have hstart := transCmp_view (compare : Nat → Nat → Ordering) fun d : Diagnostic =>
    d.span.start.offset
  have herror := transCmp_view (compare : Bool → Bool → Ordering) fun d : Diagnostic => !d.isError
  have hcode := transCmp_view Text.collate fun d : Diagnostic => Text.ofString d.code
  exact inferInstanceAs (Std.TransCmp (compareLex _ (compareLex _ _)))

/-! ## Codes -/

/-- Whether a text is a code: a letter, `E` for errors and `W` for warnings, and three digits. -/
def isCode (severity : Severity) (code : String) : Bool :=
  match code.toList with
  | [l, x, y, z] =>
      l == (if severity = .error then 'E' else 'W') && x.isDigit && y.isDigit && z.isDigit
  | _ => false

theorem isCode_cases {severity : Severity} {code : String} (h : isCode severity code = true) :
    ∃ x y z : Char, code.toList = [if severity = .error then 'E' else 'W', x, y, z] ∧
      x.isDigit = true ∧ y.isDigit = true ∧ z.isDigit = true := by
  unfold isCode at h
  split at h
  · next l x y z hcode =>
      simp only [Bool.and_eq_true, beq_iff_eq] at h
      obtain ⟨⟨⟨rfl, hx⟩, hy⟩, hz⟩ := h
      exact ⟨x, y, z, hcode, hx, hy, hz⟩
  · cases h

/-- A diagnostic with a code that tells its severity. -/
def Diagnostic.Coded (d : Diagnostic) : Prop := isCode d.severity d.code = true

namespace Collation

/-- Characters below the halves of pairs stand for themselves. -/
theorem codePoints_encode (cs : List Char) (h : ∀ c ∈ cs, c.toNat < 0xD800) :
    codePoints (cs.flatMap encodeChar) = cs.map Char.toNat := by
  have hone : ∀ c : Char, c.toNat < 0xD800 →
      encodeChar c = [unitOf c] ∧ (unitOf c).toNat = c.toNat ∧ isHighHalf (unitOf c) = false := by
    intro c hc
    have hunit : (unitOf c).toNat = c.toNat := by
      rw [unitOf, Nat.toUInt16_eq, UInt16.toNat_ofNat']
      omega
    refine ⟨by rw [encodeChar, if_pos (by omega)], hunit, ?_⟩
    have hlt : ¬(0xD800 ≤ unitOf c) := by
      rw [UInt16.le_iff_toNat_le, hunit]
      simpa using hc
    simp [isHighHalf, hlt]
  induction cs with
  | nil => rfl
  | cons c rest ih =>
      have hrest := ih fun d hd => h d (List.mem_cons_of_mem c hd)
      obtain ⟨henc, hunit, hhigh⟩ := hone c (h c List.mem_cons_self)
      rw [List.flatMap_cons, henc, List.map_cons, ← hrest]
      cases htail : rest.flatMap encodeChar with
      | nil => simp [codePoints, hunit]
      | cons v more => simp [codePoints, hhigh, hunit]

theorem compareKeys_append (front a b : List Nat) :
    compareKeys (front ++ a) (front ++ b) = compareKeys a b := by
  induction front with
  | nil => rfl
  | cons n rest ih => simp [compareKeys, ih]

/-- A digit is a letter of its own, placed by its code. -/
theorem elements_digit {c : Char} (h : c.isDigit = true) :
    elements c.toNat = [⟨[Group.letter.rank, c.toNat, 0], plainAccent, .plain⟩] := by
  have hall : ∀ n < 58, 48 ≤ n →
      elements n = [⟨[Group.letter.rank, n, 0], plainAccent, .plain⟩] := by decide
  have hbounds : 48 ≤ c.toNat ∧ c.toNat ≤ 57 := by
    simpa [Char.isDigit, UInt32.le_iff_toNat_le] using h
  exact hall c.toNat (by omega) hbounds.1

/-- The letter of a code as it is compared. -/
def codeLetter (severity : Severity) : Element :=
  .letter .capital (if severity = .error then 'e' else 'w').toNat

theorem spelled_code {severity : Severity} {code : String} {x y z : Char}
    (h : code.toList = [if severity = .error then 'E' else 'W', x, y, z])
    (hx : x.isDigit = true) (hy : y.isDigit = true) (hz : z.isDigit = true) :
    spelled (Text.ofString code) =
      codeLetter severity ::
        [x, y, z].map fun c => ⟨[Group.letter.rank, c.toNat, 0], plainAccent, .plain⟩ := by
  have hletter : elements (if severity = .error then 'E' else 'W').toNat =
      [codeLetter severity] := by
    cases severity <;> decide
  have hsmall : ∀ c ∈ code.toList, c.toNat < 0xD800 := by
    have hdigit : ∀ c : Char, c.isDigit = true → c.toNat < 0xD800 := by
      intro c hc
      have : 48 ≤ c.toNat ∧ c.toNat ≤ 57 := by
        simpa [Char.isDigit, UInt32.le_iff_toNat_le] using hc
      omega
    rw [h]
    cases severity <;> simp [hdigit, hx, hy, hz]
  show (codePoints (code.toList.flatMap encodeChar)).flatMap elements = _
  rw [codePoints_encode _ hsmall, h]
  simp only [List.map_cons, List.map_nil, List.flatMap_cons, List.flatMap_nil, hletter,
    elements_digit hx, elements_digit hy, elements_digit hz]
  rfl

end Collation

/-- On codes of one severity the dictionary order is the order of strings. -/
theorem code_le_of_collate {severity : Severity} {a b : String} (ha : isCode severity a = true)
    (hb : isCode severity b = true) (h : (Text.ofString a).collate (Text.ofString b) ≠ .gt) :
    a ≤ b := by
  obtain ⟨x, y, z, hacode, hx, hy, hz⟩ := isCode_cases ha
  obtain ⟨x', y', z', hbcode, hx', hy', hz'⟩ := isCode_cases hb
  rw [Text.collate, Collation.spelled_code hacode hx hy hz,
    Collation.spelled_code hbcode hx' hy' hz'] at h
  have hdigits : ((compare x.toNat x'.toNat).then ((compare y.toNat y'.toNat).then
      (compare z.toNat z'.toNat))) ≠ .gt := by
    simpa [Collation.compareElements, Collation.compareKeys_append, Collation.compareKeys] using h
  have hval : ∀ c : Char, c.val.toNat = c.toNat := fun _ => rfl
  simp only [Ordering.then_eq_gt, Nat.compare_eq_gt, Nat.compare_eq_eq, ne_eq] at hdigits
  show ¬b < a
  rw [String.lt_iff, hacode, hbcode]
  simp only [List.cons_lt_cons_iff, Char.lt_def, UInt32.lt_iff_toNat_lt, Char.ext_iff,
    ← UInt32.toNat_inj, hval]
  rintro (hlt | ⟨-, hlt | ⟨_, hlt | ⟨_, hlt | ⟨_, hlt⟩⟩⟩⟩)
  · omega
  · omega
  · omega
  · omega
  · exact List.not_lt_nil [] hlt

/-! ## Sorting -/

/-- An earlier place; at the same place an error before a warning; else the lesser code. -/
def Diagnostic.Before (a b : Diagnostic) : Prop :=
  a.span.start.offset < b.span.start.offset ∨
    a.span.start.offset = b.span.start.offset ∧
      (a.severity = .error ∧ b.severity = .warning ∨
        a.severity = b.severity ∧ a.code ≤ b.code)

theorem Diagnostic.before_of_order {a b : Diagnostic} (ha : a.Coded) (hb : b.Coded)
    (h : a.order b ≠ .gt) : a.Before b := by
  rcases Nat.lt_trichotomy a.span.start.offset b.span.start.offset with hlt | heq | hgt
  · exact .inl hlt
  · refine .inr ⟨heq, ?_⟩
    rw [order, Nat.compare_eq_eq.mpr heq, isError, isError, Ordering.eq_then] at h
    by_cases hsame : a.severity = b.severity
    · rw [Coded, hsame] at ha
      have hself : ∀ x : Bool, compare x x = .eq := by decide
      rw [hsame, hself, Ordering.eq_then] at h
      exact .inr ⟨hsame, code_le_of_collate ha hb h⟩
    · cases hsa : a.severity <;> cases hsb : b.severity
      · exact absurd (hsa.trans hsb.symm) hsame
      · exact .inl ⟨rfl, rfl⟩
      -- A warning does not come before an error.
      · rw [hsa, hsb] at h
        exact absurd Ordering.gt_then h
      · exact absurd (hsa.trans hsb.symm) hsame
  · rw [order, Nat.compare_eq_gt.mpr hgt] at h
    exact absurd rfl h

section Sorting

variable {α : Type} (cmp : α → α → Ordering) [Std.TransCmp cmp]

theorem bne_gt_iff {o : Ordering} : (o != .gt) = true ↔ o.isLE = true := by
  cases o <;> decide

theorem bne_gt_trans (a b c : α) (hab : (cmp a b != .gt) = true) (hbc : (cmp b c != .gt) = true) :
    (cmp a c != .gt) = true :=
  bne_gt_iff.mpr (Std.TransCmp.isLE_trans (bne_gt_iff.mp hab) (bne_gt_iff.mp hbc))

theorem bne_gt_total (a b : α) : (cmp a b != .gt || cmp b a != .gt) = true := by
  have hswap : cmp b a = (cmp a b).swap := Std.OrientedCmp.eq_swap
  rw [hswap]
  cases cmp a b <;> rfl

theorem eq_of_bne_gt {a b : α} (hab : (cmp a b != .gt) = true) (hba : (cmp b a != .gt) = true) :
    cmp a b = .eq := by
  have hswap : cmp b a = (cmp a b).swap := Std.OrientedCmp.eq_swap
  rw [hswap] at hba
  cases h : cmp a b with
  | eq => rfl
  | lt =>
      rw [h] at hba
      cases hba
  | gt =>
      rw [h] at hab
      cases hab

end Sorting

/-- A sorted list of diagnostics is in order. -/
theorem pairwise_sortDiagnostics {list : List Diagnostic}
    (h : ∀ d ∈ list, d.Coded) :
    (sortDiagnostics list).Pairwise Diagnostic.Before := by
  have hsorted := List.pairwise_mergeSort (bne_gt_trans Diagnostic.order)
    (bne_gt_total Diagnostic.order) list
  refine hsorted.imp_of_mem fun {a b} ha hb hab => ?_
  exact Diagnostic.before_of_order (h a (List.mem_mergeSort.mp ha))
    (h b (List.mem_mergeSort.mp hb)) (bne_iff_ne.mp hab)

end SceneScript
