import Mathlib.Order.Bounds.Basic
import Mathlib.Order.MinMax
import SceneScript.Suggest

/-!
# The distance between two texts

An edit puts one unit into a text, takes one out or replaces one. The distance between two texts is
the least number of edits that turn the one into the other. It is read off a table of the distances
between their beginnings, of which only one row is kept. As a beginning grows at its end, the table
is described by the beginnings written backwards, which grow in front.

* **`UnitEdit`** / **`UnitEdits`** — one edit, and a number of them one after the other.
* **`gap`** — the entry of the table for two beginnings; **`editDistance_eq_gap`** — the rows give
  its last entry.
* **`unitEdits_gap`** — so many edits are enough; **`UnitEdits.gap_le`** — and fewer are not.
* **`editDistance_isLeast`** — the distance of two texts, and that it is one.
-/

namespace SceneScript

/-- One edit: a unit is put in, taken out or replaced. -/
inductive UnitEdit : List UInt16 → List UInt16 → Prop where
  | insert (before after : List UInt16) (u : UInt16) :
      UnitEdit (before ++ after) (before ++ u :: after)
  | delete (before after : List UInt16) (u : UInt16) :
      UnitEdit (before ++ u :: after) (before ++ after)
  | replace (before after : List UInt16) (u v : UInt16) :
      UnitEdit (before ++ u :: after) (before ++ v :: after)

/-- What comes from a list by a number of edits. -/
inductive UnitEdits (a : List UInt16) : Nat → List UInt16 → Prop where
  | refl : UnitEdits a 0 a
  | tail {n : Nat} {b c : List UInt16} : UnitEdits a n b → UnitEdit b c → UnitEdits a (n + 1) c

/-- The distance between two beginnings, written backwards: what is done last is done to the units
    in front. -/
def gap : List UInt16 → List UInt16 → Nat
  | [], b          => b.length
  | c :: a, []     => (c :: a).length
  | c :: a, u :: b =>
      min (min (gap a (u :: b) + 1) (gap (c :: a) b + 1)) (gap a b + if c = u then 0 else 1)
termination_by a b => a.length + b.length

/-- The rest of a row of the table behind the entry for `b`: the entries for the beginnings that
    grow by the units of a list. -/
def gaps (a : List UInt16) : List UInt16 → List UInt16 → List Nat
  | _, []      => []
  | b, u :: us => gap a (u :: b) :: gaps a (u :: b) us

variable {n m : Nat} {a b d : List UInt16} {u v : UInt16}

/-! ## The rows of the table -/

theorem gap_nil (b : List UInt16) : gap [] b = b.length := by rw [gap]

theorem gap_nil_right (a : List UInt16) : gap a [] = a.length := by
  cases a with
  | nil => rw [gap_nil]
  | cons c a => rw [gap]

theorem gap_cons_cons (c u : UInt16) (a b : List UInt16) :
    gap (c :: a) (u :: b) =
      min (min (gap a (u :: b) + 1) (gap (c :: a) b + 1)) (gap a b + if c = u then 0 else 1) := by
  rw [gap]

/-- A row is made from the row above it, from left to right. -/
theorem editRowFrom_gaps (c : UInt16) (a us : List UInt16) : ∀ b,
    editRowFrom c (gap a b) (gap (c :: a) b) us (gaps a b us) = gaps (c :: a) b us := by
  induction us with
  | nil => exact fun _ => rfl
  | cons u us ih =>
      intro b
      simp only [gaps, editRowFrom, ← gap_cons_cons, ih]

theorem foldl_editRow (us rest : List UInt16) : ∀ a,
    rest.foldl (editRow us) (gap a [] :: gaps a [] us) =
      gap (rest.reverse ++ a) [] :: gaps (rest.reverse ++ a) [] us := by
  induction rest with
  | nil => exact fun _ => rfl
  | cons c rest ih =>
      intro a
      have hrow : editRow us (gap a [] :: gaps a [] us) c =
          gap (c :: a) [] :: gaps (c :: a) [] us := by
        have hfirst : gap (c :: a) [] = gap a [] + 1 := by
          rw [gap_nil_right, gap_nil_right, List.length_cons]
        rw [editRow, ← hfirst, editRowFrom_gaps]
      rw [List.foldl_cons, hrow, ih, List.reverse_cons, List.append_assoc, List.singleton_append]

theorem getLast?_gaps (a us : List UInt16) : ∀ b,
    (gap a b :: gaps a b us).getLast? = some (gap a (us.reverse ++ b)) := by
  induction us with
  | nil => exact fun _ => rfl
  | cons u us ih =>
      intro b
      rw [gaps, List.getLast?_cons_cons, ih, List.reverse_cons, List.append_assoc,
        List.singleton_append]

/-- The first row counts the units that are put in. -/
theorem gaps_nil (us : List UInt16) : ∀ b, gaps [] b us = List.range' (b.length + 1) us.length := by
  induction us with
  | nil => exact fun _ => rfl
  | cons u us ih =>
      intro b
      rw [gaps, ih, gap_nil, List.length_cons, List.length_cons, List.range'_succ]

/-- The rows lead to the last entry of the table. -/
theorem editDistance_eq_gap (a b : Text) :
    editDistance a b = gap a.units.reverse b.units.reverse := by
  have hstart : List.range (b.length + 1) = gap [] [] :: gaps [] [] b.units := by
    rw [gaps_nil, gap_nil, List.range_eq_range', List.range'_succ]
    rfl
  rw [editDistance, hstart, foldl_editRow, getLast?_gaps, List.append_nil, List.append_nil]
  rfl

/-! ## So many edits are enough -/

theorem UnitEdit.cons (c : UInt16) (h : UnitEdit a b) : UnitEdit (c :: a) (c :: b) := by
  cases h with
  | insert before after u => exact .insert (c :: before) after u
  | delete before after u => exact .delete (c :: before) after u
  | replace before after u v => exact .replace (c :: before) after u v

theorem UnitEdits.cons (c : UInt16) (h : UnitEdits a n b) : UnitEdits (c :: a) n (c :: b) := by
  induction h with
  | refl => exact .refl
  | tail _ hedit ih => exact ih.tail (hedit.cons c)

theorem UnitEdits.trans (h : UnitEdits a n b) (h' : UnitEdits b m d) :
    UnitEdits a (n + m) d := by
  induction h' with
  | refl => exact h
  | tail _ hedit ih => exact ih.tail hedit

theorem UnitEdits.head (h : UnitEdit a b) (h' : UnitEdits b n d) : UnitEdits a (n + 1) d := by
  rw [Nat.add_comm]
  exact (UnitEdits.tail .refl h).trans h'

theorem unitEdits_insert (b : List UInt16) : UnitEdits [] b.length b := by
  induction b with
  | nil => exact .refl
  | cons u b ih => exact ih.tail (.insert [] b u)

theorem unitEdits_delete (a : List UInt16) : UnitEdits a a.length [] := by
  induction a with
  | nil => exact .refl
  | cons c a ih => exact ih.head (.delete [] a c)

/-- Each entry of the table is the number of some edits, by the way in which the entry is made. -/
theorem unitEdits_gap (a b : List UInt16) : UnitEdits a (gap a b) b := by
  induction a, b using gap.induct with
  | case1 b =>
      rw [gap_nil]
      exact unitEdits_insert b
  | case2 c a =>
      rw [gap_nil_right]
      exact unitEdits_delete (c :: a)
  | case3 c a u b habove hleft hdiagonal =>
      have htaken : UnitEdits (c :: a) (gap a (u :: b) + 1) (u :: b) :=
        habove.head (.delete [] a c)
      have hput : UnitEdits (c :: a) (gap (c :: a) b + 1) (u :: b) :=
        hleft.tail (.insert [] b u)
      have hkept : UnitEdits (c :: a) (gap a b + if c = u then 0 else 1) (u :: b) := by
        split
        · next hsame => exact hsame ▸ hdiagonal.cons c
        · exact (hdiagonal.cons c).tail (.replace [] b c u)
      rw [gap_cons_cons]
      rcases min_choice (min (gap a (u :: b) + 1) (gap (c :: a) b + 1))
        (gap a b + if c = u then 0 else 1) with hmin | hmin <;> rw [hmin]
      · rcases min_choice (gap a (u :: b) + 1) (gap (c :: a) b + 1) with hmin | hmin <;> rw [hmin]
        · exact htaken
        · exact hput
      · exact hkept

/-! ## Fewer are not -/

theorem gap_cons_left_le (u : UInt16) (a d : List UInt16) : gap (u :: a) d ≤ gap a d + 1 := by
  cases d with
  | nil => rw [gap_nil_right, gap_nil_right, List.length_cons]
  | cons w d =>
      rw [gap_cons_cons]
      omega

theorem gap_cons_right_le (a d : List UInt16) (w : UInt16) : gap a (w :: d) ≤ gap a d + 1 := by
  cases a with
  | nil => rw [gap_nil, gap_nil, List.length_cons]
  | cons c a =>
      rw [gap_cons_cons]
      omega

theorem gap_le_cons_left (u : UInt16) (a d : List UInt16) : gap a d ≤ gap (u :: a) d + 1 := by
  induction d with
  | nil =>
      rw [gap_nil_right, gap_nil_right, List.length_cons]
      omega
  | cons w d ih =>
      have hright := gap_cons_right_le a d w
      rw [gap_cons_cons]
      omega

theorem gap_replace_le (u v : UInt16) (a d : List UInt16) :
    gap (u :: a) d ≤ gap (v :: a) d + 1 := by
  induction d with
  | nil =>
      rw [gap_nil_right, gap_nil_right, List.length_cons, List.length_cons]
      omega
  | cons w d ih =>
      rw [gap_cons_cons, gap_cons_cons]
      split <;> split <;> omega

/-- Lists that are near to one another stay so behind one more unit. -/
theorem gap_cons_le (c : UInt16) (h : ∀ d, gap a d ≤ gap b d + 1) (d : List UInt16) :
    gap (c :: a) d ≤ gap (c :: b) d + 1 := by
  induction d with
  | nil =>
      have hnil := h []
      rw [gap_nil_right, gap_nil_right] at *
      simp only [List.length_cons]
      omega
  | cons w d ih =>
      have habove := h (w :: d)
      have hdiagonal := h d
      rw [gap_cons_cons, gap_cons_cons]
      split <;> omega

/-- One edit changes an entry of the table by one at most. -/
theorem UnitEdit.gap_le (h : UnitEdit a b) : ∀ d, gap a d ≤ gap b d + 1 := by
  have hbehind : ∀ (before : List UInt16) {x y : List UInt16}, (∀ d, gap x d ≤ gap y d + 1) →
      ∀ d, gap (before ++ x) d ≤ gap (before ++ y) d + 1 := by
    intro before x y hxy
    induction before with
    | nil => exact hxy
    | cons c before ih => exact gap_cons_le c ih
  cases h with
  | insert before after u => exact hbehind before (gap_le_cons_left u after)
  | delete before after u => exact hbehind before (gap_cons_left_le u after)
  | replace before after u v => exact hbehind before (gap_replace_le u v after)

theorem gap_self (a : List UInt16) : gap a a = 0 := by
  induction a with
  | nil => rw [gap_nil, List.length_nil]
  | cons c a ih =>
      rw [gap_cons_cons, ih, if_pos rfl]
      omega

theorem UnitEdits.gap_le (h : UnitEdits a n b) : gap a b ≤ n := by
  have hall : ∀ d, gap a d ≤ gap b d + n := by
    induction h with
    | refl => exact fun _ => Nat.le_refl _
    | tail _ hedit ih =>
        intro d
        have hbefore := ih d
        have hlast := hedit.gap_le d
        omega
  have hend := hall b
  rw [gap_self] at hend
  omega

/-! ## The distance -/

theorem UnitEdit.reverse (h : UnitEdit a b) : UnitEdit a.reverse b.reverse := by
  cases h with
  | insert before after u => simpa using UnitEdit.insert after.reverse before.reverse u
  | delete before after u => simpa using UnitEdit.delete after.reverse before.reverse u
  | replace before after u v => simpa using UnitEdit.replace after.reverse before.reverse u v

theorem UnitEdits.reverse (h : UnitEdits a n b) : UnitEdits a.reverse n b.reverse := by
  induction h with
  | refl => exact .refl
  | tail _ hedit ih => exact ih.tail hedit.reverse

theorem UnitEdit.symm (h : UnitEdit a b) : UnitEdit b a := by
  cases h with
  | insert before after u => exact .delete before after u
  | delete before after u => exact .insert before after u
  | replace before after u v => exact .replace before after v u

theorem UnitEdits.eq_of_zero (h : UnitEdits a 0 b) : a = b := by
  cases h
  rfl

theorem UnitEdits.symm (h : UnitEdits a n b) : UnitEdits b n a := by
  induction h with
  | refl => exact .refl
  | tail _ hedit ih => exact ih.head hedit.symm

theorem unitEdits_editDistance (a b : Text) : UnitEdits a.units (editDistance a b) b.units := by
  have hgap := (unitEdits_gap a.units.reverse b.units.reverse).reverse
  rwa [List.reverse_reverse, List.reverse_reverse, ← editDistance_eq_gap] at hgap

theorem UnitEdits.editDistance_le {a b : Text} (h : UnitEdits a.units n b.units) :
    editDistance a b ≤ n := by
  rw [editDistance_eq_gap]
  exact h.reverse.gap_le

/-- The distance of two texts is the least number of edits that turn the first into the second. So
    it is zero for equal texts only, it is the same in both directions, and the way by a third text
    is never shorter. -/
theorem editDistance_isLeast (a b : Text) :
    IsLeast {n | UnitEdits a.units n b.units} (editDistance a b) ∧
    (editDistance a b = 0 ↔ a = b) ∧
    editDistance a b = editDistance b a ∧
    ∀ c, editDistance a c ≤ editDistance a b + editDistance b c := by
  have hab := unitEdits_editDistance a b
  have hba := unitEdits_editDistance b a
  refine ⟨⟨hab, fun n hn => UnitEdits.editDistance_le hn⟩, ⟨fun hzero => ?_, fun hsame => ?_⟩, ?_,
    fun c => ?_⟩
  · exact congrArg Text.mk (hzero ▸ hab).eq_of_zero
  · exact Nat.le_zero.mp (UnitEdits.editDistance_le (hsame ▸ .refl))
  · exact Nat.le_antisymm hba.symm.editDistance_le hab.symm.editDistance_le
  · exact (hab.trans (unitEdits_editDistance b c)).editDistance_le

-- One unit is replaced, another is replaced, and one is put in.
example : editDistance "kitten" "sitting" = 3 := by decide +kernel

end SceneScript
