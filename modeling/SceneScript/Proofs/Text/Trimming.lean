import Mathlib.Data.List.DropRight
import Mathlib.Data.List.TakeWhile
import SceneScript.Text.Blank

/-!
# Texts without blanks at their ends

Removing the blanks at both ends of a text leaves a text that has none there, so removing them once
more changes nothing.

* **`Text.Trimmed`** — a text without blanks at its ends; **`Text.trimmed_iff`** — its first unit and
  its last.
* **`Text.trimmed_trim`**, **`Text.trimmed_append`** — how such texts arise.
-/

namespace SceneScript

section Ends

variable {α : Type} {p : α → Bool} {xs : List α}

theorem dropWhile_eq_self : xs.dropWhile p = xs ↔ ∀ x ∈ xs.head?, p x = false := by
  rw [List.dropWhile_eq_self_iff]
  cases xs <;> simp

theorem dropTrailing_eq_self : dropTrailing p xs = xs ↔ ∀ x ∈ xs.getLast?, p x = false := by
  rw [dropTrailing, List.reverse_eq_iff, dropWhile_eq_self, List.head?_reverse]

end Ends

namespace Text

/-- There is no blank at either end. -/
def Trimmed (t : Text) : Prop := t.trim = t

instance (t : Text) : Decidable t.Trimmed := inferInstanceAs (Decidable (t.trim = t))

/-- The first unit and the last are not blank. -/
theorem trimmed_iff {t : Text} :
    t.Trimmed ↔ (∀ u ∈ t.units.head?, isBlank u = false) ∧
      ∀ u ∈ t.units.getLast?, isBlank u = false := by
  rw [← dropWhile_eq_self, ← dropTrailing_eq_self]
  constructor
  · intro h
    -- nothing can be missing at the front when everything is left after the back was cut as well
    have hall : dropTrailing isBlank (t.units.dropWhile isBlank) = t.units := congrArg Text.units h
    have hback := (List.rdropWhile_prefix isBlank (l := t.units.dropWhile isBlank)).sublist.length_le
    have hfront : t.units.dropWhile isBlank = t.units := by
      refine (List.dropWhile_suffix isBlank).sublist.eq_of_length_le ?_
      exact (congrArg List.length hall).symm.le.trans hback
    rw [hfront] at hall
    exact ⟨hfront, hall⟩
  · rintro ⟨hfront, hback⟩
    rw [Trimmed, trim, hfront, hback]

/-- Removing the blanks leaves a text without blanks at its ends. -/
theorem trimmed_trim (t : Text) : t.trim.Trimmed := by
  rw [trimmed_iff, ← dropTrailing_eq_self]
  constructor
  · intro u hu
    -- the front was cut before the back, and cutting the back leaves a beginning
    obtain ⟨rest, hrest⟩ := List.rdropWhile_prefix isBlank (l := t.units.dropWhile isBlank)
    obtain ⟨more, hmore⟩ : ∃ more, t.trim.units = u :: more := ⟨_, List.eq_cons_of_mem_head? hu⟩
    have hhead : u ∈ (t.units.dropWhile isBlank).head? := by
      rw [← hrest]
      change u ∈ (t.trim.units ++ rest).head?
      rw [hmore]
      rfl
    exact dropWhile_eq_self.mp (List.dropWhile_idempotent isBlank _) u hhead
  · exact List.rdropWhile_idempotent isBlank _

/-- A text without blanks at its ends, and then another one. -/
theorem trimmed_append {s t : Text} (hs : s.Trimmed) (ht : t.Trimmed) : (s ++ t).Trimmed := by
  rw [trimmed_iff] at hs ht ⊢
  change (∀ u ∈ (s.units ++ t.units).head?, isBlank u = false) ∧
    ∀ u ∈ (s.units ++ t.units).getLast?, isBlank u = false
  rw [List.head?_append, List.getLast?_append]
  constructor
  · intro u hu
    rcases Option.or_eq_some_iff.mp hu with h | ⟨-, h⟩
    · exact hs.1 u h
    · exact ht.1 u h
  · intro u hu
    rcases Option.or_eq_some_iff.mp hu with h | ⟨-, h⟩
    · exact ht.2 u h
    · exact hs.2 u h

end Text

end SceneScript
