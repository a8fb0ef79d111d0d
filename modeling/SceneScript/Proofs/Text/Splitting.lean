import SceneScript.Text

/-!
# Splitting and joining texts

* **`Text.splitUnits_append`**, **`Text.splitOn_append`** — what stands on both sides of a separator
  is split on its own.
* **`Text.splitOn_join`** — texts that are joined and split again.
-/

namespace SceneScript

namespace Text

variable {u : UInt16}

theorem splitUnits_ne_nil : ∀ us : List UInt16, splitUnits u us ≠ []
  | []      => List.cons_ne_nil _ _
  | v :: us => by
      rw [splitUnits]
      split
      · exact List.cons_ne_nil _ _
      · split <;> exact List.cons_ne_nil _ _

theorem splitUnits_notMem : ∀ {us : List UInt16}, u ∉ us → splitUnits u us = [us]
  | [], _ => rfl
  | v :: us, h => by
      obtain ⟨hv, hus⟩ := not_or.mp (mt List.mem_cons.mpr h)
      rw [splitUnits, if_neg (Ne.symm hv), splitUnits_notMem hus]

theorem splitUnits_append (rest : List UInt16) : ∀ us : List UInt16,
    splitUnits u (us ++ u :: rest) = splitUnits u us ++ splitUnits u rest
  | []      => by
      show splitUnits u (u :: rest) = [] :: splitUnits u rest
      rw [splitUnits, if_pos rfl]
  | v :: us => by
      rw [List.cons_append, splitUnits, splitUnits, splitUnits_append rest us]
      split
      · rfl
      · cases h : splitUnits u us with
        | nil => exact absurd h (splitUnits_ne_nil us)
        | cons piece more => rfl

theorem splitUnits_intercalate {pieces : List (List UInt16)} (hne : pieces ≠ [])
    (h : ∀ us ∈ pieces, u ∉ us) : splitUnits u ([u].intercalate pieces) = pieces := by
  induction pieces with
  | nil => exact absurd rfl hne
  | cons us pieces ih =>
      have hfirst := splitUnits_notMem (h us List.mem_cons_self)
      cases pieces with
      | nil => rw [List.intercalate_singleton, hfirst]
      | cons vs pieces =>
          rw [List.intercalate_cons_cons, List.append_assoc, List.singleton_append,
            splitUnits_append, hfirst, List.singleton_append,
            ih (List.cons_ne_nil vs pieces) fun ws hws => h ws (List.mem_cons_of_mem us hws)]

variable {sep : Text} {c : Char}

/-- Two texts with a separator between them. -/
theorem splitOn_append (hsep : sep.units = [unitOf c]) (s t : Text) :
    (s ++ sep ++ t).splitOn c = s.splitOn c ++ t.splitOn c := by
  have hunits : (s ++ sep ++ t).units = s.units ++ unitOf c :: t.units := by
    show s.units ++ sep.units ++ t.units = _
    rw [hsep, List.append_assoc, List.singleton_append]
  rw [splitOn, hunits, splitUnits_append, List.map_append]
  rfl

/-- Texts without the separator, joined by it, are the parts between the separators. -/
theorem splitOn_join (hsep : sep.units = [unitOf c]) {parts : List Text} (hne : parts ≠ [])
    (h : ∀ t ∈ parts, t.contains c = false) : (join sep parts).splitOn c = parts := by
  have hunits : ∀ us ∈ parts.map units, unitOf c ∉ us := by
    intro us hus
    obtain ⟨t, ht, rfl⟩ := List.mem_map.mp hus
    simpa [contains] using h t ht
  rw [splitOn, join, hsep, splitUnits_intercalate (by simpa using hne) hunits, List.map_map]
  exact List.map_id parts

end Text

end SceneScript
