/-!
# NamedTable — values by name

A table holds one value for each of its names, in the order in which the names came in. A name
that comes again keeps its place and gets the new value.

* **`NamedTable.insert`**, **`NamedTable.erase`**, **`NamedTable.get?`** — the operations, with what
  is found after each of them.
* **`NamedTable.mem_values`** — the values are what is found under some name.
-/

namespace SceneScript

/-- Values by name. -/
structure NamedTable (α : Type) where
  entries  : List (String × α)
  distinct : (entries.map Prod.fst).Nodup

namespace NamedTable

variable {α : Type}

/-! ## Entries -/

/-- With the value of a name replaced in its place, or added at the end. -/
def insertEntry (name : String) (value : α) : List (String × α) → List (String × α)
  | []             => [(name, value)]
  | (n, v) :: rest =>
      if n = name then (name, value) :: rest else (n, v) :: insertEntry name value rest

/-- A name keeps its place, or a new one comes behind the others. -/
theorem names_insertEntry (name : String) (value : α) (entries : List (String × α)) :
    (insertEntry name value entries).map Prod.fst =
      if name ∈ entries.map Prod.fst then entries.map Prod.fst
      else entries.map Prod.fst ++ [name] := by
  induction entries with
  | nil => rfl
  | cons e rest ih =>
      obtain ⟨m, v⟩ := e
      rw [insertEntry]
      by_cases hm : m = name
      · rw [if_pos hm, hm, List.map_cons, List.map_cons, if_pos List.mem_cons_self]
      · have hmem : name ∈ ((m, v) :: rest).map Prod.fst ↔ name ∈ rest.map Prod.fst :=
          List.mem_cons.trans (or_iff_right fun h => hm h.symm)
        rw [if_neg hm, List.map_cons, ih]
        by_cases hn : name ∈ rest.map Prod.fst
        · rw [if_pos hn, if_pos (hmem.mpr hn), List.map_cons]
        · rw [if_neg hn, if_neg fun h => hn (hmem.mp h), List.map_cons, List.cons_append]

theorem distinct_insertEntry {entries : List (String × α)} (h : (entries.map Prod.fst).Nodup)
    (name : String) (value : α) : ((insertEntry name value entries).map Prod.fst).Nodup := by
  rw [names_insertEntry]
  split
  · exact h
  · next hfresh =>
      refine List.nodup_append.mpr ⟨h, List.nodup_cons.mpr ⟨List.not_mem_nil, .nil⟩, ?_⟩
      rintro n hn _ hlast rfl
      exact hfresh (List.mem_singleton.mp hlast ▸ hn)

theorem lookup_cons_named (n m : String) (v : α) (entries : List (String × α)) :
    ((m, v) :: entries).lookup n = if n = m then some v else entries.lookup n := by
  rw [List.lookup_cons]
  by_cases h : n = m
  · rw [if_pos h, beq_iff_eq.mpr h]
  · rw [if_neg h, beq_eq_false_iff_ne.mpr h]

theorem lookup_insertEntry (name : String) (value : α) (entries : List (String × α))
    (n : String) : (insertEntry name value entries).lookup n =
      if n = name then some value else entries.lookup n := by
  induction entries with
  | nil => exact lookup_cons_named n name value []
  | cons e rest ih =>
      obtain ⟨m, v⟩ := e
      rw [insertEntry]
      by_cases hm : m = name
      · rw [if_pos hm, lookup_cons_named, lookup_cons_named, hm]
        by_cases hn : n = name
        · rw [if_pos hn, if_pos hn]
        · rw [if_neg hn, if_neg hn, if_neg hn]
      · rw [if_neg hm, lookup_cons_named, lookup_cons_named, ih]
        by_cases hn : n = m
        · rw [if_pos hn, if_pos hn, if_neg (hn ▸ hm)]
        · rw [if_neg hn, if_neg hn]

theorem lookup_filter_named (name : String) (entries : List (String × α)) (n : String) :
    (entries.filter fun e => e.1 ≠ name).lookup n =
      if n = name then none else entries.lookup n := by
  induction entries with
  | nil => exact (ite_self none).symm
  | cons e rest ih =>
      obtain ⟨m, v⟩ := e
      rw [lookup_cons_named]
      by_cases hm : m = name
      · rw [List.filter_cons_of_neg (by simpa using hm), ih, hm]
        by_cases hn : n = name
        · rw [if_pos hn, if_pos hn]
        · rw [if_neg hn, if_neg hn, if_neg hn]
      · rw [List.filter_cons_of_pos (by simpa using hm), lookup_cons_named, ih]
        by_cases hn : n = m
        · rw [if_pos hn, if_pos hn, if_neg (hn ▸ hm)]
        · rw [if_neg hn, if_neg hn]

theorem lookup_of_mem_named {entries : List (String × α)} {e : String × α}
    (h : (entries.map Prod.fst).Nodup) (he : e ∈ entries) : entries.lookup e.1 = some e.2 := by
  induction entries with
  | nil => cases he
  | cons f rest ih =>
      obtain ⟨m, v⟩ := f
      obtain ⟨hfresh, hrest⟩ := List.nodup_cons.mp h
      rw [lookup_cons_named]
      rcases List.mem_cons.mp he with rfl | hin
      · exact if_pos rfl
      · have hname : e.1 ≠ m := fun hsame => hfresh (List.mem_map.mpr ⟨e, hin, hsame⟩)
        rw [if_neg hname, ih hrest hin]

/-! ## Tables -/

/-- A table without names. -/
def empty : NamedTable α := ⟨[], List.nodup_nil⟩

/-- The value of a name. -/
def get? (t : NamedTable α) (name : String) : Option α := t.entries.lookup name

/-- The values. -/
def values (t : NamedTable α) : List α := t.entries.map Prod.snd

/-- With a value under a name. -/
def insert (t : NamedTable α) (name : String) (value : α) : NamedTable α :=
  ⟨insertEntry name value t.entries, distinct_insertEntry t.distinct name value⟩

/-- Without a name. -/
def erase (t : NamedTable α) (name : String) : NamedTable α :=
  ⟨t.entries.filter fun e => e.1 ≠ name, (List.filter_sublist.map Prod.fst).nodup t.distinct⟩

theorem get?_empty (name : String) : (empty : NamedTable α).get? name = none := rfl

theorem get?_insert (t : NamedTable α) (name : String) (value : α) (n : String) :
    (t.insert name value).get? n = if n = name then some value else t.get? n :=
  lookup_insertEntry name value t.entries n

theorem get?_erase (t : NamedTable α) (name n : String) :
    (t.erase name).get? n = if n = name then none else t.get? n :=
  lookup_filter_named name t.entries n

theorem mem_values (t : NamedTable α) (value : α) :
    value ∈ t.values ↔ ∃ name, t.get? name = some value := by
  constructor
  · intro h
    obtain ⟨e, he, rfl⟩ := List.mem_map.mp h
    exact ⟨e.1, lookup_of_mem_named t.distinct he⟩
  · rintro ⟨name, h⟩
    obtain ⟨before, after, hentries, -⟩ := List.lookup_eq_some_iff.mp h
    refine List.mem_map.mpr ⟨(name, value), ?_, rfl⟩
    rw [hentries]
    exact List.mem_append_right before List.mem_cons_self

end NamedTable

end SceneScript
