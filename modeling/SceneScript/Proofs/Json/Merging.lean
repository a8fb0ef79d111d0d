import SceneScript.Json.Merge
import SceneScript.Proofs.Json.Proper

/-!
# What is found in a merged object

Where the first object holds a value that is no object, the merged one holds what the second object
has in that place. It holds the value of the first one when the second has nothing there and has no
value of another sort further up. What stands behind an object never shows in such a place.

* **`Json.at?`** — the value at the end of a path of keys.
* **`Json.lookup_merge`** — a member of the first object in the merged one.
* **`Json.at?_merge`** — the end of a path of the first object in the merged one.
-/

namespace SceneScript

namespace Json

/-- The value at the end of a path of keys. -/
def at? (j : Json) : List String → Option Json
  | []          => some j
  | key :: rest => (j.get? key).bind fun v => v.at? rest

/-- A value that holds members. -/
def isObject : Json → Bool
  | .object _ => true
  | _         => false

/-- One value merged over another: objects are merged, any other value takes the place. -/
def mergeValue : Json → Json → Json
  | .object base, .object ms => .object (merge base ms)
  | _, v                     => v

variable {base ms : List (Text × Json)} {key : Text} {m : Merged} {b v : Json}

namespace Merged

/-- A member that is there names no background. -/
theorem isBackground_eq_false (h : lookup key m.members = some b) : m.isBackground key = false := by
  simp [isBackground, h]

theorem find?_eq_some (h : lookup key m.members = some b) : m.find? key = some b := by
  rw [find?, h]

theorem lookup_set (m : Merged) (k key : Text) (v : Json) :
    lookup key (m.set k v).members = if k = key then some v else lookup key m.members :=
  lookup_insertMember k key v m.members

/-- A step sets the member of its key or leaves all members as they are. -/
theorem mergeMember_cases (m : Merged) (k : Text) (v : Json) :
    (∃ w, mergeMember m k v = m.set k w) ∨ (mergeMember m k v).members = m.members := by
  cases v with
  | object ms =>
      rw [mergeMember]
      split
      · exact .inr rfl
      · split <;> exact .inl ⟨_, rfl⟩
  | _ =>
      simp only [mergeMember]
      split
      · exact .inr rfl
      · exact .inl ⟨_, rfl⟩

/-- A step leaves the members of other keys as they are. -/
theorem lookup_mergeMember_of_ne {k : Text} (hk : k ≠ key) (m : Merged) (v : Json) :
    lookup key (mergeMember m k v).members = lookup key m.members := by
  rcases mergeMember_cases m k v with ⟨w, h⟩ | h
  · rw [h, lookup_set, if_neg hk]
  · rw [h]

/-- A step with the key of a member merges the value over it. -/
theorem lookup_mergeMember (h : lookup key m.members = some b) (v : Json) :
    lookup key (mergeMember m key v).members = some (mergeValue b v) := by
  cases v with
  | object ms =>
      rw [mergeMember, isBackground_eq_false h, find?_eq_some h]
      cases b <;> simp [lookup_set, mergeValue, merge]
  | _ => simp [mergeMember, isBackground_eq_false h, lookup_set, mergeValue]

end Merged

/-- A key without a member finds nothing. -/
theorem lookup_eq_none {α : Type} {members : List (Text × α)} (h : key ∉ members.map Prod.fst) :
    lookup key members = none := by
  cases hfound : lookup key members with
  | none => rfl
  | some v => exact absurd (List.mem_map_of_mem (mem_of_lookup hfound)) h

theorem lookup_mergeMembers (ms : List (Text × Json)) :
    ∀ (m : Merged) (b : Json), (ms.map Prod.fst).Nodup → lookup key m.members = some b →
      lookup key (mergeMembers m ms).members =
        some ((lookup key ms).elim b fun v => mergeValue b v) := by
  induction ms with
  | nil =>
      intro m b _ h
      rw [mergeMembers]
      exact h
  | cons member rest ih =>
      intro m b hkeys h
      obtain ⟨k, v⟩ := member
      obtain ⟨hk, hrest⟩ := List.nodup_cons.mp hkeys
      rw [mergeMembers]
      by_cases hkey : k = key
      · subst hkey
        rw [ih _ _ hrest (Merged.lookup_mergeMember h v), lookup_eq_none hk]
        simp [lookup]
      · rw [ih _ b hrest ((Merged.lookup_mergeMember_of_ne hkey m v).trans h)]
        simp [lookup, hkey]

/-- A member of the first object in the merged one. -/
theorem lookup_merge (hkeys : (ms.map Prod.fst).Nodup) (h : lookup key base = some b) :
    lookup key (merge base ms) = some ((lookup key ms).elim b fun v => mergeValue b v) :=
  lookup_mergeMembers ms ⟨base, []⟩ b hkeys h

/-- The end of a path of the first object in the merged one: what the second object has in that
    place, or what the first has when the second has nothing there. -/
theorem at?_merge {leaf : Json} (hleaf : leaf.isObject = false) :
    ∀ (path : List String) (base ms : List (Text × Json)),
      (Json.object ms).Proper → (Json.object base).at? path = some leaf →
      (Json.object (merge base ms)).at? path = (Json.object ms).at? path ∨
        ((Json.object ms).at? path = none ∧ (Json.object (merge base ms)).at? path = some leaf)
  | [], base, ms, _, hbase => by
      cases hbase
      cases hleaf
  | k :: path, base, ms, hms, hbase => by
      cases hms with
      | object _ hkeys hvalues =>
      obtain ⟨b, hb, hpath⟩ := Option.bind_eq_some_iff.mp hbase
      simp only [at?, get?] at hb ⊢
      rw [lookup_merge hkeys hb]
      cases hv : lookup (Text.ofString k) ms with
      | none => exact .inr ⟨rfl, hpath⟩
      | some v =>
          have hproper : v.Proper := hvalues _ (mem_of_lookup hv)
          simp only [Option.elim_some, Option.bind_some]
          cases b with
          | object bs =>
              cases v with
              | object vs => exact at?_merge hleaf path bs vs hproper hpath
              | _ => exact .inl rfl
          | _ => exact .inl rfl

end Json

end SceneScript
