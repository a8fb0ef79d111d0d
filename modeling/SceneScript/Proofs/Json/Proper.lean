import Mathlib.Data.List.Basic
import Mathlib.Data.List.Perm.Basic
import SceneScript.Json.Parser
import SceneScript.Proofs.Number.Rounding

/-!
# What a text of JSON can say

A number that is read is rounded, so it is one that double precision has. The members of an object
are kept under their keys, so no key comes twice. A value that has both properties in all its parts
is proper, and everything that is read is.

* **`Json.Proper`** — numbers of the format, and each key once.
* **`Json.proper_ofMembers`** — objects from members as they are written.
* **`Json.proper_parse`** — what is read.
-/

namespace SceneScript

namespace Json

/-- The numbers are of the format, and no object has two members under one key. -/
inductive Proper : Json → Prop where
  | null : Proper .null
  | bool (b : Bool) : Proper (.bool b)
  | number (x : Binary64) : (∀ s n, x = .finite s n → binary64.Holds n) → Proper (.number x)
  | string (t : Text) : Proper (.string t)
  | array (items : List Json) : (∀ j ∈ items, Proper j) → Proper (.array items)
  | object (members : List (Text × Json)) :
      (members.map Prod.fst).Nodup → (∀ m ∈ members, Proper m.2) → Proper (.object members)

/-! ## Objects -/

section Members

variable {α : Type} {key k : Text} {value : α} {ms : List (Text × α)}

/-- A member that is found is there. -/
theorem mem_of_lookup {v : α} (h : lookup key ms = some v) : (key, v) ∈ ms := by
  obtain ⟨m, hm, rfl⟩ := Option.map_eq_some_iff.mp h
  have hkey : m.1 = key := by simpa using List.find?_some hm
  exact hkey ▸ List.mem_of_find?_eq_some hm

/-- A member that is written is found under its key, and no other one is lost. -/
theorem lookup_insertMember (key k : Text) (value : α) (ms : List (Text × α)) :
    lookup k (insertMember key value ms) = if key = k then some value else lookup k ms := by
  induction ms with
  | nil => by_cases h : key = k <;> simp [insertMember, lookup, h]
  | cons m ms ih =>
      obtain ⟨j, v⟩ := m
      rw [insertMember]
      by_cases hj : j = key
      · subst hj
        by_cases h : j = k <;> simp [lookup, h]
      · by_cases h : j = k
        · subst h
          simp [lookup, hj, Ne.symm hj]
        · simpa [lookup, hj, h] using ih

theorem mem_keys_insertMember :
    k ∈ (insertMember key value ms).map Prod.fst ↔ k = key ∨ k ∈ ms.map Prod.fst := by
  induction ms with
  | nil => simp [insertMember]
  | cons m ms ih =>
      obtain ⟨j, v⟩ := m
      rw [insertMember]
      split
      · next hj =>
          have : j = key := by simpa using hj
          subst this
          simp
      · rw [List.map_cons, List.mem_cons, ih, List.map_cons, List.mem_cons]
        exact or_left_comm

theorem nodup_insertMember (h : (ms.map Prod.fst).Nodup) :
    ((insertMember key value ms).map Prod.fst).Nodup := by
  induction ms with
  | nil => exact List.pairwise_singleton _ key
  | cons m ms ih =>
      obtain ⟨j, v⟩ := m
      obtain ⟨hj, hms⟩ := List.nodup_cons.mp h
      rw [insertMember]
      split
      · exact h
      · next hkey =>
          refine List.nodup_cons.mpr ⟨fun hmem => ?_, ih hms⟩
          rcases mem_keys_insertMember.mp hmem with rfl | hmem
          · exact hkey (beq_self_eq_true j)
          · exact hj hmem

theorem mem_insertMember {m : Text × α} (h : m ∈ insertMember key value ms) :
    m.2 = value ∨ m ∈ ms := by
  induction ms with
  | nil => exact .inl (congrArg Prod.snd (List.mem_singleton.mp h))
  | cons first ms ih =>
      obtain ⟨j, v⟩ := first
      rw [insertMember] at h
      split at h
      · rcases List.mem_cons.mp h with rfl | h
        · exact .inl rfl
        · exact .inr (List.mem_cons_of_mem _ h)
      · rcases List.mem_cons.mp h with rfl | h
        · exact .inr List.mem_cons_self
        · exact (ih h).imp id (List.mem_cons_of_mem _)

/-- Putting members in order neither loses nor adds one. -/
theorem orderMembers_perm (ms : List (Text × α)) : (orderMembers ms).Perm ms := by
  have hindexed : (ms.filterMap fun m => (arrayIndex? m.1).map fun i => (i, m)).map Prod.snd =
      ms.filter fun m => (arrayIndex? m.1).isSome := by
    rw [List.map_filterMap, ← List.filterMap_eq_filter]
    refine List.filterMap_congr fun m _ => ?_
    cases h : arrayIndex? m.1 <;> simp [Option.guard, h]
  rw [orderMembers]
  refine List.Perm.trans (List.Perm.append_right _
    ((List.mergeSort_perm _ _).map Prod.snd)) ?_
  rw [hindexed]
  have hrest : (ms.filter fun m => (arrayIndex? m.1).isNone) =
      ms.filter fun m => !(arrayIndex? m.1).isSome := by
    refine List.filter_congr fun m _ => ?_
    cases arrayIndex? m.1 <;> rfl
  rw [hrest]
  exact List.filter_append_perm _ ms

end Members

/-- An object has each key once, whatever is written. -/
theorem proper_ofMembers {ms : List (Text × Json)} (h : ∀ m ∈ ms, m.2.Proper) :
    (ofMembers ms).Proper := by
  have hfold : ∀ (ms acc : List (Text × Json)), (∀ m ∈ ms, m.2.Proper) →
      (acc.map Prod.fst).Nodup → (∀ m ∈ acc, m.2.Proper) →
      let all := ms.foldl (fun acc m => insertMember m.1 m.2 acc) acc
      (all.map Prod.fst).Nodup ∧ ∀ m ∈ all, m.2.Proper := by
    intro ms
    induction ms with
    | nil => exact fun acc _ hkeys hacc => ⟨hkeys, hacc⟩
    | cons m ms ih =>
        intro acc hms hkeys hacc
        obtain ⟨hm, hms⟩ := List.forall_mem_cons.mp hms
        refine ih _ hms (nodup_insertMember hkeys) fun x hx => ?_
        rcases mem_insertMember hx with hval | hx
        · rw [hval]
          exact hm
        · exact hacc x hx
  obtain ⟨hkeys, hvalues⟩ := hfold ms [] h List.nodup_nil fun _ hm => absurd hm List.not_mem_nil
  have hperm := orderMembers_perm (ms.foldl (fun acc m => insertMember m.1 m.2 acc) [])
  exact .object _ ((hperm.map Prod.fst).nodup_iff.mpr hkeys)
    fun m hm => hvalues m (hperm.mem_iff.mp hm)

/-! ## Reading -/

theorem holds_zero : binary64.Holds 0 := by
  obtain ⟨l, -, hlimit⟩ := limit_binary64
  exact ⟨Nat.dvd_zero _, hlimit ▸ Nat.two_pow_pos l⟩

/-- The number nearest to a decimal is one that the format has. -/
theorem holds_toBinary64 {negative s : Bool} {d : Decimal} {n : Nat}
    (h : d.toBinary64 negative = .finite s n) : binary64.Holds n := by
  rw [Decimal.toBinary64] at h
  have hround : ∀ num den, Binary64.ofRatio negative num den = .finite s n → binary64.Holds n :=
    fun num den h => (Format.round_holds (by decide) h).2
  have hzero : Binary64.finite negative 0 = .finite s n → binary64.Holds n := by
    intro h
    cases h
    exact holds_zero
  split at h
  · exact hzero h
  · split at h
    · cases h
    · split at h
      · exact hzero h
      · split at h
        · exact hround _ _ h
        · exact hround _ _ h

theorem proper_readJsonNumber {us rest : List UInt16} {j : Json}
    (h : readJsonNumber us = some (j, rest)) : j.Proper := by
  rw [readJsonNumber] at h
  dsimp only at h
  generalize (if us.head? == some 0x2D then us.drop 1 else us) = vs at h
  split at h
  · cases h
  · simp only [Option.bind_eq_bind, Option.bind_eq_some_iff] at h
    obtain ⟨_, -, _, -, h⟩ := h
    cases h
    exact .number _ fun _ _ hx => holds_toBinary64 hx

theorem proper_word {w : String} {us rest : List UInt16} {i j : Json} (hi : i.Proper)
    (h : (expectWord w us).map (fun r => (i, r)) = some (j, rest)) : j.Proper := by
  obtain ⟨r, -, hr⟩ := Option.map_eq_some_iff.mp h
  cases hr
  exact hi

/-- With some fuel nothing is read but what is proper: values, the items of arrays and the members of
    objects. -/
structure ReadsProper (fuel : Nat) : Prop where
  value   : ∀ us j rest, readValue fuel us = some (j, rest) → j.Proper
  items   : ∀ us items rest, readItems fuel us = some (items, rest) → ∀ j ∈ items, Proper j
  members : ∀ us ms rest, readMembers fuel us = some (ms, rest) → ∀ m ∈ ms, m.2.Proper

namespace ReadsProper

variable {fuel : Nat} {us rest : List UInt16}

theorem value_succ (ih : ReadsProper fuel) {j : Json}
    (h : readValue (fuel + 1) us = some (j, rest)) : j.Proper := by
  rw [readValue] at h
  split at h
  · cases h
  split at h
  · obtain ⟨_, -, h⟩ := Option.map_eq_some_iff.mp h
    cases h
    exact .string _
  split at h
  · split at h
    · split at h
      · cases h
        exact .array _ fun _ hj => absurd hj List.not_mem_nil
      · obtain ⟨_, hread, h⟩ := Option.map_eq_some_iff.mp h
        cases h
        exact .array _ (ih.items _ _ _ hread)
    · cases h
  split at h
  · split at h
    · split at h
      · cases h
        exact .object _ List.nodup_nil fun _ hm => absurd hm List.not_mem_nil
      · obtain ⟨_, hread, h⟩ := Option.map_eq_some_iff.mp h
        cases h
        exact proper_ofMembers (ih.members _ _ _ hread)
    · cases h
  split at h
  · exact proper_word .null h
  split at h
  · exact proper_word (.bool true) h
  split at h
  · exact proper_word (.bool false) h
  · exact proper_readJsonNumber h

theorem items_succ (ih : ReadsProper fuel) {items : List Json}
    (h : readItems (fuel + 1) us = some (items, rest)) : ∀ j ∈ items, Proper j := by
  rw [readItems] at h
  obtain ⟨_, hitem, h⟩ := Option.bind_eq_some_iff.mp h
  dsimp only at h
  split at h
  · split at h
    · cases h
      exact List.forall_mem_singleton.mpr (ih.value _ _ _ hitem)
    split at h
    · obtain ⟨_, hmore, h⟩ := Option.bind_eq_some_iff.mp h
      cases h
      exact List.forall_mem_cons.mpr ⟨ih.value _ _ _ hitem, ih.items _ _ _ hmore⟩
    · cases h
  · cases h

theorem members_succ (ih : ReadsProper fuel) {ms : List (Text × Json)}
    (h : readMembers (fuel + 1) us = some (ms, rest)) : ∀ m ∈ ms, m.2.Proper := by
  rw [readMembers] at h
  split at h
  · split at h
    · cases h
    obtain ⟨_, -, h⟩ := Option.bind_eq_some_iff.mp h
    dsimp only at h
    split at h
    · split at h
      · cases h
      obtain ⟨_, hvalue, h⟩ := Option.bind_eq_some_iff.mp h
      split at h
      · split at h
        · cases h
          exact List.forall_mem_singleton.mpr (ih.value _ _ _ hvalue)
        split at h
        · obtain ⟨_, hmore, h⟩ := Option.bind_eq_some_iff.mp h
          cases h
          exact List.forall_mem_cons.mpr ⟨ih.value _ _ _ hvalue, ih.members _ _ _ hmore⟩
        · cases h
      · cases h
    · cases h
  · cases h

end ReadsProper

theorem readsProper (fuel : Nat) : ReadsProper fuel := by
  induction fuel with
  | zero =>
      refine ⟨fun _ _ _ h => ?_, fun _ _ _ h => ?_, fun _ _ _ h => ?_⟩
      · rw [readValue] at h
        cases h
      · rw [readItems] at h
        cases h
      · rw [readMembers] at h
        cases h
  | succ fuel ih =>
      exact ⟨fun _ _ _ => ih.value_succ, fun _ _ _ => ih.items_succ, fun _ _ _ => ih.members_succ⟩

/-- Everything that a text of JSON says is proper. -/
theorem proper_parse {t : Text} {j : Json} (h : parse? t = some j) : j.Proper := by
  obtain ⟨⟨j', rest⟩, hread, hend⟩ := Option.bind_eq_some_iff.mp h
  have hj : j' = j := by
    dsimp only at hend
    split at hend
    · exact Option.some.inj hend
    · cases hend
  exact hj ▸ (readsProper _).value _ _ _ hread

end Json

end SceneScript
