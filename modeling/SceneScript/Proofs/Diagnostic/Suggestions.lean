import Mathlib.Data.List.Perm.Basic
import SceneScript.Builtin
import SceneScript.Proofs.Diagnostic.Merging
import SceneScript.Suggest
import SceneScript.Token.Lexer

/-!
# Suggestions depend on the names only

A hint proposes the nearest of the known names, and of equally near ones the first in dictionary
order. The dictionary order passes over some characters, so different texts can be equal in it;
but names are made of letters, digits and underscores of ASCII, and different names are never
equal. So a list of names has one best member, in whatever order it is written.

* **`Text.IsName`** — the text is made of the characters of names.
* **`Text.eq_of_collate`** — names that are equal in the dictionary order are the same.
* **`rankedNames`** — all names that may have been meant; **`pairwise_rankedNames`** — their order.
* **`didYouMean_congr`** — the hint is the same for all lists with the same names.
* **`suggestSimilar_nearest`** — which names are suggested.
-/

namespace SceneScript

/-- The text is made of letters, digits and underscores of ASCII. -/
def Text.IsName (t : Text) : Prop := ∀ u ∈ t.units, isNamePart u = true

theorem Builtin.isName (b : Builtin) : (Text.ofString b.word).IsName := by
  have hall : (Text.ofString b.word).units.all isNamePart = true := by
    cases b <;> decide +kernel
  exact List.all_eq_true.mp hall

/-! ## How names are spelt out -/

namespace Collation

/-- How a character of a name is spelt out: an underscore is a mark, a digit or a letter stands
    for itself, and a capital differs from its small letter in its form only. -/
def nameElement (u : UInt16) : Element :=
  if u.toNat = 0x5F then ⟨[Group.mark.rank, 10], plainAccent, .plain⟩
  else if 0x41 ≤ u.toNat ∧ u.toNat ≤ 0x5A then
    ⟨[Group.letter.rank, u.toNat + 0x20, 0], plainAccent, .capital⟩
  else ⟨[Group.letter.rank, u.toNat, 0], plainAccent, .plain⟩

theorem toNat_lt_of_isNamePart {u : UInt16} (h : isNamePart u = true) : u.toNat < 0x80 := by
  simp only [isNamePart, isNameStart, isDigitUnit, Bool.or_eq_true, Bool.and_eq_true,
    decide_eq_true_eq, UInt16.le_iff_toNat_le] at h
  rcases h with ((h | h) | rfl) | h
  · exact Nat.lt_of_le_of_lt h.2 (by decide)
  · exact Nat.lt_of_le_of_lt h.2 (by decide)
  · decide
  · exact Nat.lt_of_le_of_lt h.2 (by decide)

theorem asciiElement_name : ∀ n < 0x80, isNamePart (UInt16.ofNat n) = true →
    isPassedOver n = false ∧ asciiElement .plain .capital n = nameElement (UInt16.ofNat n) := by
  decide +kernel

theorem elements_name {u : UInt16} (h : isNamePart u = true) :
    elements u.toNat = [nameElement u] := by
  have hlt := toNat_lt_of_isNamePart h
  rw [← UInt16.ofNat_toNat (x := u)] at h
  obtain ⟨hpass, hascii⟩ := asciiElement_name u.toNat hlt h
  rw [elements, hpass, if_neg Bool.false_ne_true, if_pos hlt, hascii, UInt16.ofNat_toNat]

theorem codePoints_name (us : List UInt16) (h : ∀ u ∈ us, isNamePart u = true) :
    codePoints us = us.map UInt16.toNat := by
  induction us with
  | nil => rfl
  | cons u rest ih =>
      obtain ⟨hu, hrest⟩ := List.forall_mem_cons.mp h
      have hhigh : isHighHalf u = false := by
        have hlt := toNat_lt_of_isNamePart hu
        have hle : ¬0xD800 ≤ u := by
          rw [UInt16.le_iff_toNat_le, Nat.not_le]
          exact Nat.lt_trans hlt (by decide)
        simp [isHighHalf, hle]
      rw [List.map_cons, ← ih hrest]
      cases rest with
      | nil => rfl
      | cons v more => simp [codePoints, hhigh]

theorem spelled_name {t : Text} (h : t.IsName) : spelled t = t.units.map nameElement := by
  rw [spelled, codePoints_name t.units h, List.flatMap_map]
  have heach : ∀ u ∈ t.units, elements u.toNat = [nameElement u] := fun u hu =>
    elements_name (h u hu)
  rw [List.flatMap_congr heach]
  exact List.map_eq_flatMap.symm

/-! ## Names are told apart -/

theorem nameElement_cases (u : UInt16) :
    (u.toNat = 0x5F ∧ nameElement u = ⟨[Group.mark.rank, 10], plainAccent, .plain⟩) ∨
    nameElement u = ⟨[Group.letter.rank, u.toNat + 0x20, 0], plainAccent, .capital⟩ ∨
    nameElement u = ⟨[Group.letter.rank, u.toNat, 0], plainAccent, .plain⟩ := by
  rw [nameElement]
  split
  · exact .inl ⟨‹_›, rfl⟩
  · split
    · exact .inr (.inl rfl)
    · exact .inr (.inr rfl)

/-- What the places and the form of a character of a name tell: the character, and the places
    behind it. -/
theorem nameElement_inj {u v : UInt16} {x y : List Nat}
    (hplace : (nameElement u).place ++ x = (nameElement v).place ++ y)
    (hform : (nameElement u).form.rank = (nameElement v).form.rank) : u = v ∧ x = y := by
  have hcapital : Form.capital.rank ≠ Form.plain.rank := by decide
  have hgroup : Group.mark.rank ≠ Group.letter.rank := by decide
  rcases nameElement_cases u with ⟨hu, he⟩ | he | he <;>
    rcases nameElement_cases v with ⟨hv, he'⟩ | he' | he' <;>
    rw [he, he'] at hplace hform <;>
    simp only [List.cons_append, List.nil_append, List.cons.injEq, true_and] at hplace
  · exact ⟨UInt16.toNat_inj.mp (hu.trans hv.symm), hplace⟩
  · exact absurd hform.symm hcapital
  · exact absurd hplace.1 hgroup
  · exact absurd hform hcapital
  · exact ⟨UInt16.toNat_inj.mp (Nat.add_right_cancel hplace.1), hplace.2⟩
  · exact absurd hform hcapital
  · exact absurd hplace.1.symm hgroup
  · exact absurd hform.symm hcapital
  · exact ⟨UInt16.toNat_inj.mp hplace.1, hplace.2⟩

theorem compareKeys_eq_eq {a b : List Nat} (h : compareKeys a b = .eq) : a = b := by
  rw [compareKeys_eq] at h
  exact Std.LawfulEqCmp.eq_of_compare h

/-- Names that are spelt alike are the same. -/
theorem nameElements_inj (us : List UInt16) : ∀ vs : List UInt16,
    (us.map nameElement).flatMap Element.place = (vs.map nameElement).flatMap Element.place →
    (us.map nameElement).map (fun e => e.form.rank) =
      (vs.map nameElement).map (fun e => e.form.rank) → us = vs := by
  induction us with
  | nil =>
      intro vs _ hform
      cases vs with
      | nil => rfl
      | cons v vs => cases hform
  | cons u us ih =>
      intro vs hplace hform
      cases vs with
      | nil => cases hform
      | cons v vs =>
          simp only [List.map_cons, List.flatMap_cons, List.cons.injEq] at hplace hform
          obtain ⟨rfl, hrest⟩ := nameElement_inj hplace hform.1
          rw [ih vs hrest hform.2]

end Collation

/-- In the dictionary order no two names are equal. -/
theorem Text.eq_of_collate {a b : Text} (ha : a.IsName) (hb : b.IsName)
    (h : a.collate b = .eq) : a = b := by
  rw [collate, Collation.compareElements, Collation.spelled_name ha, Collation.spelled_name hb,
    Ordering.then_eq_eq, Ordering.then_eq_eq] at h
  obtain ⟨hplace, -, hform⟩ := h
  have hunits := Collation.nameElements_inj a.units b.units
    (Collation.compareKeys_eq_eq hplace) (Collation.compareKeys_eq_eq hform)
  exact congrArg Text.mk hunits

/-! ## The best name -/

theorem mem_distinctBy_id {α : Type} [DecidableEq α] {seen items : List α} {x : α} :
    x ∈ distinctBy id seen items ↔ x ∈ items ∧ x ∉ seen := by
  constructor
  · intro h
    exact ⟨(distinctBy_sublist id items seen).subset h, (distinctBy_nodup id items seen).2 x h⟩
  · rintro ⟨hx, hseen⟩
    rcases distinctBy_key id items seen x hx with h | ⟨y, hy, rfl, -⟩
    · exact absurd h hseen
    · exact hy

theorem nodup_distinctBy_id {α : Type} [DecidableEq α] (seen items : List α) :
    (distinctBy id seen items).Nodup := by
  have hkeys := (distinctBy_nodup id items seen).1
  rwa [List.map_id] at hkeys

/-- What is kept of a list depends on its members only. -/
theorem distinctBy_id_perm {α : Type} [DecidableEq α] {a b : List α} (h : ∀ x, x ∈ a ↔ x ∈ b)
    (seen : List α) : (distinctBy id seen a).Perm (distinctBy id seen b) := by
  refine (List.perm_ext_iff_of_nodup (nodup_distinctBy_id seen a)
    (nodup_distinctBy_id seen b)).mpr fun x => ?_
  rw [mem_distinctBy_id, mem_distinctBy_id, h]

/-- Comparing by distance, then by the dictionary. -/
def nearness (typo a b : Text) : Ordering :=
  (compare (editDistance typo a) (editDistance typo b)).then (a.collate b)

instance (typo : Text) : Std.TransCmp (nearness typo) := by
  have hdistance := transCmp_view (compare : Nat → Nat → Ordering) fun t => editDistance typo t
  exact inferInstanceAs (Std.TransCmp (compareLex _ Text.collate))

/-- Sorting names by nearness leaves no choice. -/
theorem mergeSort_nearer (typo : Text) {a b : List Text} (h : a.Perm b)
    (hn : ∀ t ∈ a, t.IsName) : a.mergeSort (nearer typo) = b.mergeSort (nearer typo) := by
  have hsorted : ∀ names : List Text,
      (names.mergeSort (nearer typo)).Pairwise fun s t => nearer typo s t = true :=
    List.pairwise_mergeSort (bne_gt_trans (nearness typo)) (bne_gt_total (nearness typo))
  have hperm := ((List.mergeSort_perm a (nearer typo)).trans h).trans
    (List.mergeSort_perm b (nearer typo)).symm
  refine List.Perm.eq_of_pairwise (fun s t hs ht hst hts => ?_) (hsorted a) (hsorted b) hperm
  have hs := hn s (List.mem_mergeSort.mp hs)
  have ht := hn t (h.mem_iff.mpr (List.mem_mergeSort.mp ht))
  have heq : nearness typo s t = .eq := eq_of_bne_gt (nearness typo) hst hts
  exact Text.eq_of_collate hs ht (Ordering.then_eq_eq.mp heq).2

/-! ## All suggestions -/

/-- All names that may have been meant, the nearest first. -/
def rankedNames (typo : Text) (known : List Text) : List Text :=
  ((distinctBy id [typo] known).filter (isSimilar typo)).mergeSort (nearer typo)

/-- The name is nearer to the misspelt one, or as near and earlier in the dictionary. -/
def Text.IsNearer (typo s t : Text) : Prop :=
  editDistance typo s < editDistance typo t ∨
    editDistance typo s = editDistance typo t ∧ s.collate t = .lt

variable {typo t : Text} {known known' : List Text}

theorem mem_rankedNames :
    t ∈ rankedNames typo known ↔ t ∈ known ∧ t ≠ typo ∧ isSimilar typo t = true := by
  rw [rankedNames, List.mem_mergeSort, List.mem_filter, mem_distinctBy_id, List.mem_singleton,
    and_assoc]

theorem nodup_rankedNames (typo : Text) (known : List Text) : (rankedNames typo known).Nodup :=
  (List.mergeSort_perm _ _).nodup_iff.mpr ((nodup_distinctBy_id [typo] known).filter _)

theorem nearness_lt {s : Text} (h : nearness typo s t = .lt) : typo.IsNearer s t := by
  rw [nearness, Ordering.then_eq_lt, Nat.compare_eq_lt, Nat.compare_eq_eq] at h
  exact h

/-- Each name is nearer than those behind it. -/
theorem pairwise_rankedNames (hn : ∀ t ∈ known, t.IsName) :
    (rankedNames typo known).Pairwise typo.IsNearer := by
  have hsorted : (rankedNames typo known).Pairwise fun s t => nearer typo s t = true :=
    List.pairwise_mergeSort (bne_gt_trans (nearness typo)) (bne_gt_total (nearness typo)) _
  refine (hsorted.and (nodup_rankedNames typo known)).imp_of_mem fun {s t} hs ht hst => ?_
  -- Different names are not equally near, as the dictionary tells them apart.
  have hne : nearness typo s t ≠ .eq := fun heq =>
    hst.2 (Text.eq_of_collate (hn s (mem_rankedNames.mp hs).1) (hn t (mem_rankedNames.mp ht).1)
      (Ordering.then_eq_eq.mp heq).2)
  have hle : nearness typo s t ≠ .gt := bne_iff_ne.mp hst.1
  refine nearness_lt ?_
  cases h : nearness typo s t with
  | lt => rfl
  | eq => exact absurd h hne
  | gt => exact absurd h hle

/-- The names that may have been meant depend on the members of the list only. -/
theorem rankedNames_congr (typo : Text) (h : ∀ t, t ∈ known ↔ t ∈ known')
    (hn : ∀ t ∈ known, t.IsName) : rankedNames typo known = rankedNames typo known' :=
  mergeSort_nearer typo ((distinctBy_id_perm h [typo]).filter (isSimilar typo)) fun t ht =>
    hn t (mem_distinctBy_id.mp (List.mem_filter.mp ht).1).1

theorem suggestSimilar_eq (typo : Text) (known : List Text) (limit : Int) :
    suggestSimilar typo known limit = takeUpTo limit (rankedNames typo known) := rfl

/-- The hint does not depend on the order in which the known names are listed, nor on how often. -/
theorem didYouMean_congr (typo : Text) (h : ∀ t, t ∈ known ↔ t ∈ known')
    (hn : ∀ t ∈ known, t.IsName) : didYouMean typo known = didYouMean typo known' := by
  rw [didYouMean, didYouMean, suggestSimilar_eq, suggestSimilar_eq, rankedNames_congr typo h hn]

/-- The hint names the first of the names that may have been meant. -/
theorem didYouMean_of_ranked {best : Text} {rest : List Text}
    (h : rankedNames typo known = best :: rest) (hne : best.isEmpty = false) :
    didYouMean typo known = some (meantHint best) := by
  have hfirst : suggestSimilar typo known 1 = [best] := by
    rw [suggestSimilar_eq, h]
    rfl
  rw [didYouMean, hfirst]
  simp only [hne, Bool.false_eq_true, if_false]

/-- The suggestions for a misspelt name are the first of the known names that are similar to it, each
    once and the nearest first, where of equally near ones the one that is earlier in the dictionary
    comes first. They are the same for every list with the same names, in whatever order and however
    often it has them; and if there is a similar name, the hint is one to which no other is nearer. -/
theorem suggestSimilar_nearest (typo : Text) (known : List Text)
    (hknown : ∀ t ∈ known, t.IsName ∧ t.isEmpty = false) :
    (∃ ranked : List Text, ranked.Nodup ∧
      (∀ t, t ∈ ranked ↔ t ∈ known ∧ t ≠ typo ∧ isSimilar typo t = true) ∧
      (ranked.Pairwise fun s t => editDistance typo s < editDistance typo t ∨
        editDistance typo s = editDistance typo t ∧ s.collate t = .lt) ∧
      ∀ k : Nat, suggestSimilar typo known k = ranked.take k) ∧
    (∀ known' : List Text, (∀ t, t ∈ known' ↔ t ∈ known) → ∀ k : Nat,
      suggestSimilar typo known' k = suggestSimilar typo known k) ∧
    ∀ t ∈ known, t ≠ typo → isSimilar typo t = true →
      ∃ best ∈ known, best ≠ typo ∧ isSimilar typo best = true ∧
        didYouMean typo known = some (meantHint best) ∧
        ∀ s ∈ known, s ≠ typo → isSimilar typo s = true →
          editDistance typo best ≤ editDistance typo s := by
  have hnames : ∀ t ∈ known, t.IsName := fun t ht => (hknown t ht).1
  have hpairwise : (rankedNames typo known).Pairwise typo.IsNearer := pairwise_rankedNames hnames
  refine ⟨⟨rankedNames typo known, nodup_rankedNames typo known, fun _ => mem_rankedNames,
    hpairwise, fun k => ?_⟩, fun known' hsame k => ?_, fun t ht hne hsimilar => ?_⟩
  · rw [suggestSimilar_eq, takeUpTo, if_neg (by omega), Int.toNat_natCast]
  · rw [suggestSimilar_eq, suggestSimilar_eq,
      rankedNames_congr typo (fun t => (hsame t).symm) hnames]
  · cases hranked : rankedNames typo known with
    | nil =>
        have hmem := mem_rankedNames.mpr ⟨ht, hne, hsimilar⟩
        rw [hranked] at hmem
        cases hmem
    | cons best rest =>
        have hfirst : best ∈ rankedNames typo known := hranked ▸ List.mem_cons_self
        obtain ⟨hbest, hbestne, hbestsimilar⟩ := mem_rankedNames.mp hfirst
        refine ⟨best, hbest, hbestne, hbestsimilar,
          didYouMean_of_ranked hranked (hknown best hbest).2, fun s hs hsne hssimilar => ?_⟩
        have hmem := mem_rankedNames.mpr ⟨hs, hsne, hssimilar⟩
        rw [hranked] at hmem hpairwise
        rcases List.mem_cons.mp hmem with rfl | hmem
        · exact Nat.le_refl _
        · rcases (List.pairwise_cons.mp hpairwise).1 s hmem with hlt | ⟨heq, -⟩
          · exact Nat.le_of_lt hlt
          · exact Nat.le_of_eq heq

/-- Two names are equally near, one is listed twice, and one is the misspelt name itself. -/
theorem suggestSimilar_nearest_twice :
    let known : List Text := ["speeds", "spend", "sped", "speed", "spend"]
    (∀ t ∈ known, t.IsName ∧ t.isEmpty = false) ∧
    suggestSimilar "sped" known 2 = (["speed", "spend"] : List Text) ∧
    (∃ ranked : List Text, ranked.Nodup ∧ Text.ofString "speed" ∈ ranked ∧
      ∀ k : Nat, suggestSimilar "sped" known k = ranked.take k) ∧
    (∀ k : Nat, suggestSimilar "sped" ["spend", "speed", "sped", "speeds"] k =
      suggestSimilar "sped" known k) ∧
    ∃ best ∈ known, best ≠ "sped" ∧
      didYouMean "sped" known = some (meantHint best) ∧
      editDistance "sped" best ≤ editDistance "sped" "spend" := by
  intro known
  have hknown : ∀ t ∈ known, t.IsName ∧ t.isEmpty = false := by
    have hall : known.all (fun t => t.units.all isNamePart && !t.isEmpty) = true := by decide +kernel
    intro t ht
    have ht := List.all_eq_true.mp hall t ht
    rw [Bool.and_eq_true, Bool.not_eq_true'] at ht
    exact ⟨List.all_eq_true.mp ht.1, ht.2⟩
  have hsimilar : (distinctBy id [Text.ofString "sped"] known).filter (isSimilar "sped") =
      (["spend", "speed"] : List Text) := by decide +kernel
  have hswap : nearer "sped" "spend" "speed" = false := by decide +kernel
  have htwo : suggestSimilar "sped" known 2 = (["speed", "spend"] : List Text) := by
    rw [suggestSimilar, hsimilar]
    simp [List.mergeSort, List.MergeSort.Internal.splitInTwo, hswap, takeUpTo]
  obtain ⟨⟨ranked, hnodup, hmem, -, htake⟩, hsame, hbest⟩ :=
    suggestSimilar_nearest "sped" known hknown
  obtain ⟨⟨hspend, hspendne, hspends⟩, hspeed⟩ :
      (Text.ofString "spend" ∈ known ∧ Text.ofString "spend" ≠ "sped" ∧
        isSimilar "sped" "spend" = true) ∧
      Text.ofString "speed" ∈ known ∧ Text.ofString "speed" ≠ "sped" ∧
        isSimilar "sped" "speed" = true := by decide +kernel
  obtain ⟨best, hbestmem, hne, -, hhint, hleast⟩ := hbest "spend" hspend hspendne hspends
  refine ⟨hknown, htwo, ⟨ranked, hnodup, (hmem _).mpr hspeed, htake⟩, hsame _ fun t => ?_, best,
    hbestmem, hne, hhint, hleast "spend" hspend hspendne hspends⟩
  simp only [known, List.mem_cons, List.not_mem_nil, or_false]
  grind

end SceneScript
