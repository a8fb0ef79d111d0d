import SceneScript.Proofs.Diagnostic.Order
import SceneScript.Proofs.Text.Shown
import SceneScript.Proofs.Typing.Accepted

/-!
# Repetitions and the cap

Two diagnostics say the same thing when they agree in code, severity, place and message. They are
compared by one text with bars in it; as no bar is in a code, in the word for a severity or in a
number, nothing but these is told by the text. The cap takes errors first, and warnings as far as
there is room behind all of them.

* **`Diagnostic.identity`** — what two diagnostics that say the same thing agree in.
* **`Diagnostic.identity_eq_of_key`** — the text tells no more, for diagnostics with codes.
* **`dedupeDiagnostics_spec`** — every diagnostic is represented by exactly one.
* **`capDiagnostics_spec`** — what the cap keeps.
-/

namespace SceneScript

/-! ## Keys -/

/-- What two diagnostics that say the same thing agree in. -/
def Diagnostic.identity (d : Diagnostic) : String × Severity × Nat × Nat × Text :=
  (d.code, d.severity, d.span.start.offset, d.span.stop.offset, d.message)

/-- What stands in front of the first bar is told by the whole. -/
theorem append_bar_inj {α : Type} {bar : α} : ∀ {a b r r' : List α}, bar ∉ a → bar ∉ b →
    a ++ bar :: r = b ++ bar :: r' → a = b ∧ r = r'
  | [], [], _, _, _, _, h => ⟨rfl, (List.cons.inj h).2⟩
  | [], c :: _, _, _, _, hb, h => absurd ((List.cons.inj h).1 ▸ List.mem_cons_self) hb
  | c :: _, [], _, _, ha, _, h => absurd ((List.cons.inj h).1 ▸ List.mem_cons_self) ha
  | c :: a, d :: b, r, r', ha, hb, h => by
      obtain ⟨rfl, htail⟩ := List.cons.inj h
      obtain ⟨rfl, hr⟩ := append_bar_inj (fun hm => ha (List.mem_cons_of_mem c hm))
        (fun hm => hb (List.mem_cons_of_mem c hm)) htail
      exact ⟨rfl, hr⟩

/-- No bar is in a string of characters that have one unit each. -/
def Barless (s : String) : Prop := ∀ c ∈ s.toList, c.toNat < 0x10000 ∧ c ≠ '|'

instance (s : String) : Decidable (Barless s) :=
  List.decidableBAll (fun c : Char => c.toNat < 0x10000 ∧ c ≠ '|') s.toList

namespace Barless

variable {s t : String}

theorem bar_notMem (h : Barless s) : unitOf '|' ∉ (Text.ofString s).units := by
  rw [units_ofString fun c hc => (h c hc).1]
  intro hbar
  obtain ⟨c, hc, hunit⟩ := List.mem_map.mp hbar
  refine (h c hc).2 ?_
  rw [← ofNat_unitOf (h c hc).1, hunit]
  decide

theorem eq_of_units (hs : Barless s) (ht : Barless t)
    (h : (Text.ofString s).units = (Text.ofString t).units) : s = t :=
  eq_of_units_ofString (fun c hc => (hs c hc).1) (fun c hc => (ht c hc).1) h

end Barless

theorem barless_of_isDigit {c : Char} (h : c.isDigit = true) : c.toNat < 0x10000 ∧ c ≠ '|' := by
  have hbounds : 48 ≤ c.toNat ∧ c.toNat ≤ 57 := Char.isDigit_iff_toNat.mp h
  refine ⟨by omega, ?_⟩
  rintro rfl
  revert h
  decide

theorem barless_repr (n : Nat) : Barless n.repr := by
  intro c hc
  rw [Nat.repr_eq_ofList_toDigits, String.toList_ofList] at hc
  exact barless_of_isDigit (Nat.isDigit_of_mem_toDigits (by decide) (by decide) hc)

theorem Severity.barless_word (s : Severity) : Barless s.word := by
  cases s <;> decide

theorem eq_of_repr {m n : Nat} (h : m.repr = n.repr) : m = n := by
  rw [Nat.repr_eq_ofList_toDigits, Nat.repr_eq_ofList_toDigits, String.ofList_inj] at h
  rw [← Nat.ofDigitChars_ten_toDigits (n := m), h, Nat.ofDigitChars_ten_toDigits]

namespace Diagnostic

theorem Coded.barless {d : Diagnostic} (h : d.Coded) : Barless d.code := by
  obtain ⟨x, y, z, hcode, hx, hy, hz⟩ := isCode_cases h
  intro c hc
  rw [hcode] at hc
  simp only [List.mem_cons, List.not_mem_nil, or_false] at hc
  rcases hc with rfl | rfl | rfl | rfl
  · cases d.severity <;> decide
  · exact barless_of_isDigit hx
  · exact barless_of_isDigit hy
  · exact barless_of_isDigit hz

theorem key_eq_of_identity {d e : Diagnostic} (h : d.identity = e.identity) : d.key = e.key := by
  simp only [identity, Prod.mk.injEq] at h
  obtain ⟨hcode, hsev, hstart, hstop, hmessage⟩ := h
  rw [key, key, hcode, hsev, hstart, hstop, hmessage]

/-- Diagnostics with codes that have the same key say the same thing. -/
theorem identity_eq_of_key {d e : Diagnostic} (hd : d.Coded) (he : e.Coded) (h : d.key = e.key) :
    d.identity = e.identity := by
  have hkey := congrArg Text.units h
  rw [key_units, key_units] at hkey
  obtain ⟨hcode, hkey⟩ := append_bar_inj hd.barless.bar_notMem he.barless.bar_notMem hkey
  obtain ⟨hword, hkey⟩ := append_bar_inj d.severity.barless_word.bar_notMem
    e.severity.barless_word.bar_notMem hkey
  obtain ⟨hstart, hkey⟩ := append_bar_inj (barless_repr _).bar_notMem (barless_repr _).bar_notMem hkey
  obtain ⟨hstop, hmessage⟩ := append_bar_inj (barless_repr _).bar_notMem (barless_repr _).bar_notMem
    hkey
  have hseverity : d.severity = e.severity := by
    have hsame := d.severity.barless_word.eq_of_units e.severity.barless_word hword
    revert hsame
    cases d.severity <;> cases e.severity <;> decide
  have hnumber : ∀ {m n : Nat}, (Text.ofString m.repr).units = (Text.ofString n.repr).units →
      m = n := fun hunits => eq_of_repr ((barless_repr _).eq_of_units (barless_repr _) hunits)
  simp only [identity, Prod.mk.injEq]
  exact ⟨hd.barless.eq_of_units he.barless hcode, hseverity, hnumber hstart, hnumber hstop,
    congrArg Text.mk hmessage⟩

end Diagnostic

/-! ## Repetitions -/

theorem distinctBy_sublist {α κ : Type} [DecidableEq κ] (key : α → κ) (items : List α) :
    ∀ seen : List κ, (distinctBy key seen items).Sublist items := by
  induction items with
  | nil => exact fun _ => .slnil
  | cons x rest ih =>
      intro seen
      rw [distinctBy]
      split
      · exact (ih seen).cons x
      · exact (ih (key x :: seen)).cons_cons x

/-- No key comes twice, and none that was seen comes at all. -/
theorem distinctBy_nodup {α κ : Type} [DecidableEq κ] (key : α → κ) (items : List α) :
    ∀ seen : List κ, ((distinctBy key seen items).map key).Nodup ∧
      ∀ x ∈ distinctBy key seen items, key x ∉ seen := by
  induction items with
  | nil => exact fun _ => ⟨.nil, fun _ hx => absurd hx List.not_mem_nil⟩
  | cons x rest ih =>
      intro seen
      rw [distinctBy]
      split
      · exact ih seen
      · next hx =>
          obtain ⟨hnodup, hfresh⟩ := ih (key x :: seen)
          refine ⟨List.nodup_cons.mpr ⟨fun hmem => ?_, hnodup⟩, fun y hy => ?_⟩
          · obtain ⟨y, hy, hk⟩ := List.mem_map.mp hmem
            exact hfresh y hy (hk ▸ List.mem_cons_self)
          · rcases List.mem_cons.mp hy with rfl | hy
            · exact hx
            · exact fun hs => hfresh y hy (List.mem_cons_of_mem _ hs)

/-- Of diagnostics that say the same thing exactly one is left. -/
theorem dedupeDiagnostics_spec {list : List Diagnostic} (h : ∀ d ∈ list, d.Coded) :
    (∀ d ∈ dedupeDiagnostics list, d ∈ list) ∧
    ((dedupeDiagnostics list).map Diagnostic.identity).Nodup ∧
    ∀ d ∈ list, ∃ e ∈ dedupeDiagnostics list, e.identity = d.identity := by
  have hsorted : ∀ d, d ∈ sortDiagnostics list ↔ d ∈ list := fun d => List.mem_mergeSort
  have hsub : ∀ d ∈ dedupeDiagnostics list, d ∈ list := fun d hd =>
    (hsorted d).mp ((distinctBy_sublist Diagnostic.key _ []).subset hd)
  refine ⟨hsub, ?_, fun d hd => ?_⟩
  · have hkeys := List.pairwise_map.mp (distinctBy_nodup Diagnostic.key (sortDiagnostics list) []).1
    exact List.pairwise_map.mpr (hkeys.imp fun hne h => hne (Diagnostic.key_eq_of_identity h))
  · rcases distinctBy_key Diagnostic.key (sortDiagnostics list) [] d ((hsorted d).mpr hd) with
      hs | ⟨e, he, hk, hel⟩
    · cases hs
    · exact ⟨e, he, Diagnostic.identity_eq_of_key (h e ((hsorted e).mp hel)) (h d hd) hk⟩

/-! ## The cap -/

/-- The cap sorts what it keeps: a part of the list, as long as there is room for, which holds all
    errors as soon as it holds a warning. -/
theorem capDiagnostics_cases (list : List Diagnostic) (n : Nat) :
    ∃ kept all, capDiagnostics list n = sortDiagnostics kept ∧ kept.Sublist all ∧
      all.Perm list ∧ kept.length = min n list.length ∧
      ∀ w ∈ kept, w.isError = false → ∀ e ∈ list, e.isError = true → e ∈ kept := by
  rw [capDiagnostics]
  dsimp only [Int.toNat_natCast]
  split
  · next hle =>
      exact ⟨list, list, rfl, .refl _, .refl _, by omega, fun _ _ _ e he _ => he⟩
  · next hgt =>
      have hperm := List.filter_append_perm Diagnostic.isError list
      have hlen : (list.filter Diagnostic.isError).length +
          (list.filter fun d => !d.isError).length = list.length := by
        rw [← List.length_append, hperm.length_eq]
      refine ⟨_, _, rfl, ?_, hperm, ?_, ?_⟩
      · simp only [List.flatten_cons, List.flatten_nil, List.append_nil]
        exact (List.take_sublist _ _).append (List.take_sublist _ _)
      · simp only [List.flatten_cons, List.flatten_nil, List.append_nil, List.length_append,
          List.length_take]
        omega
      · intro w hw hwarning e he herror
        simp only [List.flatten_cons, List.flatten_nil, List.append_nil, List.mem_append] at hw ⊢
        -- A warning is there only when there was room behind all errors.
        have hroom : (list.filter Diagnostic.isError).length ≤ n := by
          rcases hw with hw | hw
          · have := (List.mem_filter.mp (List.mem_of_mem_take hw)).2
            rw [hwarning] at this
            cases this
          · have := List.length_pos_of_mem hw
            simp only [List.length_take] at this
            omega
        refine .inl ?_
        rw [List.take_of_length_le hroom]
        exact List.mem_filter.mpr ⟨he, herror⟩

/-- What the cap keeps, in order: as much as there is room for, nothing new and nothing twice; and
    with a warning all errors. -/
theorem capDiagnostics_spec {list : List Diagnostic} (hcoded : ∀ d ∈ list, d.Coded)
    (hnodup : (list.map Diagnostic.identity).Nodup) (n : Nat) :
    (capDiagnostics list n).Pairwise Diagnostic.Before ∧
    ((capDiagnostics list n).map Diagnostic.identity).Nodup ∧
    (∀ d ∈ capDiagnostics list n, d ∈ list) ∧
    (capDiagnostics list n).length = min n list.length ∧
    ∀ w ∈ capDiagnostics list n, w.isError = false →
      ∀ e ∈ list, e.isError = true → e ∈ capDiagnostics list n := by
  obtain ⟨kept, all, hcap, hsome, hperm, hlength, herrors⟩ := capDiagnostics_cases list n
  have hsorted : (sortDiagnostics kept).Perm kept := List.mergeSort_perm _ _
  have hmem : ∀ d, d ∈ sortDiagnostics kept ↔ d ∈ kept := fun d => hsorted.mem_iff
  have hlist : ∀ d ∈ kept, d ∈ list := fun d hd => hperm.subset (hsome.subset hd)
  rw [hcap]
  refine ⟨?_, ?_, fun d hd => hlist d ((hmem d).mp hd), ?_, fun w hw hwarning e he herror => ?_⟩
  · exact pairwise_sortDiagnostics fun d hd => hcoded d (hlist d hd)
  · have hall : (all.map Diagnostic.identity).Nodup := (hperm.map _).nodup_iff.mpr hnodup
    exact (hsorted.map _).nodup_iff.mpr ((hsome.map _).nodup hall)
  · rw [hsorted.length_eq, hlength]
  · exact (hmem e).mpr (herrors w ((hmem w).mp hw) hwarning e he herror)

/-- The cap keeps an error of a list with errors as soon as there is room for one diagnostic. -/
theorem hasErrors_capDiagnostics (list : List Diagnostic) {n : Nat} (hn : 0 < n) :
    hasErrors (capDiagnostics list n) = hasErrors list := by
  obtain ⟨kept, all, hcap, hsome, hperm, hlength, herrors⟩ := capDiagnostics_cases list n
  have hmem : ∀ d, d ∈ sortDiagnostics kept ↔ d ∈ kept := fun d => List.mem_mergeSort
  rw [hcap, hasErrors, hasErrors, Bool.eq_iff_iff, List.any_eq_true, List.any_eq_true]
  constructor
  · rintro ⟨d, hd, herror⟩
    exact ⟨d, hperm.subset (hsome.subset ((hmem d).mp hd)), herror⟩
  · rintro ⟨e, he, herror⟩
    have hroom : 0 < kept.length := by
      have := List.length_pos_of_mem he
      omega
    obtain ⟨d, hd⟩ := List.exists_mem_of_length_pos hroom
    cases hd' : d.isError with
    | true => exact ⟨d, (hmem d).mpr hd, hd'⟩
    | false => exact ⟨e, (hmem e).mpr (herrors d hd hd' e he herror), herror⟩

end SceneScript
