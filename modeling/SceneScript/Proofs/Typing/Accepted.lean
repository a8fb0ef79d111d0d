import SceneScript.Analysis
import SceneScript.Proofs.Syntax.Parsed
import SceneScript.Proofs.Typing.Sound

/-!
# A script that compiles is well typed

The diagnostics of all stages are sorted and freed of repetitions before anyone looks for an
error among them. A repetition is recognised by a key that begins with the code, and codes of
errors and codes of warnings begin with different letters; so no error is lost, and a script
that compiles was checked without a problem.

* **`Script.Accepted`** — the script is the result of a successful `compile`.
* **`Script.Accepted.wellTyped`** — its tables obey the typing rules.
-/

namespace SceneScript

/-! ## No error is lost -/

/-- A key is made of the code, the severity, the place and the message, with bars between them. -/
theorem Diagnostic.key_units (d : Diagnostic) :
    d.key.units = (Text.ofString d.code).units ++ unitOf '|' ::
      ((Text.ofString d.severity.word).units ++ unitOf '|' ::
        ((Text.ofString d.span.start.offset.repr).units ++ unitOf '|' ::
          ((Text.ofString d.span.stop.offset.repr).units ++ unitOf '|' :: d.message.units))) := by
  have hbar : encodeChar '|' = [unitOf '|'] := rfl
  show (Text.ofString _).units ++ _ = _
  simp [Text.ofString, toString, String.toList_append, hbar]

/-- The letter that a key begins with is the one that the code begins with. -/
theorem Diagnostic.key_head {d : Diagnostic} {c : Char} (h : d.code.toList.head? = some c)
    (hc : c.toNat < 0x10000) : d.key.units.head? = some (unitOf c) := by
  obtain ⟨rest, hcode⟩ := List.head?_eq_some_iff.mp h
  rw [key_units, Text.ofString, hcode, List.flatMap_cons, encodeChar, if_pos hc]
  rfl

/-- Codes of errors begin with `E`, codes of warnings with `W`. -/
def Diagnostic.Lettered (d : Diagnostic) : Prop :=
  d.code.toList.head? = some (if d.isError then 'E' else 'W')

/-- Diagnostics with one key are both errors or both warnings. -/
theorem Diagnostic.Lettered.isError_eq {d e : Diagnostic} (hd : d.Lettered) (he : e.Lettered)
    (h : d.key = e.key) : d.isError = e.isError := by
  have hlow : ∀ b : Bool, (if b then 'E' else 'W').toNat < 0x10000 := by decide
  have hk := (key_head hd (hlow _)).symm.trans (h ▸ key_head he (hlow _))
  revert hk
  cases d.isError <;> cases e.isError <;> decide

/-- An item is kept unless its key was seen, or an earlier item has it. -/
theorem distinctBy_key {α κ : Type} [DecidableEq κ] (key : α → κ) (items : List α) :
    ∀ (seen : List κ) (x : α), x ∈ items →
      key x ∈ seen ∨ ∃ y ∈ distinctBy key seen items, key y = key x ∧ y ∈ items := by
  induction items with
  | nil => exact fun seen x hx => absurd hx List.not_mem_nil
  | cons a rest ih =>
      intro seen x hx
      rw [distinctBy]
      by_cases ha : key a ∈ seen
      · rw [if_pos ha]
        rcases List.mem_cons.mp hx with rfl | hx
        · exact .inl ha
        · rcases ih seen x hx with hs | ⟨y, hy, hk, hyr⟩
          · exact .inl hs
          · exact .inr ⟨y, hy, hk, List.mem_cons_of_mem a hyr⟩
      · rw [if_neg ha]
        rcases List.mem_cons.mp hx with rfl | hx
        · exact .inr ⟨x, List.mem_cons_self, rfl, List.mem_cons_self⟩
        · rcases ih (key a :: seen) x hx with hs | ⟨y, hy, hk, hyr⟩
          · rcases List.mem_cons.mp hs with hxa | hs
            · exact .inr ⟨a, List.mem_cons_self, hxa.symm, List.mem_cons_self⟩
            · exact .inl hs
          · exact .inr ⟨y, List.mem_cons_of_mem a hy, hk, List.mem_cons_of_mem a hyr⟩

/-- An error among lettered diagnostics survives the removal of repetitions. -/
theorem hasErrors_dedupe {list : List Diagnostic} (hl : ∀ d ∈ list, d.Lettered)
    {d : Diagnostic} (hd : d ∈ list) (he : d.isError = true) :
    hasErrors (dedupeDiagnostics list) = true := by
  have hsorted : ∀ e, e ∈ sortDiagnostics list ↔ e ∈ list := fun e => List.mem_mergeSort
  rcases distinctBy_key Diagnostic.key (sortDiagnostics list) [] d ((hsorted d).mpr hd) with
    hs | ⟨y, hy, hk, hyl⟩
  · cases hs
  · have hye := (hl y ((hsorted y).mp hyl)).isError_eq (hl d hd) hk
    exact List.any_eq_true.mpr ⟨y, hy, hye.trans he⟩

/-! ## What the stages report -/

theorem Problem.lettered (p : Problem) (span : Span) : (p.diagnostic span).Lettered := by
  have hcode : p.code.toList.head? = some 'E' := by
    unfold Problem.code
    split <;> decide
  exact hcode

theorem LintProblem.lettered (p : LintProblem) (span : Span) : (p.diagnostic span).Lettered := by
  have hcode : p.code.toList.head? = some 'W' := by
    unfold LintProblem.code
    split <;> decide
  exact hcode

theorem lintSymbol_problem (rules : LintRules) (s : SymbolInfo) :
    ∀ d ∈ lintSymbol rules s, ∃ (p : LintProblem) (span : Span), d = p.diagnostic span := by
  intro d hd
  simp only [lintSymbol] at hd
  split at hd
  · cases hd
  · rcases List.mem_append.mp hd with hd | hd
    all_goals
      split at hd
      · exact ⟨_, _, List.mem_singleton.mp hd⟩
      · cases hd

/-- All that linting reports are warnings of its rules. -/
theorem lint_problem {β : Type} (rules : LintRules) (p : Program β) (symbols : List SymbolInfo) :
    ∀ d ∈ lint rules p symbols, ∃ (q : LintProblem) (span : Span), d = q.diagnostic span := by
  intro d hd
  rcases List.mem_append.mp hd with hd | hd
  · obtain ⟨s, -, hs⟩ := List.mem_flatMap.mp hd
    exact lintSymbol_problem rules s d hs
  · split at hd
    · obtain ⟨s, -, rfl⟩ := List.mem_map.mp hd
      exact ⟨_, _, rfl⟩
    · cases hd

theorem lint_lettered {β : Type} (rules : LintRules) (p : Program β) (symbols : List SymbolInfo) :
    ∀ d ∈ lint rules p symbols, d.Lettered := by
  intro d hd
  obtain ⟨q, span, rfl⟩ := lint_problem rules p symbols d hd
  exact q.lettered span

/-- All that checking reports are problems. -/
theorem findingDiagnostics_problem (findings : List Finding) :
    ∀ d ∈ findingDiagnostics findings, ∃ (p : Problem) (span : Span), d = p.diagnostic span := by
  intro d hd
  obtain ⟨f, -, hf⟩ := List.mem_filterMap.mp hd
  cases f with
  | problem p span =>
      cases hf
      exact ⟨p, span, rfl⟩
  | _ => cases hf

theorem findingDiagnostics_lettered (findings : List Finding) :
    ∀ d ∈ findingDiagnostics findings, d.Lettered := by
  intro d hd
  obtain ⟨p, span, rfl⟩ := findingDiagnostics_problem findings d hd
  exact p.lettered span

/-- A script without errors of syntax has nothing reported about its shape. -/
theorem parseTokens_diagnostics_eq_nil {tokens : List Token} {finish : Position}
    (h : hasErrors (parseTokens tokens finish).diagnostics = false) :
    (parseTokens tokens finish).diagnostics = [] := by
  refine List.eq_nil_iff_forall_not_mem.mpr fun d hd => ?_
  obtain ⟨e, span, rfl⟩ := parseTokens_diagnostics tokens finish d hd
  exact List.any_eq_false.mp h _ hd rfl

/-! ## Accepted scripts -/

/-- The script comes from a text that compiles. -/
def Script.Accepted (script : Script) : Prop :=
  ∃ source options compiled, compile source options = .ok compiled ∧ compiled.script = script

/-- An analysis that reached checking has found what checking and linting report. -/
theorem analyze_checking {source : Text} {options : AnalysisOptions} {p : Program Unit}
    {c : Checked} (h : (analyze source options).reached = .checking p c) :
    p = (parseSource source).program ∧ c = checkProgram p ∧
      ∃ warnings : List Diagnostic, (∀ d ∈ warnings, d.Lettered) ∧
        (analyze source options).found = dedupeDiagnostics (c.diagnostics ++ warnings) := by
  by_cases hlex : (!(tokenize source false).errors.isEmpty) = true
  · simp [analyze, hlex] at h
  by_cases hsyntax : hasErrors (parseTokens (tokenize source false).tokens
      (tokenize source false).finish).diagnostics = true
  · simp [analyze, hlex, hsyntax] at h
  have hnone := parseTokens_diagnostics_eq_nil (Bool.eq_false_iff.mpr hsyntax)
  have hreached : (analyze source options).reached = .checking
      (parseTokens (tokenize source false).tokens (tokenize source false).finish).program
      (checkProgram (parseTokens (tokenize source false).tokens
        (tokenize source false).finish).program) := by
    simp only [analyze, hlex, hsyntax, Bool.false_eq_true, if_false]
  have hparsed : parseSource source =
      parseTokens (tokenize source false).tokens (tokenize source false).finish :=
    if_pos (by simpa using hlex)
  rw [hreached] at h
  cases h
  refine ⟨by rw [hparsed], rfl, _, ?_, by
    simp only [analyze, hlex, Bool.false_eq_true, if_false, hnone, List.nil_append]
    rfl⟩
  cases options.lint with
  | none => exact fun d hd => absurd hd List.not_mem_nil
  | some rules => exact lint_lettered rules _ _

/-- A text that compiles was parsed, and then checked without a problem. -/
theorem compile_checked {source : Text} {options : AnalysisOptions} {compiled : Compiled}
    (h : compile source options = .ok compiled) :
    compiled.script.checked = checkProgram (parseSource source).program ∧
      ∀ q span, .problem q span ∉ (checkProgram (parseSource source).program).findings := by
  unfold compile Analysis.compiled at h
  split at h
  · next p c hok hreached =>
      cases h
      obtain ⟨hp, rfl, warnings, hwarn, hfound⟩ := analyze_checking hreached
      rw [← hp]
      refine ⟨rfl, fun q span hq => ?_⟩
      have hmem : q.diagnostic span ∈ (checkProgram p).diagnostics :=
        List.mem_filterMap.mpr ⟨_, hq, rfl⟩
      have hall : ∀ d ∈ (checkProgram p).diagnostics ++ warnings, d.Lettered := fun d hd =>
        (List.mem_append.mp hd).elim (findingDiagnostics_lettered _ d) (hwarn d)
      -- A problem would still be among the diagnostics, and `compile` would have refused.
      have herr := hasErrors_dedupe hall (List.mem_append_left warnings hmem) rfl
      rw [Analysis.ok, hfound, herr] at hok
      cases hok
  · cases h

/-- The tables of a script that compiles obey the typing rules. -/
theorem Script.Accepted.wellTyped {script : Script} (h : script.Accepted) :
    script.checked.WellTyped := by
  obtain ⟨source, options, compiled, hcompile, rfl⟩ := h
  obtain ⟨hp, hclean⟩ := compile_checked hcompile
  rw [hp]
  exact checkProgram_wellTyped hclean

end SceneScript
