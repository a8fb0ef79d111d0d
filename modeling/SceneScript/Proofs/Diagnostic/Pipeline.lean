import SceneScript.Proofs.Diagnostic.Merging

/-!
# What an analysis reports

The stages of an analysis report diagnostics until one of them finds an error. What comes out is
sorted, without repetitions and capped; whether the script is accepted is decided before the cap,
and linting has no say in it.

* **`Emitted`** — what the stages report.
* **`Emitted.coded`** — every diagnostic has a code that tells its severity.
* **`analyze_cases`** — what the analysis does with it.
* **`analyze_pipeline`** — the list that comes out, and when a script is accepted.
-/

namespace SceneScript

/-- A text as it is read, whatever the lexer reported. -/
def readText (source : Text) : Parsed :=
  parseTokens (tokenize source false).tokens (tokenize source false).finish

/-- A diagnostic that a stage reports. The parser runs when the lexer found no error, the checker
    when the parser found none either, and then the linter if it is switched on. -/
inductive Emitted (source : Text) (rules : Option LintRules) : Diagnostic → Prop where
  | lexer (e : LexError) : e ∈ (tokenize source false).errors → Emitted source rules e.diagnostic
  | parser (d : Diagnostic) : (tokenize source false).errors = [] →
      d ∈ (readText source).diagnostics → Emitted source rules d
  | checker (d : Diagnostic) : (tokenize source false).errors = [] →
      hasErrors (readText source).diagnostics = false →
      d ∈ (checkProgram (readText source).program).diagnostics → Emitted source rules d
  | linter (d : Diagnostic) (r : LintRules) : (tokenize source false).errors = [] →
      hasErrors (readText source).diagnostics = false → rules = some r →
      d ∈ lint r (readText source).program (checkProgram (readText source).program).symbols →
      Emitted source rules d

variable {source : Text} {rules : Option LintRules} {d : Diagnostic}

/-! ## Stages -/

theorem LexError.coded (e : LexError) : e.diagnostic.Coded := by
  have hcode : ∀ p : LexProblem, isCode .error p.code = true := by
    intro p
    unfold LexProblem.code
    split <;> decide
  exact hcode e.problem

theorem SyntaxError.coded (e : SyntaxError) (span : Span) : (e.diagnostic span).Coded := by
  have hat : ∀ (code : String) (found : Option Token), isCode .error code = true →
      isCode .error (codeAt code found) = true := by
    intro code found h
    cases found with
    | none =>
        show isCode .error "E108" = true
        decide
    | some _ => exact h
  have hcode : isCode .error e.code = true := by
    unfold SyntaxError.code
    split <;> first | exact hat _ _ (by decide) | decide
  exact hcode

theorem Problem.coded (p : Problem) (span : Span) : (p.diagnostic span).Coded := by
  have hcode : isCode .error p.code = true := by
    unfold Problem.code
    split <;> decide
  exact hcode

theorem LintProblem.coded (p : LintProblem) (span : Span) : (p.diagnostic span).Coded := by
  have hcode : isCode .warning p.code = true := by
    unfold LintProblem.code
    split <;> decide
  exact hcode

/-- Every diagnostic has a code that tells its severity. -/
theorem Emitted.coded (h : Emitted source rules d) : d.Coded := by
  cases h with
  | lexer e _ => exact e.coded
  | parser _ _ hd =>
      obtain ⟨e, span, rfl⟩ := parseTokens_diagnostics _ _ d hd
      exact e.coded span
  | checker _ _ _ hd =>
      obtain ⟨p, span, rfl⟩ := findingDiagnostics_problem _ d hd
      exact p.coded span
  | linter _ r _ _ _ hd =>
      obtain ⟨p, span, rfl⟩ := lint_problem r _ _ d hd
      exact p.coded span

/-- The errors do not depend on the rules of linting. -/
theorem Emitted.of_error (h : Emitted source rules d) (herror : d.severity = .error)
    (rules' : Option LintRules) : Emitted source rules' d := by
  cases h with
  | lexer e he => exact .lexer e he
  | parser _ hlex hd => exact .parser d hlex hd
  | checker _ hlex hparse hd => exact .checker d hlex hparse hd
  | linter _ r _ _ _ hd =>
      obtain ⟨p, span, rfl⟩ := lint_problem r _ _ d hd
      cases herror

/-- An analysis that went as far as checking reports what three stages found. -/
theorem emitted_checked (hlex : (tokenize source false).errors = [])
    (hparse : hasErrors (readText source).diagnostics = false) :
    d ∈ (readText source).diagnostics ++ (checkProgram (readText source).program).diagnostics ++
        (match rules with
          | some r =>
              lint r (readText source).program (checkProgram (readText source).program).symbols
          | none => []) ↔ Emitted source rules d := by
  constructor
  · intro h
    rcases List.mem_append.mp h with h | h
    · rcases List.mem_append.mp h with h | h
      · exact .parser d hlex h
      · exact .checker d hlex hparse h
    · cases rules with
      | none => cases h
      | some r => exact .linter d r hlex hparse rfl h
  · intro h
    cases h with
    | lexer e he => exact absurd (hlex ▸ he) List.not_mem_nil
    | parser _ _ hd => exact List.mem_append_left _ (List.mem_append_left _ hd)
    | checker _ _ _ hd => exact List.mem_append_left _ (List.mem_append_right _ hd)
    | linter _ r _ _ hr hd =>
        subst hr
        exact List.mem_append_right _ hd

theorem Diagnostic.severity_of_identity {d e : Diagnostic} (h : d.identity = e.identity) :
    d.severity = e.severity := congrArg (fun i => i.2.1) h

theorem Diagnostic.isError_of_warning (h : d.severity = .warning) : d.isError = false := by
  rw [isError, h]
  rfl

/-! ## The whole analysis -/

/-- What the stages report is freed of repetitions and capped, and without an error the script
    was checked. -/
theorem analyze_cases (source : Text) (o : AnalysisOptions) :
    ∃ collected, (∀ d, d ∈ collected ↔ Emitted source o.lint d) ∧
      (analyze source o).found = dedupeDiagnostics collected ∧
      (analyze source o).kept = capDiagnostics (dedupeDiagnostics collected) o.maxDiagnostics ∧
      ((∀ d ∈ collected, d.severity ≠ .error) → (analyze source o).reached =
        .checking (readText source).program (checkProgram (readText source).program)) := by
  by_cases hlex : (tokenize source false).errors = []
  · have hstart : (!(tokenize source false).errors.isEmpty) = false := by rw [hlex]; rfl
    cases hparse : hasErrors (readText source).diagnostics with
    | true =>
        refine ⟨(readText source).diagnostics, fun d => ⟨.parser d hlex, fun h => ?_⟩, ?_⟩
        · cases h with
          | lexer e he => exact absurd (hlex ▸ he) List.not_mem_nil
          | parser _ _ hd => exact hd
          | checker _ _ hno _ => exact absurd (hno.symm.trans hparse) Bool.noConfusion
          | linter _ _ _ hno _ _ => exact absurd (hno.symm.trans hparse) Bool.noConfusion
        · have hstop := hparse
          rw [readText] at hstop
          simp only [analyze, hstart, hstop, Bool.false_eq_true, if_false, if_true]
          refine ⟨rfl, rfl, fun hnone => ?_⟩
          obtain ⟨d, hd, he⟩ := List.any_eq_true.mp hparse
          exact absurd (beq_iff_eq.mp he) (hnone d hd)
    | false =>
        refine ⟨_, fun d => emitted_checked hlex hparse, ?_⟩
        rw [readText] at hparse
        simp only [analyze, hstart, hparse, Bool.false_eq_true, if_false]
        exact ⟨rfl, rfl, fun _ => rfl⟩
  · have hstart : (!(tokenize source false).errors.isEmpty) = true := by
      cases herr : (tokenize source false).errors with
      | nil => exact absurd herr hlex
      | cons e rest => rfl
    refine ⟨(tokenize source false).errors.map LexError.diagnostic,
      fun d => ⟨fun h => ?_, fun h => ?_⟩, ?_⟩
    · obtain ⟨e, he, rfl⟩ := List.mem_map.mp h
      exact .lexer e he
    · cases h with
      | lexer e he => exact List.mem_map_of_mem he
      | parser _ hnil _ => exact absurd hnil hlex
      | checker _ hnil _ _ => exact absurd hnil hlex
      | linter _ _ hnil _ _ _ => exact absurd hnil hlex
    · obtain ⟨e, he⟩ := List.exists_mem_of_ne_nil _ hlex
      rw [analyze, if_pos hstart]
      exact ⟨rfl, rfl, fun hnone => absurd rfl (hnone e.diagnostic (List.mem_map_of_mem he))⟩

/-- A script is accepted when no stage reports an error. -/
theorem analyze_ok (source : Text) (o : AnalysisOptions) :
    (analyze source o).ok = true ↔ ∀ d, Emitted source o.lint d → d.severity ≠ .error := by
  obtain ⟨collected, hmem, hfound, _, _⟩ := analyze_cases source o
  obtain ⟨hsub, _, hall⟩ := dedupeDiagnostics_spec fun d hd => ((hmem d).mp hd).coded
  rw [Analysis.ok, hfound, Bool.not_eq_true', hasErrors, List.any_eq_false]
  constructor
  · intro h d hd herror
    obtain ⟨e, he, hsame⟩ := hall d ((hmem d).mpr hd)
    exact h e he (beq_iff_eq.mpr ((Diagnostic.severity_of_identity hsame).trans herror))
  · intro h d hd herror
    exact h d ((hmem d).mp (hsub d hd)) (beq_iff_eq.mp herror)

/-- The lint rules and the cap have no say in whether a script is accepted. -/
theorem analyze_ok_congr (source : Text) (o o' : AnalysisOptions) :
    (analyze source o).ok = (analyze source o').ok := by
  rw [Bool.eq_iff_iff, analyze_ok, analyze_ok]
  exact ⟨fun h d hd herror => h d (hd.of_error herror _) herror,
    fun h d hd herror => h d (hd.of_error herror _) herror⟩

/-- What an analysis keeps: diagnostics that were reported, in order, as many as there is room for,
    and an error among them when the script is not accepted. -/
theorem analyze_kept (source : Text) (filename : Option String) (rules : Option LintRules)
    {n : Nat} (hn : 0 < n) :
    let a := analyze source ⟨filename, rules, n⟩
    a.kept.Pairwise Diagnostic.Before ∧ (∀ d ∈ a.kept, Emitted source rules d) ∧
    a.kept.length ≤ n ∧ hasErrors a.kept = !a.ok := by
  intro a
  obtain ⟨collected, hmem, hfound, hkept, _⟩ := analyze_cases source ⟨filename, rules, n⟩
  have hcoded : ∀ d ∈ collected, d.Coded := fun d hd => ((hmem d).mp hd).coded
  obtain ⟨hsub, hnodup, _⟩ := dedupeDiagnostics_spec hcoded
  obtain ⟨hordered, _, hkeptSub, hlength, _⟩ :=
    capDiagnostics_spec (fun d hd => hcoded d (hsub d hd)) hnodup n
  have ha : a.kept = capDiagnostics (dedupeDiagnostics collected) n := hkept
  have hok : hasErrors a.kept = !a.ok := by
    rw [ha, hasErrors_capDiagnostics _ hn, Analysis.ok, hfound, Bool.not_not]
  rw [ha] at hok ⊢
  refine ⟨hordered, fun d hd => (hmem d).mp (hsub d (hkeptSub d hd)), ?_, hok⟩
  rw [hlength]
  exact Nat.min_le_left n _

/-- A script that is accepted compiles to what the checker made of it. -/
theorem compile_tables (source : Text) (o : AnalysisOptions) :
    (compile source o).toOption.map (fun c => c.script.checked) =
      if (analyze source o).ok then some (checkProgram (readText source).program) else none := by
  obtain ⟨collected, hmem, _, _, hreached⟩ := analyze_cases source o
  rw [compile, Analysis.compiled]
  cases hok : (analyze source o).ok with
  | false => rfl
  | true =>
      have hnone := (analyze_ok source o).mp hok
      rw [hreached fun d hd => hnone d ((hmem d).mp hd)]
      rfl

/-- The diagnostics of an analysis. They are in order, no two of them say the same thing, each
    was reported by a stage, there are as many as were reported and the cap leaves room for, and
    behind a warning no error was left out. The script is accepted when no stage reports an error,
    under any other rules and any other cap just the same, and then compiles to the tables that
    the checker made of it. -/
theorem analyze_pipeline (source : Text) (filename : Option String) (rules : Option LintRules)
    (n : Nat) :
    let a := analyze source ⟨filename, rules, n⟩
    a.kept.Pairwise Diagnostic.Before ∧
    (a.kept.map Diagnostic.identity).Nodup ∧
    (∀ d ∈ a.kept, Emitted source rules d) ∧
    (∃ distinct : List (String × Severity × Nat × Nat × Text), distinct.Nodup ∧
      (∀ i, i ∈ distinct ↔ ∃ d, Emitted source rules d ∧ d.identity = i) ∧
      a.kept.length = min n distinct.length) ∧
    ((∃ w ∈ a.kept, w.severity = .warning) → ∀ e, Emitted source rules e → e.severity = .error →
      ∃ d ∈ a.kept, d.identity = e.identity) ∧
    (a.ok = true ↔ ∀ d, Emitted source rules d → d.severity ≠ .error) ∧
    (∀ o : AnalysisOptions, (analyze source o).ok = a.ok) ∧
    ∀ o : AnalysisOptions, (compile source o).toOption.map (fun c => c.script.checked) =
      if a.ok then some (checkProgram (readText source).program) else none := by
  intro a
  obtain ⟨collected, hmem, _, hkept, _⟩ := analyze_cases source ⟨filename, rules, n⟩
  have hcoded : ∀ d ∈ collected, d.Coded := fun d hd => ((hmem d).mp hd).coded
  obtain ⟨hsub, hnodup, hall⟩ := dedupeDiagnostics_spec hcoded
  obtain ⟨hordered, hkeptNodup, hkeptSub, hlength, herrors⟩ :=
    capDiagnostics_spec (fun d hd => hcoded d (hsub d hd)) hnodup n
  have ha : a.kept = capDiagnostics (dedupeDiagnostics collected) n := hkept
  rw [ha]
  refine ⟨hordered, hkeptNodup, fun d hd => (hmem d).mp (hsub d (hkeptSub d hd)), ?_, ?_,
    analyze_ok source _, fun o => analyze_ok_congr source o _, fun o => ?_⟩
  · refine ⟨(dedupeDiagnostics collected).map Diagnostic.identity, hnodup, fun i => ⟨?_, ?_⟩, ?_⟩
    · intro hi
      obtain ⟨d, hd, hid⟩ := List.mem_map.mp hi
      exact ⟨d, (hmem d).mp (hsub d hd), hid⟩
    · rintro ⟨d, hd, rfl⟩
      obtain ⟨e, he, hsame⟩ := hall d ((hmem d).mpr hd)
      exact List.mem_map.mpr ⟨e, he, hsame⟩
    · rw [hlength, List.length_map]
  · rintro ⟨w, hw, hwarning⟩ e he herror
    obtain ⟨d, hd, hsame⟩ := hall e ((hmem e).mpr he)
    refine ⟨d, herrors w hw (Diagnostic.isError_of_warning hwarning) d hd ?_, hsame⟩
    exact beq_iff_eq.mpr ((Diagnostic.severity_of_identity hsame).trans herror)
  · rw [compile_tables, analyze_ok_congr source o ⟨filename, rules, n⟩]

end SceneScript
