import SceneScript.Editor.Protocol
import SceneScript.Proofs.Diagnostic.Pipeline

/-!
# Errors among the diagnostics that are published

An editor is shown the first diagnostics of an analysis, as many as it has room for. An analysis
that leaves out diagnostics keeps the errors; what is published is cut by place alone. So the
warnings in front of an error take its room, and whether any error is published is a matter of
how many there are.

* **`warningsBefore`** — how many warnings are in front of a place.
* **`error_mem_take`** — the first diagnostics of a list in order hold an error when the warnings
  in front of some error leave room.
* **`published_error`** — when an error is published; **`warning_takes_room`** — a script with an
  error of which a warning is published alone.
-/

namespace SceneScript

variable {list : List Diagnostic}

/-! ## Cutting by place -/

/-- How many warnings of a list are in front of a place. -/
def warningsBefore (list : List Diagnostic) (offset : Nat) : Nat :=
  list.countP fun w => !w.isError && decide (w.span.start.offset < offset)

namespace Diagnostic

theorem Before.offset_le {a b : Diagnostic} (h : a.Before b) :
    a.span.start.offset ≤ b.span.start.offset := by
  rcases h with hlt | ⟨heq, -⟩
  · exact Nat.le_of_lt hlt
  · exact Nat.le_of_eq heq

/-- A warning before an error is at an earlier place. -/
theorem Before.offset_lt {w e : Diagnostic} (h : w.Before e) (hw : w.isError = false)
    (he : e.isError = true) : w.span.start.offset < e.span.start.offset := by
  have herror : e.severity = .error := beq_iff_eq.mp he
  have hwarning : w.severity ≠ .error := beq_eq_false_iff_ne.mp hw
  rcases h with hlt | ⟨-, ⟨hsame, -⟩ | ⟨hsame, -⟩⟩
  · exact hlt
  · exact absurd hsame hwarning
  · exact absurd (hsame.trans herror) hwarning

end Diagnostic

/-- No warning behind a diagnostic is in front of its place. -/
theorem warningsBefore_head {d : Diagnostic} (hd : d.isError = true)
    (h : ∀ b ∈ list, d.Before b) : warningsBefore (d :: list) d.span.start.offset = 0 := by
  refine List.countP_eq_zero.mpr fun w hw hcounted => ?_
  obtain ⟨hwarning, hfront⟩ := Bool.and_eq_true_iff.mp hcounted
  rcases List.mem_cons.mp hw with rfl | hw
  · rw [hd] at hwarning
    cases hwarning
  · exact Nat.not_lt_of_le (h w hw).offset_le (of_decide_eq_true hfront)

/-- A warning counts for every error behind it. -/
theorem warningsBefore_cons {w e : Diagnostic} (hw : w.isError = false) (he : e.isError = true)
    (h : w.Before e) :
    warningsBefore (w :: list) e.span.start.offset =
      warningsBefore list e.span.start.offset + 1 := by
  have hfront := h.offset_lt hw he
  rw [warningsBefore, List.countP_cons_of_pos]
  · rfl
  · rw [hw, decide_eq_true hfront]
    rfl

/-- The first diagnostics of a list in order hold an error when some error has fewer warnings in
    front of it than are taken. -/
theorem error_mem_take (h : list.Pairwise Diagnostic.Before) (n : Nat) :
    (∃ d ∈ list.take n, d.isError = true) ↔
      ∃ e ∈ list, e.isError = true ∧ warningsBefore list e.span.start.offset < n := by
  induction list generalizing n with
  | nil =>
      rw [List.take_nil]
      exact ⟨fun ⟨_, hd, _⟩ => absurd hd List.not_mem_nil,
        fun ⟨_, he, _⟩ => absurd he List.not_mem_nil⟩
  | cons d rest ih =>
      obtain ⟨hfirst, hrest⟩ := List.pairwise_cons.mp h
      cases n with
      | zero => exact ⟨fun ⟨_, hd, _⟩ => absurd hd List.not_mem_nil,
          fun ⟨_, _, _, hroom⟩ => absurd hroom (Nat.not_lt_zero _)⟩
      | succ n =>
          rw [List.take_succ_cons]
          cases hd : d.isError with
          | true =>
              refine ⟨fun _ => ⟨d, List.mem_cons_self, hd, ?_⟩,
                fun _ => ⟨d, List.mem_cons_self, hd⟩⟩
              rw [warningsBefore_head hd hfirst]
              exact Nat.succ_pos n
          | false =>
              -- A warning in front takes one place and leaves the question to the rest.
              constructor
              · rintro ⟨e, he, herror⟩
                rcases List.mem_cons.mp he with rfl | he
                · exact absurd (hd.symm.trans herror) Bool.noConfusion
                · obtain ⟨e, he, herror, hroom⟩ := (ih hrest n).mp ⟨e, he, herror⟩
                  refine ⟨e, List.mem_cons_of_mem d he, herror, ?_⟩
                  rw [warningsBefore_cons hd herror (hfirst e he)]
                  exact Nat.succ_lt_succ hroom
              · rintro ⟨e, he, herror, hroom⟩
                rcases List.mem_cons.mp he with rfl | he
                · exact absurd (hd.symm.trans herror) Bool.noConfusion
                · rw [warningsBefore_cons hd herror (hfirst e he)] at hroom
                  obtain ⟨e, he, herror⟩ :=
                    (ih hrest n).mpr ⟨e, he, herror, Nat.lt_of_succ_lt_succ hroom⟩
                  exact ⟨e, List.mem_cons_of_mem d he, herror⟩

/-! ## Entries -/

theorem Diagnostic.editorJson_severity (d : Diagnostic) :
    d.editorJson.get? "severity" = some (Json.int d.severity.number) := by
  have hfirst : ∀ (key : Text) (value : Json) (rest : List (Text × Json)),
      Json.lookup key ((key, value) :: rest) = some value := by
    intro key value rest
    simp [Json.lookup]
  exact hfirst _ _ _

/-- An entry shows an error when the diagnostic is one. -/
theorem Diagnostic.editorJson_error (d : Diagnostic) :
    d.editorJson.get? "severity" = some (Json.int 1) ↔ d.isError = true := by
  rw [editorJson_severity, isError]
  cases d.severity with
  | error => exact ⟨fun _ => rfl, fun _ => rfl⟩
  | warning =>
      have hne : Binary64.ofInt 2 ≠ Binary64.ofInt 1 := by decide +kernel
      refine ⟨fun h => ?_, Bool.noConfusion⟩
      exact absurd (Json.number.inj (Option.some.inj h)) hne

/-- An entry of a published list shows an error when one of the first diagnostics is one. -/
theorem editorDiagnostics_error (list : List Diagnostic) (n : Nat) :
    (∃ j ∈ editorDiagnostics list n, j.get? "severity" = some (Json.int 1)) ↔
      ∃ d ∈ list.take n, d.isError = true := by
  constructor
  · rintro ⟨j, hj, herror⟩
    obtain ⟨d, hd, rfl⟩ := List.mem_map.mp hj
    exact ⟨d, hd, d.editorJson_error.mp herror⟩
  · rintro ⟨d, hd, herror⟩
    exact ⟨d.editorJson, List.mem_map_of_mem hd, d.editorJson_error.mpr herror⟩

/-! ## Published errors -/

/-- Only linting warns. -/
theorem Emitted.error_of_unlinted {source : Text} {d : Diagnostic} (h : Emitted source none d) :
    d.isError = true := by
  cases h with
  | lexer e _ => rfl
  | parser _ _ hd =>
      obtain ⟨e, span, rfl⟩ := parseTokens_diagnostics _ _ d hd
      rfl
  | checker _ _ _ hd =>
      obtain ⟨p, span, rfl⟩ := findingDiagnostics_problem _ d hd
      rfl
  | linter _ r _ _ hr _ => cases hr

/-- When an error of a script is published. The analysis reports an error exactly when the script
    is not accepted; an error is published exactly when fewer warnings than are shown stand in
    front of some error. That is so for a script that is not accepted if it is not linted and
    anything is shown at all, and if as much is shown as an analysis reports. -/
theorem published_error (source : Text) (filename : Option String) (rules : Option LintRules)
    (n : Nat) :
    let a := analyze source { filename := filename, lint := rules }
    let published := ∃ j ∈ editorDiagnostics a.kept n, j.get? "severity" = some (Json.int 1)
    ((∃ e ∈ a.kept, e.isError = true) ↔ a.ok = false) ∧
    (published ↔ ∃ e ∈ a.kept, e.isError = true ∧
      warningsBefore a.kept e.span.start.offset < n) ∧
    (a.ok = false → rules = none → 0 < n → published) ∧
    (a.ok = false → 200 ≤ n → published) := by
  intro a published
  obtain ⟨hordered, hemitted, hlength, hok⟩ :
      a.kept.Pairwise Diagnostic.Before ∧ (∀ d ∈ a.kept, Emitted source rules d) ∧
        a.kept.length ≤ 200 ∧ hasErrors a.kept = !a.ok :=
    analyze_kept source filename rules (by decide)
  have herror : (∃ e ∈ a.kept, e.isError = true) ↔ a.ok = false := by
    rw [← List.any_eq_true, ← Bool.not_eq_true', ← hok]
    rfl
  have hpublished : published ↔ ∃ e ∈ a.kept, e.isError = true ∧
      warningsBefore a.kept e.span.start.offset < n :=
    (editorDiagnostics_error a.kept n).trans (error_mem_take hordered n)
  refine ⟨?_, hpublished, fun hrejected hunlinted hroom => ?_, fun hrejected hroom => ?_⟩
  · exact herror
  · obtain ⟨e, he, hbad⟩ := herror.mpr hrejected
    refine hpublished.mpr ⟨e, he, hbad, ?_⟩
    have hnone : warningsBefore a.kept e.span.start.offset = 0 := by
      refine List.countP_eq_zero.mpr fun w hw hcounted => ?_
      subst hunlinted
      rw [(hemitted w hw).error_of_unlinted] at hcounted
      cases hcounted
    rw [hnone]
    exact hroom
  · have hall : a.kept.take n = a.kept := List.take_of_length_le (Nat.le_trans hlength hroom)
    refine (editorDiagnostics_error a.kept n).mpr ?_
    rw [hall]
    exact herror.mpr hrejected

/-! ## A warning alone -/

/-- A script with an unused variable that gives a value back where it must not. -/
def unusedThenWrong : Text := "fn f() { let x = 1; return 2; }"

/-- The warning about the variable. -/
def unusedVariable : Diagnostic :=
  (LintProblem.unused "x").diagnostic ⟨⟨13, 0, 13⟩, ⟨14, 0, 14⟩⟩

/-- The error about the value. -/
def wrongValue : Diagnostic := (Problem.returnFromVoid "f" .i32).diagnostic ⟨⟨27, 0, 27⟩, ⟨28, 0, 28⟩⟩

/-- Two diagnostics are sorted by comparing them. -/
theorem sortDiagnostics_pair (a b : Diagnostic) :
    sortDiagnostics [a, b] = if a.order b = .gt then [b, a] else [a, b] := by
  by_cases h : a.order b = .gt
  · simp [sortDiagnostics, List.mergeSort, List.MergeSort.Internal.splitInTwo, h]
  · simp [sortDiagnostics, List.mergeSort, List.MergeSort.Internal.splitInTwo, h]

/-- The checker finds the error and the linter the warning; they are reported the other way
    round. -/
theorem unusedThenWrong_kept :
    (analyze unusedThenWrong {}).kept = [unusedVariable, wrongValue] := by
  have hlex : (tokenize unusedThenWrong false).errors = [] := by decide +kernel
  have hread : (readText unusedThenWrong).diagnostics = [] := by decide +kernel
  have hfound : (checkProgram (readText unusedThenWrong).program).diagnostics ++
      lint {} (readText unusedThenWrong).program
        (checkProgram (readText unusedThenWrong).program).symbols =
      [wrongValue, unusedVariable] := by decide +kernel
  have hkept : (analyze unusedThenWrong {}).kept =
      capDiagnostics (dedupeDiagnostics [wrongValue, unusedVariable]) 200 := by
    rw [← hfound]
    rw [readText] at hread
    simp only [analyze, hlex, hread, hasErrors]
    rfl
  have horder : wrongValue.order unusedVariable = .gt ∧
      unusedVariable.order wrongValue ≠ .gt := by decide +kernel
  have hsorted : dedupeDiagnostics [wrongValue, unusedVariable] = [unusedVariable, wrongValue] := by
    rw [dedupeDiagnostics, sortDiagnostics_pair, if_pos horder.1]
    decide +kernel
  have hcap : ([unusedVariable, wrongValue] : List Diagnostic).length ≤ (200 : Int).toNat := by
    decide
  rw [hkept, hsorted, capDiagnostics, if_pos hcap, sortDiagnostics_pair, if_neg horder.2]

/-- An error of which nothing is published: one diagnostic is shown, and it is the warning. -/
theorem warning_takes_room :
    ¬∀ (source : Text) (rules : Option LintRules) (n : Nat), 1 ≤ n →
      (∃ e ∈ (analyze source { lint := rules }).kept, e.isError = true) →
      ∃ j ∈ editorDiagnostics (analyze source { lint := rules }).kept n,
        j.get? "severity" = some (Json.int 1) := by
  intro h
  have herror : ∃ e ∈ (analyze unusedThenWrong {}).kept, e.isError = true := by
    rw [unusedThenWrong_kept]
    exact ⟨wrongValue, List.mem_cons_of_mem _ List.mem_cons_self, rfl⟩
  obtain ⟨d, hd, hshown⟩ := (editorDiagnostics_error _ 1).mp
    (h unusedThenWrong (some {}) 1 (Nat.le_refl 1) herror)
  rw [unusedThenWrong_kept] at hd
  have hwarning : d = unusedVariable := List.mem_singleton.mp hd
  subst hwarning
  cases hshown

end SceneScript
