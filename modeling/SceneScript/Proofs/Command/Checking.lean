import SceneScript.Command
import SceneScript.Proofs.Diagnostic.Pipeline

/-!
# The exit code of a check

A check counts the errors among the diagnostics that it reports, and of these there are no more
than the settings allow. Settings allow at least one, whatever is written in their file, and an
error is the last thing to be left out. So the count is zero exactly when every file was read and
none that is looked at has an error.

* **`fileFails`** — whether a file fails its check.
* **`Config.resolve_maxProblems`**, **`bind_loadProject_congr`** — settings allow a diagnostic.
* **`checkFile_fails`** — the check of a file finds errors exactly when it fails.
* **`check_code`** — the exit code of a check.
-/

namespace SceneScript

variable {m : Type → Type} [Monad m]

/-- Whether a script fails its check: diagnostics are enabled for it, and it is not accepted. -/
def scriptFails (args : Arguments) (file : String) (source : Text) (config : Config) : Bool :=
  config.diagnostics.enabled && !(analyze source (analysisOptions args config file)).ok

/-- Whether a file fails its check: it cannot be read, or it fails under its settings. -/
def fileFails (w : Workplace m) (args : Arguments) (file : String) : m Bool := do
  match ← w.script file with
  | .error _   => pure true
  | .ok source =>
      let project ← loadProject w.files file none
      pure (scriptFails args file source project.config)

/-! ## How many diagnostics settings allow -/

namespace Config

/-- A setting has every property of the default and of all values that are understood. -/
theorem setting_induction {α : Type} {P : α → Prop} {read : Json → Option α} {default : α}
    (hread : ∀ j a, read j = some a → P a) (hdefault : P default) (group : Json) (key : String) :
    P (setting group key read default) := by
  rw [setting]
  cases h : (group.get? key).bind read with
  | none => exact hdefault
  | some a =>
      obtain ⟨j, _, hj⟩ := Option.bind_eq_some_iff.mp h
      exact hread j a hj

theorem readCount_pos {j : Json} {n : Nat} (h : readCount j = some n) : 0 < n := by
  obtain ⟨x, _, hx⟩ := Option.bind_eq_some_iff.mp h
  split at hx
  · next hpos =>
      cases hx
      have := hpos.2
      omega
  · cases hx

/-- Whatever is written as settings, they allow at least one diagnostic. -/
theorem resolve_maxProblems (raw : Json) : 0 < (resolve raw).diagnostics.maxProblems :=
  setting_induction (fun _ _ h => readCount_pos h) (by decide) _ _

end Config

theorem Project.ofContent_maxProblems (root : Option String) (path : String)
    (content : Except String Text) :
    0 < (ofContent root path content).config.diagnostics.maxProblems := by
  rw [ofContent]
  cases readConfigMembers content with
  | error problem => exact (by decide : 0 < 200)
  | ok members => exact Config.resolve_maxProblems _

variable [LawfulMonad m]

/-- What is done with the settings of a file matters only for settings that allow a diagnostic. -/
theorem bind_loadProject_congr {β : Type} {f g : Project → m β}
    (h : ∀ p : Project, 0 < p.config.diagnostics.maxProblems → f p = g p) (files : Files m)
    (file : String) (workspace : Option String) :
    (loadProject files file workspace >>= f) = loadProject files file workspace >>= g := by
  have hdefault : ∀ root : Option String, f { root := root } = g { root := root } :=
    fun root => h _ (by decide : 0 < 200)
  simp only [loadProject, bind_assoc]
  refine bind_congr fun isDirectory => bind_congr fun found => ?_
  cases found.or workspace with
  | none => simpa using hdefault none
  | some root =>
      simp only [bind_assoc]
      refine bind_congr fun present => ?_
      by_cases hread : root ≠ "" ∧ present = true
      · simp only [if_pos hread, bind_assoc, pure_bind]
        exact bind_congr fun content => h _ (Project.ofContent_maxProblems _ _ content)
      · simp only [if_neg hread, pure_bind]
        exact hdefault (some root)

/-! ## One file -/

theorem countP_isError_pos (list : List Diagnostic) :
    decide (0 < list.countP Diagnostic.isError) = hasErrors list := by
  rw [Bool.eq_iff_iff, decide_eq_true_iff, List.countP_pos_iff, hasErrors, List.any_eq_true]

/-- The check of a script finds errors exactly when the script fails, if its settings allow a
    diagnostic. -/
theorem checkScript_fails (args : Arguments) (logger : Logger) (file : String) (source : Text)
    {project : Project} (h : 0 < project.config.diagnostics.maxProblems) :
    decide (0 < (checkScript args logger file source project).errors) =
      scriptFails args file source project.config := by
  cases henabled : project.config.diagnostics.enabled with
  | false => simp [checkScript, scriptFails, henabled]
  | true =>
      obtain ⟨_, _, _, hok⟩ := analyze_kept source (some file)
        (analysisOptions args project.config file).lint h
      rw [scriptFails, henabled, Bool.true_and]
      simp only [checkScript, henabled, Bool.not_true, Bool.false_eq_true, if_false,
        countP_isError_pos]
      exact hok

/-- The check of a file finds errors exactly when the file fails. -/
theorem checkFile_fails (w : Workplace m) (args : Arguments) (logger : Logger) (file : String) :
    (fun c : FileCheck => decide (0 < c.errors)) <$> checkFile w args logger file =
      fileFails w args file := by
  rw [checkFile, fileFails, map_bind]
  refine bind_congr fun script => ?_
  cases script with
  | error reason => exact map_pure _ _
  | ok source =>
      simp only [map_bind, map_pure]
      refine bind_loadProject_congr (fun project hproject => ?_) _ _ _
      rw [checkScript_fails args logger file source hproject]

/-! ## All files -/

theorem total_pos (count : FileCheck → Nat) (checks : List FileCheck) :
    0 < total count checks ↔ true ∈ checks.map fun c => decide (0 < count c) := by
  induction checks with
  | nil => exact ⟨fun h => absurd h (Nat.lt_irrefl 0), fun h => absurd h List.not_mem_nil⟩
  | cons c rest ih =>
      have hcons : total count (c :: rest) = count c + total count rest := rfl
      rw [hcons, List.map_cons, List.mem_cons, ← ih, eq_comm, decide_eq_true_iff]
      omega

theorem map_mapM {α β γ : Type} (f : α → m β) (g : β → γ) (items : List α) :
    List.map g <$> items.mapM f = items.mapM fun x => g <$> f x := by
  induction items with
  | nil => simp
  | cons x rest ih =>
      rw [List.mapM_cons, List.mapM_cons, map_bind, bind_map_left]
      refine bind_congr fun y => ?_
      rw [← ih, map_bind, bind_map_left]
      refine bind_congr fun ys => ?_
      rw [map_pure, List.map_cons]

/-- The exit code of a check of files. -/
theorem checkFiles_code (w : Workplace m) (args : Arguments) (logger : Logger)
    {files : List String} (h : files ≠ []) :
    Outcome.code <$> checkFiles w args logger files =
      (fun verdicts => if true ∈ verdicts then 1 else 0) <$> files.mapM (fileFails w args) := by
  have hfail : fileFails w args =
      fun file => (fun c : FileCheck => decide (0 < c.errors)) <$> checkFile w args logger file :=
    funext fun file => (checkFile_fails w args logger file).symm
  have hsome : files.isEmpty = false := List.isEmpty_eq_false_iff.mpr h
  rw [checkFiles, hsome, if_neg Bool.false_ne_true, hfail, ← map_mapM, map_bind,
    Functor.map_map, map_eq_pure_bind]
  refine bind_congr fun checks => ?_
  rw [map_pure, checkOutcome]
  simp only [total_pos]

/-- The exit code of a check. For every list of files, in every file system and however reading
    scripts behaves, it is 1 when some file cannot be read, or when diagnostics are enabled for it
    and its script is not accepted under its settings; else it is 0. -/
theorem check_code (w : Workplace m) {argv files : List String} {args : Arguments}
    {level : LogLevel} (hparse : Arguments.parse argv = .ok args)
    (hhelp : args.isSet .help = false) (hwords : args.words = "check" :: files)
    (hlevel : commandLevel args = .ok level) (hfiles : files ≠ []) :
    Outcome.code <$> runCommand w argv =
      (fun verdicts => if true ∈ verdicts then 1 else 0) <$> files.mapM (fileFails w args) := by
  have hcommand : runCommand w argv =
      checkFiles w args { name := "glint", level := level, stamped := false } files := by
    simp only [runCommand, hparse, hhelp, Bool.false_eq_true, if_false, hwords]
    rw [if_neg (by decide), runNamed, hlevel]
    rfl
  rw [hcommand]
  exact checkFiles_code w args _ hfiles

/-- One file that can be read, and none else. -/
def oneFile : Workplace Id where
  files       := FileTree.files {}
  script file := if file = "a.glint" then .ok "fn f() {}" else .error "no such file"
  fuel        := 0

theorem check_code_unreadable :
    let argv := ["check", "--no-lint", "--log-level=debug", "a.glint", "b.glint"]
    let args : Arguments :=
      { values := [(.logLevel, "debug")], switches := [.noLint],
        words := ["check", "a.glint", "b.glint"] }
    (Arguments.parse argv = .ok args ∧ args.isSet .help = false ∧
      args.words = "check" :: ["a.glint", "b.glint"] ∧ commandLevel args = .ok .debug ∧
      ["a.glint", "b.glint"] ≠ ([] : List String)) ∧
    (runCommand oneFile argv).code = 1 := by
  intro argv args
  have hparse : Arguments.parse argv = .ok args := by decide +kernel
  have hlevel : commandLevel args = .ok .debug := by decide +kernel
  have hcode := check_code oneFile hparse (by decide) rfl hlevel (List.cons_ne_nil _ _)
  refine ⟨⟨hparse, by decide, rfl, hlevel, List.cons_ne_nil _ _⟩, ?_⟩
  have hverdict : fileFails oneFile args "b.glint" = true := rfl
  have hall : ["a.glint", "b.glint"].mapM (fileFails oneFile args) =
      [fileFails oneFile args "a.glint", true] := by
    rw [← hverdict]
    rfl
  rw [hall] at hcode
  exact hcode.trans (if_pos (List.mem_cons_of_mem _ List.mem_cons_self))

end SceneScript
