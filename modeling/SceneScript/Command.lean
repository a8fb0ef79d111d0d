import SceneScript.Command.Arguments
import SceneScript.Config.Project
import SceneScript.Diagnostic.Registry
import SceneScript.Diagnostic.Report
import SceneScript.Run

/-!
# Command — the commands of the command line

`check` reports the diagnostics of files, `run` runs one file in a scene, and `codes` lists
the registered diagnostic codes. A command writes to two channels and ends with an exit code;
its log goes to the error channel. What a command writes is data, and only the outer layer
puts it on a screen.

* **`checkFiles`** / **`runFile`** / **`showCodes`** — the commands.
* **`runCommand`** — what a whole command line does.
-/

namespace SceneScript

/-- A piece of output. -/
inductive Output where
  | out (text : String)
  | err (text : String)
  | log (event : LogEvent)

/-- What a command does. -/
structure Outcome where
  code   : Nat
  output : List Output

/-- The exit code of a command line that is not understood. -/
def usageCode : Nat := 2

/-- A command that only says what is wrong with its command line. -/
def Outcome.refuse (message : String) : Outcome := ⟨usageCode, [.err message]⟩

/-- The words for the families of codes. -/
def familyWords : List String := Family.all.map Family.word

/-- How the command line is used. -/
def usage : String :=
  "Usage:\n" ++
  "  glint check <file...>\n" ++
  "  glint run <file> [--frames N] [--delta SECONDS]\n" ++
  "  glint codes [--family " ++ "|".intercalate familyWords ++ "]\n" ++
  "\n" ++
  "Options:\n" ++
  "  --log-level <level>   silent, error, warn, info, debug or trace\n" ++
  "  --no-lint             skip lint warnings\n" ++
  "  -h, --help            show this help\n"

/-- Where a command works: the file system for settings, and how scripts are read. -/
structure Workplace (m : Type → Type) where
  files  : Files m
  script : String → m (Except String Text)
  fuel   : Nat

/-- Diagnostics as output: errors on the error channel, warnings on the other. -/
def diagnosticOutput (source : Text) (file : String) (list : List Diagnostic) : List Output :=
  list.map fun d =>
    let text := d.render source (some file) ++ "\n\n"
    if d.isError then .err text else .out text

/-- How a file is analysed under the settings of its project. -/
def analysisOptions (args : Arguments) (config : Config) (file : String) : AnalysisOptions :=
  { filename       := some file
    lint           := if args.isSet .noLint then none else config.lintRules?
    maxDiagnostics := config.diagnostics.maxProblems }

/-- That a script cannot be read. -/
def unreadableOutput (file reason : String) : Output := .err s!"{file}: {reason}\n"

/-! ## Checking -/

/-- What checking one file gives. -/
structure FileCheck where
  output   : List Output
  errors   : Nat := 0
  warnings : Nat := 0

/-- The check of a file that cannot be read. -/
def FileCheck.unreadable (file reason : String) : FileCheck :=
  { output := [unreadableOutput file reason], errors := 1 }

/-- The check of a script; a project may switch diagnostics off. -/
def checkScript (args : Arguments) (logger : Logger) (file : String) (source : Text)
    (project : Project) : FileCheck :=
  let config := project.config
  let said := (project.log logger).map Output.log
  if !config.diagnostics.enabled then { output := said }
  else
    let options := analysisOptions args config file
    let analysis := analyze source options
    { output   := said ++ (analysis.log options logger).map Output.log ++
        diagnosticOutput source file analysis.kept
      errors   := analysis.kept.countP Diagnostic.isError
      warnings := analysis.kept.countP fun d => !d.isError }

/-- A number of things. -/
def counted (n : Nat) (word : String) : String :=
  if n = 1 then s!"{n} {word}" else s!"{n} {word}s"

/-- A count of all checks together. -/
def total (count : FileCheck → Nat) (checks : List FileCheck) : Nat :=
  checks.foldr (fun c n => count c + n) 0

/-- The outcome of checking files. -/
def checkOutcome (checks : List FileCheck) : Outcome :=
  let errors := total FileCheck.errors checks
  let warnings := total FileCheck.warnings checks
  let errorText := counted errors "error"
  let warningText := counted warnings "warning"
  { code   := if 0 < errors then 1 else 0
    output := checks.flatMap FileCheck.output ++ [.out s!"{errorText}, {warningText}\n"] }

/-- Checks one file. -/
def checkFile {m : Type → Type} [Monad m] (w : Workplace m) (args : Arguments) (logger : Logger)
    (file : String) : m FileCheck := do
  match ← w.script file with
  | .error reason => pure (.unreadable file reason)
  | .ok source    =>
      let project ← loadProject w.files file none
      pure (checkScript args logger file source project)

/-- Checks files, one after the other. -/
def checkFiles {m : Type → Type} [Monad m] (w : Workplace m) (args : Arguments) (logger : Logger)
    (files : List String) : m Outcome := do
  if files.isEmpty then pure (.refuse "glint check: no input files\n")
  else
    let checks ← files.mapM (checkFile w args logger)
    pure (checkOutcome checks)

/-! ## Running -/

/-- The number of frames that an argument asks for. -/
def readFrames? (value : String) : Option Int :=
  let x := readNumber value
  if x.isInteger ∧ 0 ≤ x.truncate then some x.truncate else none

/-- The seconds of a frame that an argument asks for. -/
def readDelta? (value : String) : Option Binary64 :=
  let x := readNumber value
  if x.isFinite ∧ Binary64.zero.lt x then some x else none

/-- An argument as `read` understands it, or the setting of the project if it is absent. A
    value that is not understood is the error. -/
def argumentOr {α : Type} (value : Option String) (read : String → Option α) (default : α) :
    Except String α :=
  match value with
  | none   => .ok default
  | some v =>
      match read v with
      | some x => .ok x
      | none   => .error v

/-- Runs a script under the settings of its project. -/
def runScript (fuel : Nat) (args : Arguments) (logger : Logger) (file : String) (source : Text)
    (project : Project) : Outcome :=
  let config := project.config
  let said := (project.log logger).map Output.log
  let refuse (text : String) : Outcome := ⟨usageCode, said ++ [.err text]⟩
  match argumentOr (args.value? .frames) readFrames? config.running.frames with
  | .error v   => refuse s!"--frames expects a non-negative integer, got '{v}'\n"
  | .ok frames =>
    match argumentOr (args.value? .delta) readDelta? config.running.delta with
    | .error v  => refuse s!"--delta expects a positive number, got '{v}'\n"
    | .ok delta =>
        let result := runSource Scene.host fuel source
          { analysis := analysisOptions args config file
            frames   := frames
            delta    := delta
            maxDepth := config.running.maxCallDepth
            logger   := logger } (.ofRoot "root")
        { code   := result.ending.exitCode
          output := said ++ result.log.map Output.log ++ [.out result.scene.stdout.toString] ++
            diagnosticOutput source file result.diagnostics }

/-- Runs a file. -/
def runFile {m : Type → Type} [Monad m] (w : Workplace m) (args : Arguments) (logger : Logger)
    (files : List String) : m Outcome := do
  match files with
  | [file] =>
      if file = "" then pure (.refuse "glint run: expected exactly one file\n")
      else
        match ← w.script file with
        | .error reason => pure ⟨1, [unreadableOutput file reason]⟩
        | .ok source    =>
            let project ← loadProject w.files file none
            pure (runScript w.fuel args logger file source project)
  | _ => pure (.refuse "glint run: expected exactly one file\n")

/-! ## Codes -/

/-- A text with blanks after it up to a width. -/
def padded (width : Nat) (s : String) : String :=
  s ++ String.ofList (List.replicate (width - s.length) ' ')

/-- The line of a code. -/
def CodeInfo.line (c : CodeInfo) : String :=
  c.code ++ "  " ++ padded 20 c.family.label ++ "  " ++ c.title ++ "\n"

/-- Lists the codes of a family, or of all. -/
def showCodes (args : Arguments) : Outcome :=
  let listed (family : Option Family) : Outcome :=
    ⟨0, (listCodes family).map fun c => .out c.line⟩
  match args.value? .family with
  | none   => listed none
  | some w =>
      match Family.ofWord? w with
      | some family => listed (some family)
      | none        =>
          let known := ", ".intercalate familyWords
          .refuse s!"Unknown family '{w}'. Expected one of: {known}\n"

/-! ## Command lines -/

/-- The level of a command's log: the one asked for, or warnings. -/
def commandLevel (args : Arguments) : Except String LogLevel :=
  argumentOr (args.value? .logLevel) LogLevel.ofWord? .warn

/-- What a command line does that asks for a command. -/
def runNamed {m : Type → Type} [Monad m] (w : Workplace m) (args : Arguments) (command : String)
    (files : List String) : m Outcome :=
  match commandLevel args with
  | .error word => pure (.refuse s!"Unknown log level '{word}'\n")
  | .ok level   =>
      let logger : Logger := { name := "glint", level := level, stamped := false }
      match command with
      | "check" => checkFiles w args logger files
      | "run"   => runFile w args logger files
      | "codes" => pure (showCodes args)
      | _       => pure (.refuse (s!"Unknown command '{command}'\n\n" ++ usage))

/-- What a command line does. -/
def runCommand {m : Type → Type} [Monad m] (w : Workplace m) (argv : List String) : m Outcome :=
  match Arguments.parse argv with
  | .error e => pure (.refuse (e.message ++ "\n\n" ++ usage))
  | .ok args =>
      if args.isSet .help then pure ⟨0, [.out usage]⟩
      else
        match args.words with
        | command :: files =>
            if command = "" then pure ⟨usageCode, [.out usage]⟩
            else runNamed w args command files
        | [] => pure ⟨usageCode, [.out usage]⟩

end SceneScript
