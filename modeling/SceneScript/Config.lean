import SceneScript.Json
import SceneScript.Diagnostic
import SceneScript.Lint
import SceneScript.Log

/-!
# Config — the settings of a project

A project may set its name, the log level, which diagnostics and lint rules it wants, how
scripts run and which files belong to it. Settings are read from JSON. A value of the wrong
type or range counts as not set, and what is not set has its default.

* **`Config`** — the settings with their defaults.
* **`Config.resolve`** — the settings that a JSON value makes.
* **`Config.json`** — the JSON object of settings.
-/

namespace SceneScript

/-- Which diagnostics are shown. -/
structure DiagnosticsConfig where
  enabled     : Bool := true
  maxProblems : Nat := 200
deriving DecidableEq, Repr

/-- Whether scripts are linted, and by which rules. -/
structure LintConfig where
  enabled : Bool := true
  rules   : LintRules := {}
deriving DecidableEq, Repr

/-- How scripts run: how deep calls may nest, and how many frames of how many seconds are
    simulated. -/
structure RunConfig where
  maxCallDepth : Nat := 256
  frames       : Nat := 1
  delta        : Binary64 := .ofRatio false 1 60
deriving DecidableEq, Repr

/-- Which files belong to a project. -/
structure FilesConfig where
  extensions : List Text := [".glint"]
  exclude    : List Text := ["**/node_modules/**", "**/dist/**", "**/.git/**"]
deriving DecidableEq, Repr

/-- The settings of a project. -/
structure Config where
  name        : Text := "Glint Project"
  logLevel    : LogLevel := .info
  diagnostics : DiagnosticsConfig := {}
  lint        : LintConfig := {}
  running     : RunConfig := {}
  files       : FilesConfig := {}
deriving DecidableEq, Repr

namespace Config

/-! ## Reading -/

/-- A member of a JSON object as `read` understands it, or the default. -/
def setting {α : Type} (group : Json) (key : String) (read : Json → Option α) (default : α) : α :=
  ((group.get? key).bind read).getD default

/-- A member that is an object; anything else counts as the empty object. -/
def group (raw : Json) (key : String) : Json :=
  match raw.get? key with
  | some (.object members) => .object members
  | _                      => .object []

/-- A text that is not blank, without the blanks around it. -/
def readName (j : Json) : Option Text :=
  j.text?.bind fun t => if t.trim.isEmpty then none else some t.trim

/-- The level that a word names. -/
def readLevel (j : Json) : Option LogLevel := j.text?.bind fun t => LogLevel.ofWord? t.toString

/-- A positive integer. -/
def readCount (j : Json) : Option Nat :=
  j.number?.bind fun x => if x.isInteger ∧ 0 < x.truncate then some x.truncate.toNat else none

/-- A positive finite number. -/
def readDuration (j : Json) : Option Binary64 :=
  j.number?.bind fun x => if x.isFinite ∧ Binary64.zero.lt x then some x else none

/-- The texts of an array. -/
def readTexts (j : Json) : Option (List Text) :=
  j.items?.map fun items => items.filterMap Json.text?

/-- Texts without the blanks around them, without empty ones and repetitions. -/
def cleanTexts (texts : List Text) : List Text :=
  distinctBy id [] ((texts.map Text.trim).filter fun t => !t.isEmpty)

/-- An extension with its dot; a blank one is that of scripts. -/
def normalExtension (t : Text) : Text :=
  if t.trim.isEmpty then ".glint"
  else if t.trim.startsWith "." then t.trim
  else Text.ofString "." ++ t.trim

/-- The settings on diagnostics. -/
def readDiagnostics (g : Json) : DiagnosticsConfig :=
  let d : DiagnosticsConfig := {}
  { enabled     := setting g "enabled" Json.bool? d.enabled
    maxProblems := setting g "maxProblems" readCount d.maxProblems }

/-- The settings on linting. -/
def readLint (g : Json) : LintConfig :=
  let rule (key : String) : Bool := setting g key Json.bool? true
  { enabled := setting g "enabled" Json.bool? true
    rules   := ⟨rule "unusedVariables", rule "unreachableCode", rule "needlessMut"⟩ }

/-- The settings on running. -/
def readRunning (g : Json) : RunConfig :=
  let d : RunConfig := {}
  { maxCallDepth := setting g "maxCallDepth" readCount d.maxCallDepth
    frames       := setting g "frames" readCount d.frames
    delta        := setting g "delta" readDuration d.delta }

/-- The settings on files. -/
def readFiles (g : Json) : FilesConfig :=
  let d : FilesConfig := {}
  { extensions := cleanTexts ((setting g "extensions" readTexts d.extensions).map normalExtension)
    exclude    := cleanTexts (setting g "exclude" readTexts d.exclude) }

/-- The settings that a JSON value makes. -/
def resolve (raw : Json) : Config :=
  let d : Config := {}
  { name        := setting raw "name" readName d.name
    logLevel    := setting raw "logLevel" readLevel d.logLevel
    diagnostics := readDiagnostics (group raw "diagnostics")
    lint        := readLint (group raw "lint")
    running     := readRunning (group raw "runtime")
    files       := readFiles (group raw "files") }

/-! ## Writing -/

/-- The members of the JSON object of settings. -/
def members (c : Config) : List (Text × Json) :=
  [("name", .string c.name),
   ("logLevel", .str c.logLevel.word),
   ("diagnostics", .obj
     [("enabled", .bool c.diagnostics.enabled), ("maxProblems", .int c.diagnostics.maxProblems)]),
   ("lint", .obj
     [("enabled", .bool c.lint.enabled),
      ("unusedVariables", .bool c.lint.rules.unusedVariables),
      ("unreachableCode", .bool c.lint.rules.unreachableCode),
      ("needlessMut", .bool c.lint.rules.needlessMut)]),
   ("runtime", .obj
     [("maxCallDepth", .int c.running.maxCallDepth), ("frames", .int c.running.frames),
      ("delta", .number c.running.delta)]),
   ("files", .obj
     [("extensions", .array (c.files.extensions.map .string)),
      ("exclude", .array (c.files.exclude.map .string))])]

/-- The JSON object of settings. -/
def json (c : Config) : Json := .object c.members

/-- The rules by which scripts are linted, if they are. -/
def lintRules? (c : Config) : Option LintRules :=
  if c.lint.enabled then some c.lint.rules else none

end Config

end SceneScript
