import SceneScript.Config
import SceneScript.Files
import SceneScript.Json.Merge
import SceneScript.Json.Parser

/-!
# Project — finding and reading the settings of a file

The project of a file is the nearest directory above it that holds a settings file, else the
nearest one under version control, else the workspace. Settings in the file are merged over
the defaults. A settings file that cannot be used is warned about, and the defaults stand.

* **`findProjectRoot`** — the directory of a project.
* **`loadProject`** — the settings that hold for a file.
-/

namespace SceneScript

/-- The name of the settings file. -/
def configFileName : String := "glint.config.json"

/-- The name of the entry that marks a directory under version control. -/
def versionControlName : String := ".git"

/-- Why a settings file cannot be used. -/
inductive ConfigProblem where
  | unreadable (reason : String)
  | notJson
  | notObject
deriving DecidableEq, Repr

/-- The wording. -/
def ConfigProblem.message : ConfigProblem → String
  | .unreadable reason => reason
  | .notJson           => "expected JSON"
  | .notObject         => "expected a JSON object"

/-- The members of the object that a settings file holds. -/
def readConfigMembers (content : Except String Text) : Except ConfigProblem (List (Text × Json)) :=
  match content with
  | .error reason => .error (.unreadable reason)
  | .ok text      =>
      match Json.parse? text with
      | none                   => .error .notJson
      | some (.object members) => .ok members
      | some _                 => .error .notObject

/-- The settings that hold for a file, and where they come from. -/
structure Project where
  config  : Config := {}
  root    : Option String := none
  path    : Option String := none
  problem : Option ConfigProblem := none
deriving DecidableEq, Repr

namespace Project

/-- What is wrong with the settings file. -/
def warnings (p : Project) : List String :=
  match p.path, p.problem with
  | some path, some problem => [s!"{path}: {problem.message}"]
  | _, _                    => []

/-- The events that loading the settings logs. -/
def log (p : Project) (logger : Logger) : List LogEvent :=
  p.warnings.flatMap fun w => logger.say .warn s!"Using default configuration. {w}"

/-- The project with the settings of its settings file. -/
def ofContent (root : Option String) (path : String) (content : Except String Text) : Project :=
  match readConfigMembers content with
  | .error problem => { root := root, path := some path, problem := some problem }
  | .ok members    =>
      let merged := Json.merge ({} : Config).members members
      { config := .resolve (.object merged), root := root, path := some path }

end Project

/-- The first of some directories that holds a name. -/
def firstHolding {m : Type → Type} [Monad m] (files : Files m) (name : String) :
    List String → m (Option String)
  | []      => pure none
  | d :: ds => do
      if ← files.present (Path.join d name) then pure (some d)
      else firstHolding files name ds

/-- The root of the project of a directory. -/
def findProjectRoot {m : Type → Type} [Monad m] (files : Files m) (start : String) :
    m (Option String) := do
  let directories := Path.ancestors (Path.resolve files.workingDirectory start)
  match ← firstHolding files configFileName directories with
  | some root => pure (some root)
  | none      => firstHolding files versionControlName directories

/-- The settings that hold for a file or directory. -/
def loadProject {m : Type → Type} [Monad m] (files : Files m) (file : String)
    (workspace : Option String) : m Project := do
  let start := if ← files.isDirectory file then file else Path.enclosing file
  match (← findProjectRoot files start).or workspace with
  | none      => pure {}
  | some root =>
      let path := Path.join root configFileName
      if root ≠ "" ∧ (← files.present path) then
        pure (.ofContent (some root) path (← files.read path))
      else pure { root := some root }

end SceneScript
