/-!
# Path — paths with slashes

A path is a text whose parts stand between slashes; it is absolute when it begins with one.
An empty part and `.` stand for nothing, and `..` takes back the part before it. All functions
work on texts alone and ask no file system.

* **`resolve`** — the parts of a path seen from a directory.
* **`join`** — the normal form of a name in a directory.
* **`enclosing`** — the directory that a path names something in.
* **`ancestors`** — a directory and the directories above it.
-/

namespace SceneScript

namespace Path

/-- The parts of a path. -/
def parts (path : String) : List String := path.splitOn "/"

/-- Whether a path begins at the root. -/
def isAbsolute (path : String) : Bool := path.toList.head? == some '/'

/-- The parts before a place, last first, after one more part. Above the root there is only
    the root; a relative path keeps the `..` that it cannot take back. -/
def follow (absolute : Bool) (reversed : List String) (part : String) : List String :=
  if part = "" ∨ part = "." then reversed
  else if part = ".." then
    match reversed with
    | []           => if absolute then [] else [".."]
    | last :: rest => if last = ".." then ".." :: reversed else rest
  else part :: reversed

/-- Parts without those that stand for nothing or take another back. -/
def normalize (absolute : Bool) (ps : List String) : List String :=
  (ps.foldl (follow absolute) []).reverse

/-- The absolute path with the given parts. -/
def ofParts (ps : List String) : String := "/" ++ "/".intercalate ps

/-- The parts, from the root, of a path seen from a directory. -/
def resolve (directory path : String) : List String :=
  normalize true (if isAbsolute path then parts path else parts directory ++ parts path)

/-- The normal form of the path to a name in a directory. -/
def join (directory name : String) : String :=
  let path := if directory = "" then name else directory ++ "/" ++ name
  let absolute := isAbsolute path
  let text := "/".intercalate (normalize absolute (parts path))
  if absolute then "/" ++ text else if text = "" then "." else text

/-- The directory that a path names something in, as far as the text tells. -/
def enclosing (path : String) : String :=
  let front := ((parts path).reverse.dropWhile (· = "")).tail.reverse
  let text := "/".intercalate front
  if text ≠ "" then text else if isAbsolute path then "/" else "."

/-- Parts given last first: their path and those of the directories above it, nearest first. -/
def ancestorsOf : List String → List String
  | []           => [ofParts []]
  | last :: rest => ofParts (last :: rest).reverse :: ancestorsOf rest

/-- A directory and the directories above it, nearest first. -/
def ancestors (ps : List String) : List String := ancestorsOf ps.reverse

end Path

end SceneScript
