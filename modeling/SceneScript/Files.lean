import SceneScript.Path
import SceneScript.Text

/-!
# Files — what the library asks of a file system

A file system is three questions: whether something is at a path, whether it is a directory,
and what a file holds. The answers come in a monad, so that the same code reads a disk and a
tree that is held in memory.

* **`Files`** — the questions.
* **`FileTree`** — files in memory, and **`FileTree.files`**, which answers from them.
-/

namespace SceneScript

/-- A file system. -/
structure Files (m : Type → Type) where
  workingDirectory : String
  present          : String → m Bool
  isDirectory      : String → m Bool
  read             : String → m (Except String Text)

/-- Files in memory. Every directory on the way to a file or a directory exists too. -/
structure FileTree where
  contents    : List (List String × Text) := []
  directories : List (List String) := []
deriving DecidableEq, Repr

namespace FileTree

/-- Whether the directory with the given parts exists. -/
def hasDirectory (t : FileTree) (ps : List String) : Bool :=
  ps.isEmpty || t.directories.any ps.isPrefixOf ||
    t.contents.any fun f => ps.isPrefixOf f.1 && ps != f.1

/-- What the file with the given parts holds. -/
def content? (t : FileTree) (ps : List String) : Option Text := t.contents.lookup ps

/-- The place that is reached from a directory, with parts given last first; only a directory
    can be passed through. -/
def walk? (t : FileTree) : List String → List String → Option (List String)
  | here, []           => some here.reverse
  | here, part :: rest =>
      if t.hasDirectory here.reverse then t.walk? (Path.follow true here part) rest else none

/-- The place that a path leads to; paths that are not absolute begin at the root. -/
def locate? (t : FileTree) (path : String) : Option (List String) :=
  t.walk? [] (Path.parts path)

/-- The tree after a file is written. -/
def write (t : FileTree) (path : String) (text : Text) : FileTree :=
  let ps := Path.resolve "/" path
  { t with contents := (ps, text) :: t.contents.filter fun f => f.1 ≠ ps }

/-- The tree after a directory is made. -/
def makeDirectory (t : FileTree) (path : String) : FileTree :=
  { t with directories := Path.resolve "/" path :: t.directories }

/-- What a file holds, or why it cannot be read. -/
def read (t : FileTree) (path : String) : Except String Text :=
  match t.locate? path with
  | none    => .error "no such file or directory"
  | some ps =>
      match t.content? ps with
      | some text => .ok text
      | none      =>
          .error (if t.hasDirectory ps then "is a directory" else "no such file or directory")

/-- The tree as a file system. -/
def files (t : FileTree) : Files Id where
  workingDirectory := "/"
  present path     :=
    (t.locate? path).any fun ps => t.hasDirectory ps || (t.content? ps).isSome
  isDirectory path := (t.locate? path).any t.hasDirectory
  read path        := t.read path

end FileTree

end SceneScript
