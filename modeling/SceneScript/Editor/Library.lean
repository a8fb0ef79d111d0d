import SceneScript.Text

/-!
# EditorLibrary — what the server is built on

How a name says where its document is, how changes edit a text, and which documents are open is
not the server's own business: it takes all of it from libraries. Here is what it takes, and the
server is a server over any such library.

A document is an object that is handed around, and a name that stays. Whoever holds it sees what
has become of it, so what documents hold belongs to the state of the library, beside which of them
are open. A notification of the editor leads to the next state, and may report a document: that
its content is another one, or that it has been closed.
-/

namespace SceneScript

/-- A place that an editor names. -/
structure Place where
  line      : Int
  character : Int
deriving DecidableEq, Repr

/-- A change: a new text for a stretch, or for everything. -/
structure Change where
  stretch : Option (Place × Place)
  text    : Text
deriving DecidableEq, Repr

/-- An offset in a text, as far as it is known: it may be no number at all, or one that is not
    there. -/
inductive Offset where
  | known (n : Int)
  | unset
  | lost
deriving DecidableEq, Repr

/-- Where the document of a name is: its scheme, its path and, of a file, its place on the disk. -/
structure Location where
  scheme   : String
  path     : String
  filePath : String
deriving DecidableEq, Repr

/-- A library of documents. -/
structure EditorLibrary where
  /-- A document, as the object that is handed around. -/
  Document  : Type
  /-- What the documents hold, and which of them are open. -/
  State     : Type
  /-- The state in which the server starts. -/
  start     : State
  /-- Where the document of a name is, or the wording of what is wrong with the name. -/
  locate    : String → Except Text Location
  uri       : Document → String
  version   : State → Document → Int
  text      : State → Document → Text
  offsetAt  : State → Document → Place → Offset
  /-- The open document of a name. -/
  document? : State → String → Option Document
  /-- All open documents. -/
  documents : State → List Document
  /-- A document is opened under a name, with a version and a text. -/
  didOpen   : State → String → Int → Text → State × Option Document
  /-- The document of a name gets a version and changes. -/
  didChange : State → String → Int → List Change → State × Option Document
  /-- The document of a name is closed. -/
  didClose  : State → String → State × Option Document

end SceneScript
