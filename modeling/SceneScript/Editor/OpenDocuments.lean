import SceneScript.Editor.NamedTable
import SceneScript.Editor.TextBuffer
import SceneScript.Editor.Uri

/-!
# OpenDocuments — the documents that an editor has open

A library of documents that holds each of them in a `TextBuffer`. The documents are numbered as
they are opened, so two that are opened under one name are different objects.

* **`EditorLibrary.buffered`** — the library.
-/

namespace SceneScript

/-- A document: when it was opened, and its name. -/
structure DocumentRef where
  number : Nat
  uri    : String
deriving DecidableEq, Repr

/-- What documents hold, and which are open under which names. -/
structure OpenDocuments where
  opened  : Nat
  buffers : DocumentRef → TextBuffer
  table   : NamedTable DocumentRef

namespace OpenDocuments

/-- No document has been opened. -/
def start : OpenDocuments := ⟨0, fun _ => .create 0 .empty, .empty⟩

/-- With another buffer for a document. -/
def hold (o : OpenDocuments) (d : DocumentRef) (b : TextBuffer) : OpenDocuments :=
  { o with buffers := fun d' => if d' = d then b else o.buffers d' }

/-- A new document takes its name. -/
def didOpen (o : OpenDocuments) (uri : String) (version : Int) (text : Text) :
    OpenDocuments × Option DocumentRef :=
  let d : DocumentRef := ⟨o.opened, uri⟩
  let o' := o.hold d (.create version text)
  ({ o' with opened := o.opened + 1, table := o.table.insert uri d }, some d)

/-- The document of a name changes; it stays as it is without changes. -/
def didChange (o : OpenDocuments) (uri : String) (version : Int) (changes : List Change) :
    OpenDocuments × Option DocumentRef :=
  match o.table.get? uri, changes with
  | some d, _ :: _ => (o.hold d ((o.buffers d).edit version changes), some d)
  | _, _           => (o, none)

/-- The document of a name is no longer open. -/
def didClose (o : OpenDocuments) (uri : String) : OpenDocuments × Option DocumentRef :=
  match o.table.get? uri with
  | some d => ({ o with table := o.table.erase uri }, some d)
  | none   => (o, none)

end OpenDocuments

/-- The library whose documents are text buffers. -/
def EditorLibrary.buffered : EditorLibrary where
  Document      := DocumentRef
  State         := OpenDocuments
  start         := .start
  locate        := Uri.locate
  uri           := DocumentRef.uri
  version o d   := (o.buffers d).version
  text o d      := (o.buffers d).text
  offsetAt o d  := (o.buffers d).offsetAt
  document? o   := o.table.get?
  documents o   := o.table.values
  didOpen       := OpenDocuments.didOpen
  didChange     := OpenDocuments.didChange
  didClose      := OpenDocuments.didClose

end SceneScript
