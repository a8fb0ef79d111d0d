import SceneScript.Editor.OpenDocuments

/-!
# What is relied on of a library of documents

The server is built on a library that is not its own. What is proved of the server holds over any
library that keeps what is documented of it: `get` finds the documents that are open, a
notification opens, changes or closes the document of its name and reports that, and leaves all
other documents alone. Nothing is said of how changes edit a text, of how a place becomes an
offset, or of which names say where their document is.

* **`EditorLibrary.Lawful`** — what is documented.
* **`EditorLibrary.buffered_lawful`** — documents in text buffers are such a library.
-/

namespace SceneScript

namespace EditorLibrary

/-- A document is the same in two states. -/
def Same (L : EditorLibrary) (o o' : L.State) (d : L.Document) : Prop :=
  L.version o' d = L.version o d ∧ L.text o' d = L.text o d

/-- A library does what is documented of it. -/
structure Lawful (L : EditorLibrary) : Prop where
  /-- At first no document is open. -/
  starts (uri : String) : L.document? L.start uri = none
  /-- The open documents are those that are found under some name. -/
  lists (o : L.State) (d : L.Document) :
    d ∈ L.documents o ↔ ∃ uri, L.document? o uri = some d
  /-- Opening makes a document of the name, which is found under it from then on. Its content is
      reported. -/
  opens (o : L.State) (uri : String) (version : Int) (text : Text) : ∃ o' d,
    L.didOpen o uri version text = (o', some d) ∧ L.uri d = uri ∧
    (∀ name, L.document? o' name = if name = uri then some d else L.document? o name) ∧
    ∀ d', d' ≠ d → L.Same o o' d'
  /-- Changes are made in the document itself, which stays the one that is open. Its content is
      reported. -/
  changes {o : L.State} {uri : String} {d : L.Document} (h : L.document? o uri = some d)
    (version : Int) (c : Change) (cs : List Change) : ∃ o',
    L.didChange o uri version (c :: cs) = (o', some d) ∧
    (∀ name, L.document? o' name = L.document? o name) ∧
    ∀ d', d' ≠ d → L.Same o o' d'
  /-- Without an open document or without changes there is nothing to report. -/
  changes_nothing {o : L.State} {uri : String} {changes : List Change}
    (h : L.document? o uri = none ∨ changes = []) (version : Int) :
    L.didChange o uri version changes = (o, none)
  /-- Closing takes a document away from its name. It is reported, and holds what it held. -/
  closes {o : L.State} {uri : String} {d : L.Document} (h : L.document? o uri = some d) : ∃ o',
    L.didClose o uri = (o', some d) ∧
    (∀ name, L.document? o' name = if name = uri then none else L.document? o name) ∧
    ∀ d', L.Same o o' d'
  /-- Without an open document there is nothing to close. -/
  closes_nothing {o : L.State} {uri : String} (h : L.document? o uri = none) :
    L.didClose o uri = (o, none)

/-- Every document is found under its own name only. -/
def Named (L : EditorLibrary) (o : L.State) : Prop :=
  ∀ uri d, L.document? o uri = some d → L.uri d = uri

/-- A document is open under its name from now on, and may be another one than before. -/
structure Renews (L : EditorLibrary) (o o' : L.State) (d : L.Document) : Prop where
  found (name : String) :
    L.document? o' name = if name = L.uri d then some d else L.document? o name
  same {d' : L.Document} (h : d' ≠ d) : L.Same o o' d'

/-- No document is open under a name from now on. -/
structure Releases (L : EditorLibrary) (o o' : L.State) (uri : String) : Prop where
  found (name : String) : L.document? o' name = if name = uri then none else L.document? o name
  same (d : L.Document) : L.Same o o' d

variable {L : EditorLibrary} {o o' : L.State} {d : L.Document} {uri : String}

theorem Named.renewed (h : L.Named o) (hd : L.Renews o o' d) : L.Named o' := by
  intro name d' hd'
  rw [hd.found] at hd'
  split at hd'
  · next hname =>
      cases hd'
      exact hname.symm
  · exact h name d' hd'

theorem Named.released (h : L.Named o) (hd : L.Releases o o' uri) : L.Named o' := by
  intro name d' hd'
  rw [hd.found] at hd'
  split at hd'
  · cases hd'
  · exact h name d' hd'

namespace Lawful

theorem named_start (hL : L.Lawful) : L.Named L.start := by
  intro uri d hd
  cases (hL.starts uri).symm.trans hd

theorem didOpen_renews (hL : L.Lawful) (o : L.State) (uri : String) (version : Int)
    (text : Text) : ∃ o' d, L.didOpen o uri version text = (o', some d) ∧ L.uri d = uri ∧
      L.Renews o o' d := by
  obtain ⟨o', d, hrun, rfl, hfound, hsame⟩ := hL.opens o uri version text
  exact ⟨o', d, hrun, rfl, hfound, fun hd => hsame _ hd⟩

/-- Changes make an open document another one, or there is nothing to change. -/
theorem didChange_cases (hL : L.Lawful) (h : L.Named o) (uri : String) (version : Int)
    (changes : List Change) : L.didChange o uri version changes = (o, none) ∨
      ∃ o' d, L.didChange o uri version changes = (o', some d) ∧ L.uri d = uri ∧
        L.document? o uri = some d ∧ L.Renews o o' d := by
  cases hd : L.document? o uri with
  | none => exact .inl (hL.changes_nothing (.inl hd) version)
  | some d =>
      cases changes with
      | nil => exact .inl (hL.changes_nothing (.inr rfl) version)
      | cons c cs =>
          obtain ⟨o', hrun, hfound, hsame⟩ := hL.changes hd version c cs
          refine .inr ⟨o', d, hrun, h uri d hd, rfl, fun name => ?_, fun hd' => hsame _ hd'⟩
          rw [hfound]
          split
          · next hname => rw [hname, h uri d hd, hd]
          · rfl

/-- An open document is closed, or there is nothing to close. -/
theorem didClose_cases (hL : L.Lawful) (o : L.State) (uri : String) :
    (L.document? o uri = none ∧ L.didClose o uri = (o, none)) ∨
      ∃ o' d, L.document? o uri = some d ∧ L.didClose o uri = (o', some d) ∧
        L.Releases o o' uri := by
  cases hd : L.document? o uri with
  | none => exact .inl ⟨rfl, hL.closes_nothing hd⟩
  | some d =>
      obtain ⟨o', hrun, hfound, hsame⟩ := hL.closes hd
      exact .inr ⟨o', d, rfl, hrun, hfound, hsame⟩

theorem named_didChange (hL : L.Lawful) (h : L.Named o) (uri : String) (version : Int)
    (changes : List Change) : L.Named (L.didChange o uri version changes).1 := by
  rcases hL.didChange_cases h uri version changes with hrun | ⟨o', d, hrun, -, -, hd⟩
  · rw [hrun]
    exact h
  · rw [hrun]
    exact h.renewed hd

theorem named_didClose (hL : L.Lawful) (h : L.Named o) (uri : String) :
    L.Named (L.didClose o uri).1 := by
  rcases hL.didClose_cases o uri with ⟨-, hrun⟩ | ⟨o', d, -, hrun, hd⟩
  · rw [hrun]
    exact h
  · rw [hrun]
    exact h.released hd

end Lawful

end EditorLibrary

/-! ## Documents in text buffers -/

namespace OpenDocuments

variable {o : OpenDocuments} {uri : String} {d : DocumentRef}

theorem didChange_open (h : o.table.get? uri = some d) (version : Int) (c : Change)
    (cs : List Change) : o.didChange uri version (c :: cs) =
      (o.hold d ((o.buffers d).edit version (c :: cs)), some d) := by
  simp only [didChange, h]

theorem didChange_nothing {changes : List Change} (h : o.table.get? uri = none ∨ changes = [])
    (version : Int) : o.didChange uri version changes = (o, none) := by
  rcases h with h | rfl
  · simp only [didChange, h]
  · cases hd : o.table.get? uri <;> simp only [didChange, hd]

theorem didClose_open (h : o.table.get? uri = some d) :
    o.didClose uri = ({ o with table := o.table.erase uri }, some d) := by
  simp only [didClose, h]

theorem didClose_nothing (h : o.table.get? uri = none) : o.didClose uri = (o, none) := by
  simp only [didClose, h]

/-- Another document keeps its buffer. -/
theorem same_hold (o : OpenDocuments) {d d' : DocumentRef} (b : TextBuffer) (h : d' ≠ d) :
    EditorLibrary.buffered.Same o (o.hold d b) d' := by
  have hbuffer : (o.hold d b).buffers d' = o.buffers d' := if_neg h
  exact ⟨congrArg TextBuffer.version hbuffer, congrArg TextBuffer.text hbuffer⟩

end OpenDocuments

open OpenDocuments in
theorem EditorLibrary.buffered_lawful : EditorLibrary.buffered.Lawful where
  starts uri := NamedTable.get?_empty uri
  lists o d := NamedTable.mem_values o.table d
  opens o uri _ _ :=
    ⟨_, ⟨o.opened, uri⟩, rfl, rfl, fun name => NamedTable.get?_insert o.table uri _ name,
      fun _ hd => same_hold o _ hd⟩
  changes {o _ _} hd version c cs :=
    ⟨_, didChange_open hd version c cs, fun _ => rfl, fun _ hd' => same_hold o _ hd'⟩
  changes_nothing h version := didChange_nothing h version
  closes {o uri _} hd :=
    ⟨_, didClose_open hd, fun name => NamedTable.get?_erase o.table uri name,
      fun _ => ⟨rfl, rfl⟩⟩
  closes_nothing h := didClose_nothing h

end SceneScript
