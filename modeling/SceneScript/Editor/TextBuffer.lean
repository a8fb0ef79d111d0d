import SceneScript.Editor.LineTable

/-!
# TextBuffer — a text under edit

An editor names places by line and character and sends changes of stretches. A place outside the
text means the nearest one inside: no further than the end of its line, before the line end, and
no further than the end of the text.

The buffer keeps the table of its lines beside its text. A change patches the table; only
where a carriage return and a line feed meet at an end of the new text, so that two line ends
become one, the table is made anew.

* **`TextBuffer.offsetAt`** — the offset of a place.
* **`TextBuffer.edit`** — the buffer after changes.
-/

namespace SceneScript

/-- Whether one place is behind another. -/
def Place.behind (p q : Place) : Bool :=
  q.line < p.line || (p.line == q.line && q.character < p.character)

namespace Text

/-- What stands before an offset: everything if it is unset, nothing if it is lost. -/
def before (t : Text) : Offset → Text
  | .known n => ⟨t.units.take n.toNat⟩
  | .unset   => t
  | .lost    => .empty

/-- What stands behind an offset: everything if it is not known. -/
def behind (t : Text) : Offset → Text
  | .known n => ⟨t.units.drop n.toNat⟩
  | _        => t

/-- Whether a carriage return stands before an offset and a line feed behind it. -/
def joinsLineEnd (t : Text) (n : Int) : Bool :=
  0 < n && t.units[(n - 1).toNat]? == some 0x0D && t.units[n.toNat]? == some 0x0A

/-- An offset, or the end of its line's content if it lies behind that. An offset outside the
    text stays as it is. -/
def beforeLineEnd (t : Text) (start offset : Int) : Int :=
  if offset ≤ t.length then
    offset - (((t.slice start.toNat offset.toNat).units.reverse).takeWhile isLineEnd).length
  else offset

end Text

/-- A text with its version and the table of its lines. -/
structure TextBuffer where
  version : Int
  text    : Text
  table   : LineTable
deriving DecidableEq, Repr

namespace TextBuffer

/-- A new text. -/
def create (version : Int) (text : Text) : TextBuffer := ⟨version, text, .ofText text⟩

/-- The offset at which a line ends, its line end included. -/
def lineStop (b : TextBuffer) (line : Nat) : Offset :=
  (b.table[line + 1]?).getD (.known b.text.length)

/-- The offset of a place. -/
def offsetAt (b : TextBuffer) (p : Place) : Offset :=
  if p.line < 0 then .known 0
  else
    match b.table[p.line.toNat]? with
    | none       => .known b.text.length
    | some start =>
        if p.character ≤ 0 then start
        else
          match start, (start.plus (.known p.character)).least (b.lineStop p.line.toNat) with
          | .known first, .known last => .known (b.text.beforeLineEnd first last)
          | _, _                      => .lost

/-- With a new text, and the table of its lines made anew. -/
def withText (b : TextBuffer) (text : Text) : TextBuffer :=
  { b with text := text, table := .ofText text }

/-- Whether the new text of a change completes a line end with what stands before or behind
    it. -/
def completesLineEnd (text : Text) (start : Offset) (newLength : Nat) : Bool :=
  match start with
  | .known n => text.joinsLineEnd n || text.joinsLineEnd (n + newLength)
  | _        => false

/-- The buffer after one change of a stretch. -/
def replace (b : TextBuffer) (first last : Place) (new : Text) : TextBuffer :=
  let start := b.offsetAt first
  let stop := b.offsetAt last
  let text := b.text.before start ++ new ++ b.text.behind stop
  if completesLineEnd text start new.length then b.withText text
  else
    { b with
      text  := text
      table := b.table.patch first.line.toNat last.line.toNat start stop new }

/-- The buffer after one change; a stretch may be given backwards. -/
def apply (b : TextBuffer) (c : Change) : TextBuffer :=
  match c.stretch with
  | none               => b.withText c.text
  | some (first, last) =>
      if first.behind last then b.replace last first c.text else b.replace first last c.text

/-- The buffer after changes, one after the other. -/
def edit (b : TextBuffer) (version : Int) (changes : List Change) : TextBuffer :=
  { changes.foldl apply b with version := version }

end TextBuffer

end SceneScript
