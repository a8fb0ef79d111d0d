import SceneScript.Editor.Library

/-!
# LineTable — where the lines of a text start

A line ends with a line feed, a carriage return or both together. The table of a text lists the
offsets at which its lines start, the first line at zero.

A change of the text is carried over to the table without reading the text again: the starts of
the changed lines are replaced by those of the new text, and the later ones are moved. A change
may name lines far behind the end of the text, so a table can have places that no change has
set, and places that were computed from those and are lost.

* **`Offset.plus`**, **`Offset.least`** — offsets that may be unset or lost.
* **`LineTable.ofText`** — the table of a text.
* **`LineTable.patch`** — the table after a change.
-/

namespace SceneScript

namespace Offset

/-- A sum; it is lost unless both parts are known. -/
def plus : Offset → Offset → Offset
  | known a, known b => known (a + b)
  | _, _             => lost

/-- The lesser of two offsets; it is lost unless both are known. -/
def least : Offset → Offset → Offset
  | known a, known b => known (min a b)
  | _, _             => lost

/-- What is to be added to offsets behind a stretch when it gets a new length. -/
def growth (start stop : Offset) (newLength : Nat) : Offset :=
  match start, stop with
  | known a, known b => known (newLength - (b - a))
  | _, _             => lost

/-- An offset behind a stretch that grows. Only growth by zero leaves unknown offsets alone. -/
def grownBy (growth : Offset) (offset : Offset) : Offset :=
  if growth = known 0 then offset else offset.plus growth

end Offset

/-- A unit that ends a line. -/
def isLineEnd (u : UInt16) : Bool := u == 0x0A || u == 0x0D

/-- The offsets after the line ends of a text that itself begins at an offset. -/
def startsAfter (offset : Int) : List UInt16 → List Int
  | []             => []
  | [u]            => if isLineEnd u then [offset + 1] else []
  | u :: v :: rest =>
      if u == 0x0D && v == 0x0A then (offset + 2) :: startsAfter (offset + 2) rest
      else if isLineEnd u then (offset + 1) :: startsAfter (offset + 1) (v :: rest)
      else startsAfter (offset + 1) (v :: rest)

/-- The starts of the lines of a text. -/
abbrev LineTable := List Offset

namespace LineTable

/-- The table of a text. -/
def ofText (text : Text) : LineTable := (0 :: startsAfter 0 text.units).map .known

/-- The starts that a text brings when it is put at an offset; nothing but their number is known
    at a lost one. -/
def added (start : Offset) (new : Text) : LineTable :=
  match start with
  | .known n => (startsAfter n new.units).map .known
  | .unset   => (startsAfter 0 new.units).map .known
  | .lost    => (startsAfter 0 new.units).map fun _ => .lost

/-- The first `n` places, with unset ones at the end if there are fewer. -/
def padded (n : Nat) (table : LineTable) : LineTable :=
  table.take n ++ List.replicate (n - table.length) .unset

/-- With the starts of the lines behind `first`, up to `last`, replaced. As many new starts as
    old ones stand in the places of the lines, even behind the end of the table; otherwise they
    are put in as far as the table goes. -/
def replace (table : LineTable) (first last : Nat) (new : LineTable) : LineTable :=
  let head :=
    if new.length = last - first ∧ new ≠ [] then padded (first + 1) table
    else table.take (first + 1)
  head ++ new ++ table.drop (last + 1)

/-- With the places from `n` on moved. -/
def grownFrom (n : Nat) (growth : Offset) (table : LineTable) : LineTable :=
  table.take n ++ (table.drop n).map (Offset.grownBy growth)

/-- The table after a change of the stretch from `start`, in line `first`, to `stop`, in line
    `last`. -/
def patch (table : LineTable) (first last : Nat) (start stop : Offset) (new : Text) : LineTable :=
  let starts := added start new
  (table.replace first last starts).grownFrom (first + 1 + starts.length)
    (Offset.growth start stop new.length)

end LineTable

end SceneScript
