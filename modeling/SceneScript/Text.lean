/-!
# Text — sequences of 16-bit code units

Scripts, names, string literals and printed lines are sequences of UTF-16 code units, and
every offset, column and length of the library counts them. A unit pair may be split by a
slice, so a sequence may hold half of a pair; such a half is kept as it is, in messages too, and
only shown as the replacement character when a text is turned into a `String` for a report or a
line of the log.

* **`Text`** — the sequence, with `length`, `++`, `splitOn`, `join` and `slice`.
* **`Text.ofString`** / **`Text.toString`** — in and out of Lean strings.
-/

namespace SceneScript

/-- A sequence of UTF-16 code units. -/
structure Text where
  units : List UInt16
deriving DecidableEq, Repr, Inhabited, Hashable

/-- The code unit of a character below U+10000. -/
def unitOf (c : Char) : UInt16 := c.toNat.toUInt16

/-- The one or two units that encode a character. -/
def encodeChar (c : Char) : List UInt16 :=
  if c.toNat < 0x10000 then [unitOf c]
  else
    [(0xD800 + (c.toNat - 0x10000) / 0x400).toUInt16,
     (0xDC00 + (c.toNat - 0x10000) % 0x400).toUInt16]

/-- The first half of a unit pair. -/
def isHighHalf (u : UInt16) : Bool := 0xD800 ≤ u && u < 0xDC00

/-- The second half of a unit pair. -/
def isLowHalf (u : UInt16) : Bool := 0xDC00 ≤ u && u < 0xE000

/-- An upper-case ASCII letter. -/
def isUpperUnit (u : UInt16) : Bool := 0x41 ≤ u && u ≤ 0x5A

/-- The character that a single unit stands for; half of a pair stands for no character and
    shows as U+FFFD. -/
def charOfUnit (u : UInt16) : Char :=
  if isHighHalf u || isLowHalf u then Char.ofNat 0xFFFD else Char.ofNat u.toNat

/-- The character that a pair of halves stands for. -/
def charOfPair (high low : UInt16) : Char :=
  Char.ofNat (0x10000 + (high.toNat - 0xD800) * 0x400 + (low.toNat - 0xDC00))

/-- The characters of a unit sequence, pairs joined. -/
def decodeUnits : List UInt16 → List Char
  | []             => []
  | [u]            => [charOfUnit u]
  | u :: v :: rest =>
      if isHighHalf u && isLowHalf v then charOfPair u v :: decodeUnits rest
      else charOfUnit u :: decodeUnits (v :: rest)

namespace Text

/-- The text of a Lean string. -/
def ofString (s : String) : Text := ⟨s.toList.flatMap encodeChar⟩

/-- The string that shows a text; half pairs show as U+FFFD. -/
def toString (t : Text) : String := String.ofList (decodeUnits t.units)

instance : ToString Text := ⟨Text.toString⟩

instance : Coe String Text := ⟨ofString⟩

/-- The text without units. -/
def empty : Text := ⟨[]⟩

/-- Number of units. -/
def length (t : Text) : Nat := t.units.length

/-- Whether there is no unit. -/
def isEmpty (t : Text) : Bool := t.units.isEmpty

/-- One text after the other. -/
def append (s t : Text) : Text := ⟨s.units ++ t.units⟩

instance : Append Text := ⟨append⟩

/-- The texts one after the other, with `sep` between neighbours. -/
def join (sep : Text) (parts : List Text) : Text :=
  ⟨sep.units.intercalate (parts.map Text.units)⟩

/-- The pieces between the occurrences of one unit; a text without it is one piece. -/
def splitUnits (u : UInt16) : List UInt16 → List (List UInt16)
  | []        => [[]]
  | v :: rest =>
      if v = u then [] :: splitUnits u rest
      else
        match splitUnits u rest with
        | []            => [[v]]
        | piece :: more => (v :: piece) :: more

/-- The pieces between the occurrences of the character `c`. -/
def splitOn (c : Char) (t : Text) : List Text := (splitUnits (unitOf c) t.units).map Text.mk

/-- Whether `t` begins with `s`. -/
def startsWith (t s : Text) : Bool := s.units.isPrefixOf t.units

/-- The units with offsets from `start` up to, not including, `stop`. -/
def slice (t : Text) (start stop : Nat) : Text := ⟨(t.units.take stop).drop start⟩

/-- The text `c` repeated `n` times. -/
def replicate (n : Nat) (c : Char) : Text := ⟨List.replicate n (unitOf c)⟩

/-- Whether the character `c` (below U+10000) occurs. -/
def contains (t : Text) (c : Char) : Bool := t.units.contains (unitOf c)

end Text

/-- The first `n` items, or for a negative `n` all but the last `-n`. -/
def takeUpTo {α : Type} (n : Int) (items : List α) : List α :=
  if n < 0 then items.take (items.length - (-n).toNat) else items.take n.toNat

end SceneScript
