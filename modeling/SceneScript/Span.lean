import SceneScript.Text

/-!
# Span — places in a script

A position is an offset together with its line and column, all counted from zero in units;
only a line feed ends a line. A span is the stretch between two positions.
-/

namespace SceneScript

/-- A place in a script: the offset, and the line and column it lies in. -/
structure Position where
  offset : Nat
  line   : Nat
  column : Nat
deriving DecidableEq, Repr, Inhabited

/-- The line feed. -/
def lineFeed : UInt16 := 0x0A

namespace Position

/-- The beginning of a script. -/
def origin : Position := ⟨0, 0, 0⟩

/-- The position after one more unit. -/
def next (p : Position) (u : UInt16) : Position :=
  if u = lineFeed then ⟨p.offset + 1, p.line + 1, 0⟩
  else ⟨p.offset + 1, p.line, p.column + 1⟩

/-- The position after more units. -/
def after (p : Position) (us : List UInt16) : Position := us.foldl next p

end Position

/-- The stretch from `start` up to, not including, `stop`. -/
structure Span where
  start : Position
  stop  : Position
deriving DecidableEq, Repr, Inhabited

namespace Span

/-- The empty span at the beginning of a script. -/
def origin : Span := ⟨.origin, .origin⟩

/-- The empty span at a position. -/
def point (p : Position) : Span := ⟨p, p⟩

/-- From the start of one span to the end of another. -/
def through (a b : Span) : Span := ⟨a.start, b.stop⟩

end Span

end SceneScript
