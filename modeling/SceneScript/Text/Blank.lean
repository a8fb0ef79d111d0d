import SceneScript.Text

/-!
# Blank units — white space and line ends

The units that `trim` removes and that separate the parts of an editor context: the ASCII
blanks, the no-break space, the byte order mark, the line and paragraph separators and every
space separator of Unicode.
-/

namespace SceneScript

/-- White space or a line end. -/
def isBlank (u : UInt16) : Bool :=
  (0x0009 ≤ u && u ≤ 0x000D) || u == 0x0020 || u == 0x00A0 || u == 0x1680 ||
  (0x2000 ≤ u && u ≤ 0x200A) || u == 0x2028 || u == 0x2029 || u == 0x202F ||
  u == 0x205F || u == 0x3000 || u == 0xFEFF

/-- Without the items satisfying `p` at the end. -/
def dropTrailing {α : Type} (p : α → Bool) (xs : List α) : List α :=
  (xs.reverse.dropWhile p).reverse

namespace Text

/-- Without blank units at either end. -/
def trim (t : Text) : Text := ⟨dropTrailing isBlank (t.units.dropWhile isBlank)⟩

end Text

end SceneScript
