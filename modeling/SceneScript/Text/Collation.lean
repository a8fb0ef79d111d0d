import SceneScript.Text
import SceneScript.Text.Collation.Alphabet
import SceneScript.Text.Collation.Spelling

/-!
# Collation — the dictionary order of texts

A text is spelt out as a sequence of elements, each a letter, an accent on the letter before it,
or a mark. Two texts are compared in three passes. The first looks at letters and marks alone:
marks come before digits and digits before letters. The second looks at accents, and the third
at forms: of texts that agree in everything else, the one with a small letter where the other
has a capital comes first. In each pass a text that is the beginning of another comes first.

Control characters and the like are passed over, so texts that differ in nothing else are equal
in this order.

* **`Collation.elements`** — how a character is spelt out.
* **`Text.collate`** — the order of two texts.
-/

namespace SceneScript

namespace Collation

/-! ## Code points -/

/-- The code points of a unit sequence, pairs joined; half of a pair stands for itself. -/
def codePoints : List UInt16 → List Nat
  | []             => []
  | [u]            => [u.toNat]
  | u :: v :: rest =>
      if isHighHalf u && isLowHalf v then (charOfPair u v).toNat :: codePoints rest
      else u.toNat :: codePoints (v :: rest)

/-- Whether a code point is in one of several ranges. -/
def inRanges (ranges : List (Nat × Nat)) (c : Nat) : Bool :=
  ranges.any fun r => r.1 ≤ c && c ≤ r.2

/-- Characters that the order passes over: controls, joiners, directions, variation selectors. -/
def isPassedOver : Nat → Bool :=
  inRanges
    [(0x00, 0x08), (0x0E, 0x1F), (0x7F, 0x84), (0x86, 0x9F), (0xAD, 0xAD), (0x34F, 0x34F),
     (0x61C, 0x61C), (0x180B, 0x180E), (0x200B, 0x200F), (0x202A, 0x202E), (0x2060, 0x206F),
     (0xFE00, 0xFE0F), (0xFEFF, 0xFEFF), (0xFFF9, 0xFFFB), (0xE0000, 0xE0FFF)]

/-! ## Places of characters -/

/-- The groups of characters, the lesser first. -/
inductive Group where
  | mark | symbol | currency | letter | otherScript | hangul | kana | han | hanExtension | unassigned
deriving DecidableEq, Repr

namespace Group

/-- The place of a group. -/
def rank : Group → Nat
  | mark         => 0
  | symbol       => 1
  | currency     => 2
  | letter       => 3
  | otherScript  => 4
  | hangul       => 5
  | kana         => 6
  | han          => 7
  | hanExtension => 8
  | unassigned    => 9

/-- Groups whose characters stand in the order of their code points, with their ranges. -/
def ranges : List (Group × List (Nat × Nat)) :=
  [(symbol, [(0x2190, 0x2BFF), (0x1F000, 0x1FAFF)]),
   (hangul, [(0x1100, 0x11FF), (0xAC00, 0xD7A3)]),
   (han, [(0x4E00, 0x9FFF)]),
   (hanExtension, [(0x3400, 0x4DBF), (0x20000, 0x3FFFF)]),
   (unassigned, [(0xD800, 0xF8FF), (0xF0000, 0x10FFFF)])]

/-- The group of a character that no table lists. -/
def ofUnlisted (c : Nat) : Group :=
  ((ranges.find? fun e => inRanges e.2 c).map Prod.fst).getD otherScript

end Group

/-- A digit or a small letter of ASCII. -/
def isPlainLetter (c : Nat) : Bool := inRanges [(0x30, 0x39), (0x61, 0x7A)] c

/-- The place of a letter in a table: the last digit or small letter of ASCII up to it, and how
    far behind that it stands. Letters of ASCII themselves are in the order of their codes. -/
def letterPlace? (c anchor distance : Nat) : List Nat → Option (List Nat)
  | []      => none
  | x :: xs =>
      if isPlainLetter x then letterPlace? c x 0 xs
      else if x = c then some [anchor, distance + 1]
      else letterPlace? c anchor (distance + 1) xs

/-- The place of a character in the order of all characters: the group, then the place within
    the group. -/
def place (c : Nat) : List Nat :=
  if isPlainLetter c then [Group.letter.rank, c, 0]
  else
    match markOrder.idxOf? c, currencyOrder.idxOf? c, letterPlace? c 0 0 letterOrder,
        kanaOrder.idxOf? c with
    | some i, _, _, _ => [Group.mark.rank, i]
    | _, some i, _, _ => [Group.currency.rank, i]
    | _, _, some p, _ => Group.letter.rank :: p
    | _, _, _, some i => [Group.kana.rank, i]
    | _, _, _, _      => [(Group.ofUnlisted c).rank, c]

/-! ## Spelling out -/

/-- What texts are compared by: the place of a letter or mark, none for an accent; the weight of
    an accent; and a form. -/
structure Element where
  place  : List Nat
  accent : Nat
  form   : Form
deriving DecidableEq, Repr

/-- The weight of what is no accent. -/
def plainAccent : Nat := 0

/-- A letter or a mark in a form. -/
def Element.letter (form : Form) (c : Nat) : Element := ⟨Collation.place c, plainAccent, form⟩

/-- A character in a form; accents have no forms. -/
def Element.ofChar (form : Form) (c : Nat) : Element :=
  match accentOrder.idxOf? c with
  | some i => ⟨[], i + 1, .plain⟩
  | none   => .letter form c

/-- A character of ASCII, with the forms for small and for capital letters. -/
def asciiElement (lower upper : Form) (c : Nat) : Element :=
  if 0x41 ≤ c ∧ c ≤ 0x5A then .letter upper (c + 0x20) else .letter lower c

/-- The letter and the accents of a character. -/
def unaccented (c : Nat) : List Nat := (accented.lookup c).getD [c]

/-- The form and the spelling of a character that has a form other than the plain one. -/
def variant? (c : Nat) : Option (Form × List Nat) :=
  variants.findSome? fun e => (e.2.lookup c).map fun spelling => (e.1, spelling)

/-- How a character is spelt out. -/
def elements (c : Nat) : List Element :=
  if isPassedOver c then []
  else if c < 0x80 then [asciiElement .plain .capital c]
  else if 0xFF01 ≤ c ∧ c ≤ 0xFF5E then [asciiElement .wide .wideCapital (c - 0xFEE0)]
  else
    match variant? c with
    | some (form, spelling) => (spelling.flatMap unaccented).map (Element.ofChar form)
    | none                  => (unaccented c).map (Element.ofChar .plain)

/-- How a text is spelt out. -/
def spelled (t : Text) : List Element := (codePoints t.units).flatMap elements

/-- Order of two sequences of numbers, a beginning before its continuations. -/
def compareKeys : List Nat → List Nat → Ordering
  | [], []           => .eq
  | [], _ :: _       => .lt
  | _ :: _, []       => .gt
  | x :: xs, y :: ys => (compare x y).then (compareKeys xs ys)

/-- Order of two texts that are spelt out: letters, then accents, then forms. -/
def compareElements (a b : List Element) : Ordering :=
  (compareKeys (a.flatMap Element.place) (b.flatMap Element.place)).then <|
    (compareKeys (a.map Element.accent) (b.map Element.accent)).then <|
      compareKeys (a.map fun e => e.form.rank) (b.map fun e => e.form.rank)

end Collation

/-- Dictionary order. -/
def Text.collate (a b : Text) : Ordering :=
  Collation.compareElements (Collation.spelled a) (Collation.spelled b)

end SceneScript
