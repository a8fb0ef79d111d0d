import SceneScript.Token
import SceneScript.Number.Numeral

/-!
# Lexer — from text to tokens

The text is read in steps. A step (`scan`) looks at the remaining units only, always takes
the first of them and says how many more it takes; it yields trivia, a token or a problem.
`lexFrom` repeats steps and keeps count of the position, so the steps themselves know nothing
of positions.

* Blanks are space, tab, carriage return and line feed; `//` starts a comment up to the end of
  the line.
* A string may hold the escapes `\n`, `\t`, `\r`, `\0`, `\\` and `\"`. Any other escape is a
  problem of its own and adds nothing to the value. A raw line feed or the end of the text ends
  the string without closing it.
* A point belongs to a number only when a digit follows it; a number may not run into a name.
-/

namespace SceneScript

/-- What can be wrong with a piece of text. -/
inductive LexProblem where
  | invalidCharacter (unit : UInt16)
  | unterminatedString
  | invalidEscape (unit : UInt16)
  | malformedNumber (numeral : Text)
  | integerTooLarge (numeral : Text)
deriving DecidableEq, Repr

namespace LexProblem

/-- The registered code of a problem. -/
def code : LexProblem → String
  | .invalidCharacter _ => "E001"
  | .unterminatedString => "E002"
  | .invalidEscape _    => "E003"
  | .malformedNumber _  => "E004"
  | .integerTooLarge _  => "E004"

/-- A unit as it is shown in a message. -/
def showUnit (u : UInt16) : Text :=
  if u = 0x00 then "\\0" else if u = 0x09 then "\\t" else ⟨[u]⟩

/-- The wording of a problem. -/
def message : LexProblem → Text
  | .invalidCharacter u => "Invalid character '" ++ showUnit u ++ "'"
  | .unterminatedString => "Unterminated string literal"
  | .invalidEscape u    => "Invalid escape sequence '\\" ++ showUnit u ++ "'"
  | .malformedNumber t  => "Invalid number format '" ++ t ++ "'"
  | .integerTooLarge t  => "Integer literal '" ++ t ++ "' does not fit in i32"

end LexProblem

/-- A problem and the stretch it concerns. -/
structure LexError where
  problem : LexProblem
  span    : Span
deriving DecidableEq, Repr

/-! ## Unit classes -/

/-- A letter or an underscore. -/
def isNameStart (u : UInt16) : Bool :=
  (0x61 ≤ u && u ≤ 0x7A) || (0x41 ≤ u && u ≤ 0x5A) || u = 0x5F

/-- A letter, an underscore or a digit. -/
def isNamePart (u : UInt16) : Bool := isNameStart u || isDigitUnit u

/-- A unit between tokens. -/
def isSpaceUnit (u : UInt16) : Bool := u = 0x20 || u = 0x09 || u = 0x0D || u = lineFeed

/-- The unit that an escape stands for. -/
def decodeEscape (u : UInt16) : Option UInt16 :=
  if u = 0x6E then some 0x0A
  else if u = 0x74 then some 0x09
  else if u = 0x72 then some 0x0D
  else if u = 0x30 then some 0x00
  else if u = 0x5C then some 0x5C
  else if u = 0x22 then some 0x22
  else none

/-- The largest magnitude of an integer literal; only a negated literal may have it. -/
def maxIntMagnitude : Nat := 2147483648

/-! ## Steps -/

/-- What a step reads. -/
inductive Piece where
  | trivia
  | token (kind : TokenKind)
  | problem (p : LexProblem)
deriving DecidableEq, Repr

/-- One step: what it reads, how many units it takes beyond the first, and the invalid escapes
    inside it with their offsets. -/
structure Scanned where
  piece   : Piece
  extra   : Nat
  escapes : List (Nat × UInt16) := []
deriving DecidableEq, Repr

/-- The inside of a string literal: units taken (the closing quote included), decoded value,
    invalid escapes with their offsets, and whether it is closed. -/
structure StringBody where
  size    : Nat
  value   : List UInt16
  escapes : List (Nat × UInt16)
  closed  : Bool
deriving DecidableEq, Repr

/-- Reads the inside of a string literal from offset `k` of the literal on. -/
def scanString (k : Nat) : List UInt16 → StringBody
  | []        => ⟨0, [], [], false⟩
  | u :: rest =>
      if u = lineFeed then ⟨0, [], [], false⟩
      else if u = 0x22 then ⟨1, [], [], true⟩
      else if u = 0x5C then
        match rest with
        | []        => ⟨1, [], [], false⟩
        | e :: more =>
            let body := scanString (k + 2) more
            match decodeEscape e with
            | some d => ⟨body.size + 2, d :: body.value, body.escapes, body.closed⟩
            | none   => ⟨body.size + 2, body.value, (k, e) :: body.escapes, body.closed⟩
      else
        let body := scanString (k + 1) rest
        ⟨body.size + 1, u :: body.value, body.escapes, body.closed⟩

/-- The step at an opening quote. -/
def stringStep (rest : List UInt16) : Scanned :=
  let body := scanString 1 rest
  { piece   := if body.closed then .token (.string ⟨body.value⟩) else .problem .unterminatedString
    extra   := body.size
    escapes := body.escapes }

/-- The digits after a point, when the point belongs to the number. -/
def fractionDigits : List UInt16 → List UInt16
  | point :: rest => if point = 0x2E then rest.takeWhile isDigitUnit else []
  | []            => []

/-- The step at a digit. -/
def numberStep (us : List UInt16) : Scanned :=
  let whole := us.takeWhile isDigitUnit
  let fraction := fractionDigits (us.dropWhile isDigitUnit)
  let size := if fraction.isEmpty then whole.length else whole.length + 1 + fraction.length
  let tail := (us.drop size).takeWhile isNamePart
  if !tail.isEmpty then
    let size := size + tail.length
    ⟨.problem (.malformedNumber ⟨us.take size⟩), size - 1, []⟩
  else if !fraction.isEmpty then
    let value : Decimal := ⟨decimalValue (whole ++ fraction), -(fraction.length : Int)⟩
    ⟨.token (.float (value.toBinary64 false)), size - 1, []⟩
  else if maxIntMagnitude < decimalValue whole then
    ⟨.problem (.integerTooLarge ⟨whole⟩), size - 1, []⟩
  else ⟨.token (.int (decimalValue whole)), size - 1, []⟩

/-- The step at a letter or an underscore. -/
def nameStep (us : List UInt16) : Scanned :=
  let name := us.takeWhile isNamePart
  match Keyword.ofText? ⟨name⟩ with
  | some k => ⟨.token (.keyword k), name.length - 1, []⟩
  | none   => ⟨.token .identifier, name.length - 1, []⟩

/-- The step at any other unit: the longest symbol, or an invalid character. -/
def symbolStep (u : UInt16) (rest : List UInt16) : Scanned :=
  let pair :=
    match rest with
    | v :: _ => Symbol.ofPair? (charOfUnit u) (charOfUnit v)
    | []     => none
  match pair, Symbol.ofChar? (charOfUnit u) with
  | some s, _    => ⟨.token (.symbol s), 1, []⟩
  | none, some s => ⟨.token (.symbol s), 0, []⟩
  | none, none   => ⟨.problem (.invalidCharacter u), 0, []⟩

/-- One step at the unit `u` with `rest` after it. -/
def scan (u : UInt16) (rest : List UInt16) : Scanned :=
  if isSpaceUnit u then ⟨.trivia, 0, []⟩
  else if u = 0x2F && rest.head? == some 0x2F then
    ⟨.trivia, (rest.takeWhile (· ≠ lineFeed)).length, []⟩
  else if u = 0x22 then stringStep rest
  else if isDigitUnit u then numberStep (u :: rest)
  else if isNameStart u then nameStep (u :: rest)
  else symbolStep u rest

namespace Scanned

/-- The token of a step that reads `lexeme` at position `p`. -/
def tokens (s : Scanned) (p : Position) (lexeme : List UInt16) : List Token :=
  match s.piece with
  | .token kind => [⟨kind, ⟨lexeme⟩, ⟨p, p.after lexeme⟩⟩]
  | _           => []

/-- The problems of a step that reads `lexeme` at position `p`: its invalid escapes, then the
    problem with the whole of it. -/
def errors (s : Scanned) (p : Position) (lexeme : List UInt16) : List LexError :=
  (s.escapes.map fun (k, u) =>
    ⟨.invalidEscape u, ⟨p.after (lexeme.take k), p.after (lexeme.take (k + 2))⟩⟩) ++
  match s.piece with
  | .problem e => [⟨e, ⟨p, p.after lexeme⟩⟩]
  | _          => []

end Scanned

/-! ## The whole text -/

/-- A text as tokens, with the problems met and the position where reading ended. -/
structure Lexed where
  tokens : List Token
  errors : List LexError
  finish : Position
deriving DecidableEq, Repr

/-- Reads the remaining units from position `p`; with `stopOnError`, up to the first step that
    has a problem. -/
def lexFrom (stopOnError : Bool) (p : Position) : List UInt16 → Lexed
  | []        => ⟨[], [], p⟩
  | u :: rest =>
      let step := scan u rest
      let lexeme := u :: rest.take step.extra
      let errors := step.errors p lexeme
      if stopOnError && !errors.isEmpty then ⟨step.tokens p lexeme, errors, p.after lexeme⟩
      else
        let tail := lexFrom stopOnError (p.after lexeme) (rest.drop step.extra)
        ⟨step.tokens p lexeme ++ tail.tokens, errors ++ tail.errors, tail.finish⟩
termination_by us => us.length
decreasing_by simp only [List.length_drop, List.length_cons]; omega

/-- Reads a whole text. -/
def tokenize (source : Text) (stopOnError : Bool) : Lexed :=
  lexFrom stopOnError .origin source.units

end SceneScript
