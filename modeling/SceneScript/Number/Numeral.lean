import SceneScript.Text.Blank
import SceneScript.Number.Decimal

/-!
# Numeral — the number that a text spells

Blank units around the numeral do not count, and nothing at all spells zero. A numeral is a
decimal with optional sign, fraction and exponent, a signed `Infinity`, or an unsigned binary,
octal or hexadecimal integer. Every other text spells not-a-number.
-/

namespace SceneScript

/-- A decimal digit. -/
def isDigitUnit (u : UInt16) : Bool := 0x30 ≤ u && u ≤ 0x39

/-- The value of a digit in bases up to sixteen, `none` for other units. -/
def digitValue? (u : UInt16) : Option Nat :=
  if isDigitUnit u then some (u.toNat - 0x30)
  else if 0x61 ≤ u && u ≤ 0x66 then some (u.toNat - 0x61 + 10)
  else if 0x41 ≤ u && u ≤ 0x46 then some (u.toNat - 0x41 + 10)
  else none

/-- The value of a digit sequence in a base, `none` when a unit is not a digit of it. -/
def digitsValue? (base : Nat) (us : List UInt16) : Option Nat :=
  us.foldl (fun acc u => do
    let n ← acc
    let d ← digitValue? u
    if d < base then some (n * base + d) else none) (some 0)

/-- The value of a sequence of decimal digits. -/
def decimalValue (us : List UInt16) : Nat :=
  us.foldl (fun n u => n * 10 + (u.toNat - 0x30)) 0

/-- A leading sign and what follows it. -/
def splitSign : List UInt16 → Bool × List UInt16
  | u :: rest =>
      if u = 0x2D then (true, rest)
      else if u = 0x2B then (false, rest)
      else (false, u :: rest)
  | []        => (false, [])

/-- The exponent after a mantissa: nothing, or `e` with an optionally signed digit
    sequence. -/
def readExponent : List UInt16 → Option Int
  | []        => some 0
  | u :: rest =>
      let (negative, digits) := splitSign rest
      if (u = 0x65 || u = 0x45) && !digits.isEmpty && digits.all isDigitUnit then
        some (if negative then -(decimalValue digits : Int) else decimalValue digits)
      else none

/-- An unsigned decimal numeral: digits, a fraction, an exponent, with a digit before or
    after the point. -/
def readDecimal (us : List UInt16) : Option Decimal :=
  let whole := us.takeWhile isDigitUnit
  let rest := us.dropWhile isDigitUnit
  let (fraction, rest) :=
    match rest with
    | u :: more =>
        if u = 0x2E then (more.takeWhile isDigitUnit, more.dropWhile isDigitUnit) else ([], rest)
    | []        => ([], [])
  if whole.isEmpty && fraction.isEmpty then none
  else do
    let exponent ← readExponent rest
    some ⟨decimalValue (whole ++ fraction), exponent - fraction.length⟩

/-- An unsigned integer after the mark of its base. -/
def readPrefixed : List UInt16 → Option Nat
  | zero :: mark :: digits =>
      if zero = 0x30 && !digits.isEmpty then
        if mark = 0x78 || mark = 0x58 then digitsValue? 16 digits
        else if mark = 0x6F || mark = 0x4F then digitsValue? 8 digits
        else if mark = 0x62 || mark = 0x42 then digitsValue? 2 digits
        else none
      else none
  | _ => none

/-- The number that a text spells. -/
def readNumber (t : Text) : Binary64 :=
  let us := t.trim.units
  if us.isEmpty then .zero
  else
    match readPrefixed us with
    | some n => Binary64.ofInt n
    | none   =>
        let (negative, unsigned) := splitSign us
        if unsigned = (Text.ofString "Infinity").units then .infinite negative
        else
          match readDecimal unsigned with
          | some d => d.toBinary64 negative
          | none   => .nan

end SceneScript
