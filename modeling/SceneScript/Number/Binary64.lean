/-!
# Binary64 — exact binary floating-point numbers

A finite number is stored as a sign and the count of *steps* of `2 ^ -1074`, the least
positive magnitude of the format, so every number has exactly one stored form and every
operation is one operation on natural numbers followed by one rounding.

* **`Binary64`** — not-a-number, the two infinities, and the signed finite numbers.
* **`Format.round`** — the nearest number of a format to a ratio of steps, a tie to the even
  neighbour; `binary64` and `binary32` are the two formats of the library.
* **`add`**, **`mul`**, **`div`**, **`neg`** — rounded to binary64; `toSingle` rounds once
  more, to binary32.
* **`lt`**, **`le`**, **`same`** — the numeric order, in which not-a-number is unordered and
  the two zeros are equal.
-/

namespace SceneScript

/-- A binary floating-point number; the magnitude of a finite one is `steps · 2 ^ -1074`. -/
inductive Binary64 where
  | nan
  | infinite (negative : Bool)
  | finite (negative : Bool) (steps : Nat)
deriving DecidableEq, Repr, Inhabited

/-- The number of steps in one. -/
def stepsPerOne : Nat := Nat.pow 2 1074

/-- The natural number nearest to `num / den`, a tie to the even neighbour. -/
def roundDiv (num den : Nat) : Nat :=
  let below := num / den
  let twice := 2 * (num % den)
  if twice < den then below
  else if den < twice then below + 1
  else if below % 2 = 0 then below else below + 1

/-- A floating-point format: `precision` significant bits, a least step of `2 ^ grain`
    steps, and `limit`, the first magnitude that is too large. -/
structure Format where
  precision : Nat
  grain     : Nat
  limit     : Nat

/-- Double precision. -/
def binary64 : Format := ⟨53, 0, Nat.pow 2 2098⟩

/-- Single precision. -/
def binary32 : Format := ⟨24, 925, Nat.pow 2 1202⟩

/-- The number of the format nearest to `num / den` steps, a tie to the even neighbour and
    anything from `limit` on to infinity. -/
def Format.round (f : Format) (negative : Bool) (num den : Nat) : Binary64 :=
  let shift := max f.grain ((num / den).log2 + 1 - f.precision)
  let grid := Nat.pow 2 shift
  let steps := roundDiv num (den * grid) * grid
  if f.limit ≤ steps then .infinite negative else .finite negative steps

namespace Binary64

/-- The finite number zero. -/
def zero : Binary64 := .finite false 0

/-- Steps with their sign. -/
def signed (negative : Bool) (steps : Nat) : Int := if negative then -(steps : Int) else steps

/-- The number nearest to an integer. -/
def ofInt (n : Int) : Binary64 := binary64.round (decide (n < 0)) (n.natAbs * stepsPerOne) 1

/-- The number nearest to `num / den`. -/
def ofRatio (negative : Bool) (num den : Nat) : Binary64 :=
  binary64.round negative (num * stepsPerOne) den

/-- The same magnitude with the other sign. -/
def neg : Binary64 → Binary64
  | .nan        => .nan
  | .infinite s => .infinite (!s)
  | .finite s n => .finite (!s) n

/-- Rounded sum; a sum of zero is negative only when both terms are. -/
def add : Binary64 → Binary64 → Binary64
  | .finite s m, .finite t n =>
      let sum := signed s m + signed t n
      if sum = 0 then .finite (s && t) 0 else binary64.round (decide (sum < 0)) sum.natAbs 1
  | .infinite s, .infinite t => if s = t then .infinite s else .nan
  | .infinite s, .finite _ _ => .infinite s
  | .finite _ _, .infinite t => .infinite t
  | _, _                     => .nan

/-- Rounded difference. -/
def sub (x y : Binary64) : Binary64 := add x y.neg

/-- Rounded product. -/
def mul : Binary64 → Binary64 → Binary64
  | .finite s m, .finite t n => binary64.round (s != t) (m * n) stepsPerOne
  | .infinite s, .infinite t => .infinite (s != t)
  | .infinite s, .finite t n => if n = 0 then .nan else .infinite (s != t)
  | .finite s m, .infinite t => if m = 0 then .nan else .infinite (s != t)
  | _, _                     => .nan

/-- Rounded quotient; a division by zero is infinite, zero by zero is not a number. -/
def div : Binary64 → Binary64 → Binary64
  | .finite s m, .finite t n =>
      if n = 0 then (if m = 0 then .nan else .infinite (s != t))
      else binary64.round (s != t) (m * stepsPerOne) n
  | .infinite s, .finite t _ => .infinite (s != t)
  | .finite s _, .infinite t => .finite (s != t) 0
  | _, _                     => .nan

/-- Strictly below in the numeric order. -/
def lt : Binary64 → Binary64 → Bool
  | .finite s m, .finite t n => decide (signed s m < signed t n)
  | .infinite s, .infinite t => s && !t
  | .infinite s, .finite _ _ => s
  | .finite _ _, .infinite t => !t
  | _, _                     => false

/-- Numerically equal; the two zeros are. -/
def same : Binary64 → Binary64 → Bool
  | .finite s m, .finite t n => decide (signed s m = signed t n)
  | .infinite s, .infinite t => s == t
  | _, _                     => false

/-- Below or numerically equal. -/
def le (x y : Binary64) : Bool := x.lt y || x.same y

/-- Whether the sign is negative. -/
def isNegative : Binary64 → Bool
  | .nan        => false
  | .infinite s => s
  | .finite s _ => s

/-- Whether the number is neither infinite nor not-a-number. -/
def isFinite : Binary64 → Bool
  | .finite _ _ => true
  | _           => false

/-- The larger of two numbers; not-a-number wins, and `+0` is larger than `-0`. -/
def max (x y : Binary64) : Binary64 :=
  if x = .nan || y = .nan then .nan
  else if x.lt y then y
  else if y.lt x then x
  else if x.isNegative then y else x

/-- The smaller of two numbers; not-a-number wins, and `-0` is smaller than `+0`. -/
def min (x y : Binary64) : Binary64 :=
  if x = .nan || y = .nan then .nan
  else if x.lt y then x
  else if y.lt x then y
  else if x.isNegative then x else y

/-- Rounded to single precision. -/
def toSingle : Binary64 → Binary64
  | .finite s n => binary32.round s n 1
  | x           => x

/-- Whether the number is an integer. -/
def isInteger : Binary64 → Bool
  | .finite _ n => n % stepsPerOne == 0
  | _           => false

/-- The integer part; zero for a number that is not finite. -/
def truncate : Binary64 → Int
  | .finite s n => signed s (n / stepsPerOne)
  | _           => 0

/-- The integer part reduced to 32 bits. -/
def toInt32 (x : Binary64) : Int32 := Int32.ofInt x.truncate

/-- A 32-bit integer as a number. -/
def ofInt32 (n : Int32) : Binary64 := ofInt n.toInt

/-- The bit of a pattern that holds the sign. -/
def signBit (negative : Bool) : Nat := if negative then Nat.pow 2 63 else 0

/-- The 64-bit pattern of a number: sign, exponent and fraction. -/
def pattern : Binary64 → Nat
  | .nan        => 0x7FF8000000000000
  | .infinite s => signBit s + 0x7FF0000000000000
  | .finite s n =>
      if n < Nat.pow 2 52 then signBit s + n
      else
        let exponent := n.log2 - 52
        signBit s + (exponent * Nat.pow 2 52 + n / Nat.pow 2 exponent)

/-- The pattern as sixteen hexadecimal digits. -/
def patternText (x : Binary64) : String :=
  let digits := Nat.toDigits 16 x.pattern
  String.ofList (List.replicate (16 - digits.length) '0' ++ digits)

end Binary64

end SceneScript
