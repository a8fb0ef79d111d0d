import SceneScript.Number.Binary64

/-!
# Decimal — reading and writing numbers in base ten

A decimal is a digit string, held as a natural number, and a power of ten.

* **`Decimal.toBinary64`** — the nearest binary number, exactly rounded.
* **`shortest`** — the fewest digits that read back as the same binary number, of several the
  nearest to it, a tie to the even digit.
* **`rounded`** — a given count of significant digits, a tie away from zero.
* **`Layout`** — where positional notation ends and how an exponent is written; `numberText`
  and `singleText` are the two texts of the library.
-/

namespace SceneScript

/-- The decimal `digits · 10 ^ exponent`. -/
structure Decimal where
  digits   : Nat
  exponent : Int
deriving DecidableEq, Repr

/-- The decimal digits of a natural number, most significant first. -/
def decimalDigits (n : Nat) : List Char := Nat.toDigits 10 n

namespace Decimal

/-- The binary number nearest to a decimal. Magnitudes far outside the format are settled
    by their place alone. -/
def toBinary64 (negative : Bool) (d : Decimal) : Binary64 :=
  let place := (decimalDigits d.digits).length + d.exponent
  if d.digits = 0 then .finite negative 0
  else if 400 < place then .infinite negative
  else if place < -400 then .finite negative 0
  else if 0 ≤ d.exponent then
    Binary64.ofRatio negative (d.digits * Nat.pow 10 d.exponent.toNat) 1
  else Binary64.ofRatio negative d.digits (Nat.pow 10 (-d.exponent).toNat)

/-- The same decimal with up to `n` zeros moved from the digits into the exponent. -/
def stripZeros : Nat → Decimal → Decimal
  | 0, d     => d
  | n + 1, d =>
      if d.digits ≠ 0 ∧ d.digits % 10 = 0 then stripZeros n ⟨d.digits / 10, d.exponent + 1⟩
      else d

end Decimal

/-- Whether a count of steps is at least `10 ^ k`. -/
def reachesPowerOfTen (steps : Nat) (k : Int) : Bool :=
  if 0 ≤ k then Nat.pow 10 k.toNat * stepsPerOne ≤ steps
  else stepsPerOne ≤ steps * Nat.pow 10 (-k).toNat

/-- The place `k` of the first digit: `10 ^ (k - 1) ≤ steps < 10 ^ k`. The binary logarithm
    gives it up to one, and two comparisons settle it. -/
def decimalPlace (steps : Nat) : Int :=
  let guess := Int.fdiv (((steps.log2 : Int) - 1074) * 30103) 100000
  if reachesPowerOfTen steps (guess + 1) then guess + 2
  else if reachesPowerOfTen steps guess then guess + 1
  else guess

/-- A count of steps as a ratio in units of `10 ^ k`. -/
def inPowersOfTen (steps : Nat) (k : Int) : Nat × Nat :=
  if 0 ≤ k then (steps, stepsPerOne * Nat.pow 10 k.toNat)
  else (steps * Nat.pow 10 (-k).toNat, stepsPerOne)

/-- Whether a decimal reads back as the finite number with the given steps. -/
def readsBack (steps : Nat) (d : Decimal) : Bool :=
  d.toBinary64 false = .finite false steps

/-- The decimal with `n` digits from place `k` that reads back as the given steps, if any: of
    two neighbours that both do the nearer, a tie to the even digit. -/
def neighbour? (steps : Nat) (k : Int) (n : Nat) : Option Decimal :=
  let (num, den) := inPowersOfTen steps (k - n)
  let below : Decimal := ⟨num / den, k - n⟩
  let above : Decimal := ⟨num / den + 1, k - n⟩
  let nearest : Decimal := ⟨roundDiv num den, k - n⟩
  if readsBack steps nearest then some nearest
  else if readsBack steps below then some below
  else if readsBack steps above then some above
  else none

/-- The first decimal that reads back, trying `n` digits, then one more, up to `tries` times. -/
def shortestFrom (steps : Nat) (k : Int) : Nat → Nat → Decimal
  | 0, n         => ⟨let (num, den) := inPowersOfTen steps (k - n); roundDiv num den, k - n⟩
  | tries + 1, n =>
      match neighbour? steps k n with
      | some d => d
      | none   => shortestFrom steps k tries (n + 1)

/-- The shortest decimal that reads back as a positive count of steps. -/
def shortest (steps : Nat) : Decimal :=
  (shortestFrom steps (decimalPlace steps) 16 1).stripZeros 18

/-- A positive count of steps with `n` significant digits, a tie upwards. -/
def rounded (steps n : Nat) : Decimal :=
  let k := decimalPlace steps
  let (num, den) := inPowersOfTen steps (k - n)
  ⟨(2 * num + den) / (2 * den), k - n⟩

/-- How a number is laid out: positional notation from place `first` (exclusive) to place
    `last` (inclusive), and an exponent after `mark` otherwise. -/
structure Layout where
  first : Int
  last  : Int
  mark  : String
  plus  : String

/-- Positional up to 21 integer places and down to six zeros, else an exponent with its
    sign. -/
def plainLayout : Layout := ⟨-6, 21, "e", "+"⟩

/-- The digits of a decimal laid out by the rules of a layout. -/
def Layout.write (l : Layout) (d : Decimal) : String :=
  let digits := decimalDigits d.digits
  let count := digits.length
  let place := (count : Int) + d.exponent
  if count ≤ place ∧ place ≤ l.last then
    String.ofList (digits ++ List.replicate (place.toNat - count) '0')
  else if 0 < place ∧ place ≤ l.last then
    String.ofList (digits.take place.toNat ++ '.' :: digits.drop place.toNat)
  else if l.first < place ∧ place ≤ 0 then
    "0." ++ String.ofList (List.replicate (-place).toNat '0' ++ digits)
  else
    let exponent := place - 1
    let sign := if exponent < 0 then "-" else l.plus
    let tail := l.mark ++ sign ++ String.ofList (decimalDigits exponent.natAbs)
    match digits with
    | [d]       => String.ofList [d] ++ tail
    | d :: more => String.ofList (d :: '.' :: more) ++ tail
    | []        => tail

/-- The text of a number: the fewest digits that read back; zero has no sign. -/
def numberText : Binary64 → String
  | .nan        => "NaN"
  | .infinite s => if s then "-Infinity" else "Infinity"
  | .finite s n =>
      if n = 0 then "0"
      else (if s then "-" else "") ++ plainLayout.write (shortest n)

/-- The first number with one to nine significant digits that rounds to the same single
    precision number as `x`, trying `n` digits, then one more. -/
def coarsest (negative : Bool) (steps : Nat) : Nat → Nat → Option Binary64
  | 0, _         => none
  | tries + 1, n =>
      let candidate := (rounded steps n).toBinary64 negative
      if candidate.toSingle.same (.finite negative steps) then some candidate
      else coarsest negative steps tries (n + 1)

/-- The text of a single precision number: the fewest digits that round back to it, and a
    number without point or exponent gets `.0`. -/
def singleText : Binary64 → String
  | .nan        => "NaN"
  | .infinite s => if s then "-inf" else "inf"
  | .finite s n =>
      let text :=
        if n = 0 then "0"
        else
          match coarsest s n 9 1 with
          | some x => numberText x
          | none   => numberText (.finite s n)
      if text.toList.any (fun c => c == '.' || c == 'e') then text else text ++ ".0"

end SceneScript
