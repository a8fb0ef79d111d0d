import SceneScript.Json

/-!
# Reading JSON

`Json.parse?` reads one value that fills the whole text. The grammar is the strict one: no
comments, no trailing commas, no leading zeros, no raw control units inside strings, and only
space, tab, line feed and carriage return between tokens.
-/

namespace SceneScript

namespace Json

/-- A unit that may stand between tokens. -/
def isGap (u : UInt16) : Bool := u = 0x20 || u = 0x09 || u = 0x0A || u = 0x0D

/-- The rest after the units between tokens. -/
def skipGap (us : List UInt16) : List UInt16 := us.dropWhile isGap

/-- The rest after an expected word. -/
def expectWord (word : String) (us : List UInt16) : Option (List UInt16) :=
  let ws := (Text.ofString word).units
  if ws.isPrefixOf us then some (us.drop ws.length) else none

/-- The inside of a string up to its closing quote, decoded, and the rest. -/
def readString : List UInt16 → Option (List UInt16 × List UInt16)
  | []        => none
  | u :: rest =>
      if u = 0x22 then some ([], rest)
      else if u < 0x20 then none
      else if u ≠ 0x5C then (readString rest).map fun (t, r) => (u :: t, r)
      else
        match rest with
        | []        => none
        | e :: more =>
            if e = 0x75 then
              match more with
              | a :: b :: c :: d :: after => do
                  let n ← digitsValue? 16 [a, b, c, d]
                  let (t, r) ← readString after
                  some (n.toUInt16 :: t, r)
              | _ => none
            else
              let plain : Option UInt16 :=
                if e = 0x22 || e = 0x5C || e = 0x2F then some e
                else if e = 0x62 then some 0x08
                else if e = 0x66 then some 0x0C
                else if e = 0x6E then some 0x0A
                else if e = 0x72 then some 0x0D
                else if e = 0x74 then some 0x09
                else none
              do
                let p ← plain
                let (t, r) ← readString more
                some (p :: t, r)

/-- A fraction after the integer part: a point and at least one digit. -/
def readFraction : List UInt16 → Option (List UInt16 × List UInt16)
  | u :: rest =>
      if u = 0x2E then
        let digits := rest.takeWhile isDigitUnit
        if digits.isEmpty then none else some (digits, rest.dropWhile isDigitUnit)
      else some ([], u :: rest)
  | [] => some ([], [])

/-- An exponent after the mantissa: `e`, a sign and at least one digit. -/
def readPower : List UInt16 → Option (Int × List UInt16)
  | u :: rest =>
      if u = 0x65 || u = 0x45 then
        let (negative, unsigned) := splitSign rest
        let digits := unsigned.takeWhile isDigitUnit
        if digits.isEmpty then none
        else
          let n : Int := decimalValue digits
          some (if negative then -n else n, unsigned.dropWhile isDigitUnit)
      else some (0, u :: rest)
  | [] => some (0, [])

/-- A number and the rest. -/
def readJsonNumber (us : List UInt16) : Option (Json × List UInt16) := do
  let negative := us.head? == some 0x2D
  let us := if negative then us.drop 1 else us
  let whole := us.takeWhile isDigitUnit
  let rest := us.dropWhile isDigitUnit
  if whole.isEmpty || (whole.head? == some 0x30 && whole.length != 1) then none
  let (fraction, rest) ← readFraction rest
  let (power, rest) ← readPower rest
  let value : Decimal := ⟨decimalValue (whole ++ fraction), power - fraction.length⟩
  some (.number (value.toBinary64 negative), rest)

mutual

/-- A value and the rest. -/
def readValue : Nat → List UInt16 → Option (Json × List UInt16)
  | 0, _         => none
  | fuel + 1, us =>
      match skipGap us with
      | []        => none
      | u :: rest =>
          if u = 0x22 then (readString rest).map fun (t, r) => (.string ⟨t⟩, r)
          else if u = 0x5B then
            match skipGap rest with
            | v :: more =>
                if v = 0x5D then some (.array [], more)
                else (readItems fuel rest).map fun (items, r) => (.array items, r)
            | [] => none
          else if u = 0x7B then
            match skipGap rest with
            | v :: more =>
                if v = 0x7D then some (.object [], more)
                else (readMembers fuel rest).map fun (members, r) => (ofMembers members, r)
            | [] => none
          else if u = 0x6E then (expectWord "null" (u :: rest)).map fun r => (.null, r)
          else if u = 0x74 then (expectWord "true" (u :: rest)).map fun r => (.bool true, r)
          else if u = 0x66 then (expectWord "false" (u :: rest)).map fun r => (.bool false, r)
          else readJsonNumber (u :: rest)

/-- The items of an array up to its closing bracket, and the rest. -/
def readItems : Nat → List UInt16 → Option (List Json × List UInt16)
  | 0, _         => none
  | fuel + 1, us => do
      let (item, rest) ← readValue fuel us
      match skipGap rest with
      | u :: more =>
          if u = 0x5D then some ([item], more)
          else if u = 0x2C then
            let (items, r) ← readItems fuel more
            some (item :: items, r)
          else none
      | [] => none

/-- The members of an object up to its closing brace, and the rest. -/
def readMembers : Nat → List UInt16 → Option (List (Text × Json) × List UInt16)
  | 0, _         => none
  | fuel + 1, us =>
      match skipGap us with
      | q :: inside =>
          if q ≠ 0x22 then none
          else do
            let (key, rest) ← readString inside
            match skipGap rest with
            | c :: after =>
                if c ≠ 0x3A then none
                else
                  let (value, rest) ← readValue fuel after
                  match skipGap rest with
                  | u :: more =>
                      if u = 0x7D then some ([(⟨key⟩, value)], more)
                      else if u = 0x2C then
                        let (members, r) ← readMembers fuel more
                        some ((⟨key⟩, value) :: members, r)
                      else none
                  | [] => none
            | [] => none
      | [] => none

end

/-- The value that a whole text spells. -/
def parse? (t : Text) : Option Json := do
  let (value, rest) ← readValue (2 * t.length + 2) t.units
  if (skipGap rest).isEmpty then some value else none

end Json

end SceneScript
