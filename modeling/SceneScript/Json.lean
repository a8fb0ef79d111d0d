import SceneScript.Number.Numeral

/-!
# Json — values of the JSON data format

Objects keep their members in order: keys that spell array indices come first, in increasing
order, and all others in the order in which they were first written. A key that is written
twice keeps its first place and its last value.

* **`Json`** — the value type, `Json.get?` and the other views of it.
* **`Json.ofMembers`** — an object from members as written.
* **`Json.render`** — the compact text of a value.
-/

namespace SceneScript

/-- A JSON value. -/
inductive Json where
  | null
  | bool (value : Bool)
  | number (value : Binary64)
  | string (value : Text)
  | array (items : List Json)
  | object (members : List (Text × Json))
deriving Inhabited

namespace Json

/-- The value of the first member with the given key. -/
def lookup {α : Type} (key : Text) (members : List (Text × α)) : Option α :=
  (members.find? fun m => m.1 == key).map Prod.snd

/-- The members with the value of `key` replaced, or a new member at the end. -/
def insertMember {α : Type} (key : Text) (value : α) : List (Text × α) → List (Text × α)
  | []           => [(key, value)]
  | (k, v) :: ms => if k == key then (k, value) :: ms else (k, v) :: insertMember key value ms

/-- The array index that a key spells: a decimal without leading zeros below
    `2 ^ 32 - 1`. -/
def arrayIndex? (key : Text) : Option Nat :=
  let us := key.units
  if us.isEmpty || !us.all isDigitUnit then none
  else if us.head? == some 0x30 && us.length != 1 then none
  else if 10 < us.length then none
  else
    let n := decimalValue us
    if n < 0xFFFFFFFF then some n else none

/-- Members in object order: array indices increasing, then the others as they stand. -/
def orderMembers {α : Type} (members : List (Text × α)) : List (Text × α) :=
  let indexed := members.filterMap fun m => (arrayIndex? m.1).map fun i => (i, m)
  (indexed.mergeSort fun a b => a.1 ≤ b.1).map Prod.snd ++
    members.filter fun m => (arrayIndex? m.1).isNone

/-- The object that members spell when written one after the other. -/
def ofMembers (members : List (Text × Json)) : Json :=
  .object (orderMembers (members.foldl (fun acc m => insertMember m.1 m.2 acc) []))

/-- The value of a member; `none` for a missing member and for a value that is no object. -/
def get? (key : String) : Json → Option Json
  | .object members => lookup (Text.ofString key) members
  | _               => none

/-- The members of an object. -/
def members? : Json → Option (List (Text × Json))
  | .object members => some members
  | _               => none

/-- The items of an array. -/
def items? : Json → Option (List Json)
  | .array items => some items
  | _            => none

/-- The text of a string. -/
def text? : Json → Option Text
  | .string t => some t
  | _         => none

/-- The truth value of a boolean. -/
def bool? : Json → Option Bool
  | .bool b => some b
  | _       => none

/-- The number of a number. -/
def number? : Json → Option Binary64
  | .number n => some n
  | _         => none

/-- Whether a value counts as yes: anything but `null`, `false`, zero and the empty string. -/
def isAffirmative : Json → Bool
  | .null     => false
  | .bool b   => b
  | .number x => !(x == .nan || x.same .zero)
  | .string t => !t.isEmpty
  | _         => true

/-- A string value. -/
def str (s : String) : Json := .string (Text.ofString s)

/-- An integer value. -/
def int (n : Int) : Json := .number (Binary64.ofInt n)

/-- An object from keys and values. -/
def obj (members : List (String × Json)) : Json :=
  .object (members.map fun m => (Text.ofString m.1, m.2))

/-! ## Writing -/

/-- A four-digit hexadecimal escape. -/
def escapeUnit (u : UInt16) : List Char :=
  let digits := Nat.toDigits 16 u.toNat
  '\\' :: 'u' :: (List.replicate (4 - digits.length) '0' ++ digits)

/-- A unit that is not half of a pair, as it stands inside quotes. -/
def quoteUnit (u : UInt16) : List Char :=
  if u = 0x22 then ['\\', '"']
  else if u = 0x5C then ['\\', '\\']
  else if u = 0x08 then ['\\', 'b']
  else if u = 0x0C then ['\\', 'f']
  else if u = 0x0A then ['\\', 'n']
  else if u = 0x0D then ['\\', 'r']
  else if u = 0x09 then ['\\', 't']
  else if u < 0x20 || isHighHalf u || isLowHalf u then escapeUnit u
  else [charOfUnit u]

/-- The inside of a quoted string; half of a pair is escaped. -/
def quoteUnits : List UInt16 → List Char
  | []             => []
  | [u]            => quoteUnit u
  | u :: v :: rest =>
      if isHighHalf u && isLowHalf v then charOfPair u v :: quoteUnits rest
      else quoteUnit u ++ quoteUnits (v :: rest)

/-- A text in quotes. -/
def quote (t : Text) : String := "\"" ++ String.ofList (quoteUnits t.units) ++ "\""

mutual

/-- The compact text of a value; a number that is not finite is written `null`. -/
def render : Json → String
  | .null           => "null"
  | .bool b         => if b then "true" else "false"
  | .number n       => if n.isFinite then numberText n else "null"
  | .string t       => quote t
  | .array items    => "[" ++ ",".intercalate (renderItems items) ++ "]"
  | .object members => "\x7b" ++ ",".intercalate (renderMembers members) ++ "\x7d"

/-- The texts of the items of an array. -/
def renderItems : List Json → List String
  | []            => []
  | item :: items => render item :: renderItems items

/-- The texts of the members of an object. -/
def renderMembers : List (Text × Json) → List String
  | []                   => []
  | (key, value) :: rest => (quote key ++ ":" ++ render value) :: renderMembers rest

end

end Json

end SceneScript
