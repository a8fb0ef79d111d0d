import SceneScript.Editor.Library

/-!
# Uri — how an editor names a document

A name has a scheme, an authority and a path, and may go on with a query and a fragment, which
say nothing about where the document is. Without a scheme a file is meant. Characters may be
written as percent signs with hexadecimal digits, which together spell UTF-8; what spells
nothing stands as it is.

* **`Uri.parse`** — the parts of a name.
* **`Uri.filePath`** — the path of a file.
* **`Uri.locate`** — where the document of a name is.
-/

namespace SceneScript

/-- What can be wrong with a name. -/
inductive UriError where
  | badScheme
  | pathWithoutSlash
  | pathWithTwoSlashes
deriving DecidableEq, Repr

/-- The wording. -/
def UriError.message : UriError → Text
  | .badScheme          => "[UriError]: Scheme contains illegal characters."
  | .pathWithoutSlash   =>
      "[UriError]: If a URI contains an authority component, then the path component must " ++
      "either be empty or begin with a slash (\"/\") character"
  | .pathWithTwoSlashes =>
      "[UriError]: If a URI does not contain an authority component, then the path cannot " ++
      "begin with two slash characters (\"//\")"

/-- The parts of a name that say where a document is. -/
structure Uri where
  scheme    : String
  authority : String
  path      : String
deriving DecidableEq, Repr

namespace Uri

/-! ## Percent signs -/

/-- A character, or two digits after a percent sign. -/
inductive Piece where
  | plain (c : Char)
  | escape (high low : Char)
deriving DecidableEq, Repr

/-- The pieces of a text. -/
def pieces : List Char → List Piece
  | []                  => []
  | '%' :: a :: b :: cs =>
      if a.isAlphanum && b.isAlphanum then .escape a b :: pieces cs
      else .plain '%' :: pieces (a :: b :: cs)
  | c :: cs             => .plain c :: pieces cs

/-- The value of a hexadecimal digit. -/
def hexValue? (c : Char) : Option Nat :=
  if c.isDigit then some (c.toNat - '0'.toNat)
  else if 'a' ≤ c ∧ c ≤ 'f' then some (c.toNat - 'a'.toNat + 10)
  else if 'A' ≤ c ∧ c ≤ 'F' then some (c.toNat - 'A'.toNat + 10)
  else none

/-- The byte that two digits spell. -/
def byte? (digits : Char × Char) : Option UInt8 := do
  let high ← hexValue? digits.1
  let low ← hexValue? digits.2
  some (high * 16 + low).toUInt8

/-- The characters that neighbouring escapes spell. -/
def spelled? (run : List (Char × Char)) : Option (List Char) := do
  let bytes ← run.mapM byte?
  let text ← String.fromUTF8? ⟨bytes.toArray⟩
  some text.toList

/-- The characters of neighbouring escapes; when they do not spell anything together, the first
    stands as it is. -/
def decodeRun : List (Char × Char) → List Char
  | []      => []
  | e :: es =>
      match spelled? (e :: es) with
      | some cs => cs
      | none    => '%' :: e.1 :: e.2 :: decodeRun es

/-- The characters of pieces after a run of escapes, given last first. -/
def decodePieces : List (Char × Char) → List Piece → List Char
  | run, []                => decodeRun run.reverse
  | run, .plain c :: ps    => decodeRun run.reverse ++ c :: decodePieces [] ps
  | run, .escape a b :: ps => decodePieces ((a, b) :: run) ps

/-- A text with its escapes read. -/
def percentDecode (cs : List Char) : String := String.ofList (decodePieces [] (pieces cs))

/-! ## Parts -/

/-- A character that may begin the scheme. -/
def isSchemeStart (c : Char) : Bool := c.isAlphanum || c = '_'

/-- A character that may stand in the scheme. -/
def isSchemePart (c : Char) : Bool := isSchemeStart c || c = '+' || c = '.' || c = '-'

/-- Whether a scheme is well formed. -/
def isScheme (s : String) : Bool :=
  match s.toList with
  | []      => false
  | c :: cs => isSchemeStart c && cs.all isSchemePart

/-- The scheme before a colon, and the rest. -/
def splitScheme (cs : List Char) : List Char × List Char :=
  let name := cs.takeWhile fun c => c ≠ ':' ∧ c ≠ '/' ∧ c ≠ '?' ∧ c ≠ '#'
  match name, cs.drop name.length with
  | _ :: _, ':' :: rest => (name, rest)
  | _, _                => ([], cs)

/-- The authority after two slashes, and the rest. -/
def splitAuthority : List Char → List Char × List Char
  | '/' :: '/' :: cs =>
      let name := cs.takeWhile fun c => c ≠ '/' ∧ c ≠ '?' ∧ c ≠ '#'
      (name, cs.drop name.length)
  | cs => ([], cs)

/-- The schemes whose paths begin with a slash. -/
def rootedSchemes : List String := ["https", "http", "file"]

/-- A path as the scheme wants it. -/
def rooted (scheme path : String) : String :=
  if scheme ∈ rootedSchemes ∧ path.toList.head? ≠ some '/' then "/" ++ path else path

/-- What is wrong with the parts of a name. -/
def problem? (u : Uri) : Option UriError :=
  if !isScheme u.scheme then some .badScheme
  else if u.path = "" then none
  else if u.authority ≠ "" then
    if u.path.toList.head? = some '/' then none else some .pathWithoutSlash
  else if u.path.toList.take 2 = ['/', '/'] then some .pathWithTwoSlashes
  else none

/-- The parts of a name. -/
def parse (name : String) : Except UriError Uri :=
  let (schemePart, rest) := splitScheme name.toList
  let (authorityPart, rest) := splitAuthority rest
  let scheme := if schemePart.isEmpty then "file" else String.ofList schemePart
  let path := percentDecode (rest.takeWhile fun c => c ≠ '?' ∧ c ≠ '#')
  let u : Uri := ⟨scheme, percentDecode authorityPart, rooted scheme path⟩
  match u.problem? with
  | some e => .error e
  | none   => .ok u

/-- The path of a file: an authority names a share, and the letter of a drive is small. -/
def filePath (u : Uri) : String :=
  if u.authority ≠ "" ∧ 1 < u.path.length ∧ u.scheme = "file" then "//" ++ u.authority ++ u.path
  else
    match u.path.toList with
    | '/' :: c :: ':' :: rest =>
        if c.isAlpha then String.ofList (c.toLower :: ':' :: rest) else u.path
    | _ => u.path

/-- Where the document of a name is. -/
def locate (name : String) : Except Text Location :=
  match parse name with
  | .error e => .error e.message
  | .ok u    => .ok ⟨u.scheme, u.path, u.filePath⟩

end Uri

end SceneScript
