import SceneScript.Text.Collation
import SceneScript.Diagnostic

/-!
# Suggest — the name that was probably meant

* **`editDistance`** — the least number of insertions, deletions and substitutions of single
  units that turn one text into another, computed row by row.
* **`suggestSimilar`** — the candidates similar to a misspelt name, nearest first and equally
  near ones in dictionary order.
* **`didYouMean`** — the hint that names the best of them.
-/

namespace SceneScript

/-- The rest of a row of distances: `diagonal` and `left` are the neighbours of the first
    entry, and the list holds the entries above. -/
def editRowFrom (c : UInt16) : Nat → Nat → List UInt16 → List Nat → List Nat
  | diagonal, left, u :: us, above :: more =>
      let here := min (min (above + 1) (left + 1)) (diagonal + if c = u then 0 else 1)
      here :: editRowFrom c above here us more
  | _, _, _, _ => []

/-- The row of distances after one more unit `c` of the first text: entry `j` is the distance
    to the first `j` units of `us`. -/
def editRow (us : List UInt16) (row : List Nat) (c : UInt16) : List Nat :=
  match row with
  | []            => []
  | first :: more => (first + 1) :: editRowFrom c first (first + 1) us more

/-- The number of single-unit edits between two texts. -/
def editDistance (a b : Text) : Nat :=
  ((a.units.foldl (editRow b.units) (List.range (b.length + 1))).getLast?).getD 0

/-- Similarity in percent, rounded down; 100 means equal. -/
def similarity (a b : Text) : Nat :=
  let size := max a.length b.length
  if size = 0 then 100 else 100 - (100 * editDistance a b + size - 1) / size

/-- Whether a candidate may be what was meant: short names allow one or two edits, long ones a
    share of their length. -/
def isSimilar (typo candidate : Text) : Bool :=
  if typo.length ≤ 4 then editDistance typo candidate ≤ 1
  else if typo.length ≤ 8 then editDistance typo candidate ≤ 2
  else 70 ≤ similarity typo candidate

/-- Nearer first, equally near ones in dictionary order. -/
def nearer (typo a b : Text) : Bool :=
  (compare (editDistance typo a) (editDistance typo b)).then (a.collate b) != .gt

/-- The similar candidates other than the name itself, each once, nearest first, up to a
    limit. -/
def suggestSimilar (typo : Text) (candidates : List Text) (limit : Int) : List Text :=
  let distinct := distinctBy id [typo] candidates
  takeUpTo limit ((distinct.filter (isSimilar typo)).mergeSort (nearer typo))

/-- The hint that names one thing. -/
def meantHint (name : Text) : Text := "Did you mean '" ++ name ++ "'?"

/-- The hint that names the best candidate; an empty name is never proposed. -/
def didYouMean (typo : Text) (candidates : List Text) : Option Text :=
  match suggestSimilar typo candidates 1 with
  | best :: _ => if best.isEmpty then none else some (meantHint best)
  | []        => none

end SceneScript
