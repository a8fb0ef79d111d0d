import SceneScript.Span
import SceneScript.Text.Collation

/-!
# Diagnostic — what is reported about a script

One shape for the findings of every stage. Spans count from zero; the line and column that a
diagnostic shows count from one.

* **`sortDiagnostics`** — by start offset, then errors before warnings, then by code; equal
  ones stay in order.
* **`dedupeDiagnostics`** — sorted, and of those that agree in code, severity, place and
  message, written as one key, only the first.
* **`capDiagnostics`** — at most a given number, errors kept before warnings.
-/

namespace SceneScript

/-- How serious a finding is. -/
inductive Severity where
  | error | warning
deriving DecidableEq, Repr

/-- The word for a severity. -/
def Severity.word : Severity → String
  | .error   => "error"
  | .warning => "warning"

/-- The stage that reports a finding. -/
inductive Stage where
  | lexer | parser | checker | lint | runtime
deriving DecidableEq, Repr

namespace Stage

/-- All stages. -/
def all : List Stage := [.lexer, .parser, .checker, .lint, .runtime]

/-- The word for a stage. -/
def word : Stage → String
  | .lexer   => "lexer"
  | .parser  => "parser"
  | .checker => "checker"
  | .lint    => "lint"
  | .runtime => "runtime"

end Stage

/-- A finding. -/
structure Diagnostic where
  severity : Severity
  code     : String
  message  : Text
  span     : Span
  stage    : Option Stage
  hint     : Option Text
deriving DecidableEq, Repr

namespace Diagnostic

/-- The line it shows, counted from one. -/
def line (d : Diagnostic) : Nat := d.span.start.line + 1

/-- The column it shows, counted from one. -/
def column (d : Diagnostic) : Nat := d.span.start.column + 1

/-- Units it covers, at least one. -/
def length (d : Diagnostic) : Nat := max 1 (d.span.stop.offset - d.span.start.offset)

/-- Whether it is an error. -/
def isError (d : Diagnostic) : Bool := d.severity == .error

/-- A finding of a stage; an empty hint is no hint. -/
def make (severity : Severity) (code : String) (message : Text) (span : Span)
    (stage : Option Stage) (hint : Option Text) : Diagnostic :=
  ⟨severity, code, message, span, stage, hint.filter fun h => !h.isEmpty⟩

/-- The order of a list: start offset, errors first, code. -/
def order (a b : Diagnostic) : Ordering :=
  (compare a.span.start.offset b.span.start.offset).then <|
    (compare (!a.isError) (!b.isError)).then <|
      (Text.ofString a.code).collate (Text.ofString b.code)

/-- What two diagnostics that say the same thing agree in: code, severity, place and message,
    with bars between them. -/
def key (d : Diagnostic) : Text :=
  s!"{d.code}|{d.severity.word}|{d.span.start.offset}|{d.span.stop.offset}|" ++ d.message

end Diagnostic

/-- Whether a list holds an error. -/
def hasErrors (list : List Diagnostic) : Bool := list.any Diagnostic.isError

/-- A list in order. -/
def sortDiagnostics (list : List Diagnostic) : List Diagnostic :=
  list.mergeSort fun a b => a.order b != .gt

/-- Several lists as one in order. -/
def mergeDiagnostics (lists : List (List Diagnostic)) : List Diagnostic :=
  sortDiagnostics lists.flatten

/-- The items whose key none of `seen` and no earlier item has. -/
def distinctBy {α κ : Type} [DecidableEq κ] (key : α → κ) : List κ → List α → List α
  | _, []         => []
  | seen, x :: xs =>
      if key x ∈ seen then distinctBy key seen xs
      else x :: distinctBy key (key x :: seen) xs

/-- A list in order, without repetitions. -/
def dedupeDiagnostics (list : List Diagnostic) : List Diagnostic :=
  distinctBy Diagnostic.key [] (sortDiagnostics list)

/-- At most `max` of a list, in order; errors are kept before warnings, and a negative number
    keeps none. -/
def capDiagnostics (list : List Diagnostic) (max : Int) : List Diagnostic :=
  let limit := max.toNat
  if list.length ≤ limit then sortDiagnostics list
  else
    let errors := (list.filter Diagnostic.isError).take limit
    let warnings := (list.filter fun d => !d.isError).take (limit - errors.length)
    mergeDiagnostics [errors, warnings]

end SceneScript
