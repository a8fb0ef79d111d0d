import SceneScript.Diagnostic

/-!
# Report — diagnostics as text

`Diagnostic.format` is one line, with the hint on a second. `Diagnostic.render` shows the line
of the script too, with carets under the stretch that is meant. A report is made to be shown, so
half of a unit pair stands in it as the replacement character:

    3:5: error[E201]: Undefined variable 'velocty'
      |
    3 |     velocty += 1;
      |     ^^^^^^^
    help: Did you mean 'velocity'?
-/

namespace SceneScript

/-- Without one carriage return at the end. -/
def dropCarriageReturn (us : List UInt16) : List UInt16 :=
  if us.getLast? == some 0x0D then us.dropLast else us

/-- Lines without the carriage return before their line feed; the last line has no line
    feed. -/
def stripReturns : List (List UInt16) → List (List UInt16)
  | []           => []
  | [last]       => [last]
  | line :: more => dropCarriageReturn line :: stripReturns more

/-- The lines of a script; a line ends with a line feed, with or without a carriage return
    before it. -/
def sourceLines (source : Text) : List Text :=
  (stripReturns (Text.splitUnits lineFeed source.units)).map Text.mk

namespace Diagnostic

/-- Where, how serious, which code and what. -/
def headline (d : Diagnostic) (filename : Option String) : String :=
  let file :=
    match filename with
    | some f => if f = "" then "" else f ++ ":"
    | none   => ""
  s!"{file}{d.line}:{d.column}: {d.severity.word}[{d.code}]: {d.message}"

/-- The headline, with the hint on a second line. -/
def format (d : Diagnostic) (filename : Option String) : String :=
  match d.hint with
  | some h => d.headline filename ++ "\n  help: " ++ h.toString
  | none   => d.headline filename

/-- How many carets stand under a line of the given length: as many units as are meant and the
    line has, at least one. -/
def caretCount (d : Diagnostic) (lineLength : Nat) : Nat :=
  max 1 (min d.length (max 1 (lineLength - (d.column - 1))))

/-- The headline, the line of the script, carets under the stretch that is meant, and the
    hint. -/
def render (source : Text) (d : Diagnostic) (filename : Option String) : String :=
  let text := ((sourceLines source)[d.line - 1]?).getD .empty
  let number := toString d.line
  let pad := String.ofList (List.replicate number.length ' ')
  let indent := String.ofList (List.replicate (d.column - 1) ' ')
  let carets := String.ofList (List.replicate (d.caretCount text.length) '^')
  let lines :=
    [d.headline filename, pad ++ " |", number ++ " | " ++ text.toString,
     pad ++ " | " ++ indent ++ carets] ++
    (match d.hint with
     | some h => ["help: " ++ h.toString]
     | none   => [])
  "\n".intercalate lines

end Diagnostic

/-- A list in order, one diagnostic after the other. -/
def formatDiagnostics (list : List Diagnostic) (filename : Option String) : String :=
  "\n".intercalate ((sortDiagnostics list).map fun d => d.format filename)

end SceneScript
