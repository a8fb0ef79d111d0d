import SceneScript.Editor.Completion
import SceneScript.Editor.Outline
import SceneScript.Json

/-!
# Protocol — results in the shape that editors expect

Editors exchange JSON with a language server: places are lines and characters counted from
zero, severities and kinds are numbers, and what is absent is left out. The hint of a
diagnostic is shown below its message.
-/

namespace SceneScript

/-- The name under which an editor shows diagnostics of this language. -/
def languageId : String := "glint"

/-- A position as line and character. -/
def Position.editorJson (p : Position) : Json :=
  Json.obj [("line", Json.int p.line), ("character", Json.int p.column)]

/-- A stretch between two positions. -/
def Span.editorJson (s : Span) : Json :=
  Json.obj [("start", s.start.editorJson), ("end", s.stop.editorJson)]

/-- The number of a severity. -/
def Severity.number : Severity → Nat
  | .error   => 1
  | .warning => 2

/-- A diagnostic with its hint in the message. -/
def Diagnostic.editorJson (d : Diagnostic) : Json :=
  let message :=
    match d.hint with
    | some h => d.message ++ "\nHint: " ++ h
    | none   => d.message
  Json.obj
    [("severity", Json.int d.severity.number), ("range", d.span.editorJson),
     ("message", .string message), ("code", Json.str d.code), ("source", Json.str languageId)]

/-- The first diagnostics of a list; a negative limit shows none. -/
def firstDiagnostics (list : List Diagnostic) (limit : Int) : List Diagnostic :=
  list.take limit.toNat

/-- The first diagnostics of a list as an editor shows them. -/
def editorDiagnostics (list : List Diagnostic) (limit : Int) : List Json :=
  (firstDiagnostics list limit).map Diagnostic.editorJson

/-- The number of a kind of proposal. -/
def CompletionKind.number : CompletionKind → Nat
  | .keyword  => 14
  | .variable => 6
  | .function => 3
  | .type     => 7
  | .property => 10
  | .event    => 23

/-- A member that is left out when it is absent. -/
def optionalMember (key : String) : Option String → List (String × Json)
  | some s => [(key, Json.str s)]
  | none   => []

/-- A proposal; where it says nothing else, its label is inserted. -/
def CompletionItem.editorJson (i : CompletionItem) : Json :=
  Json.obj
    ([("label", Json.str i.label), ("kind", Json.int i.kind.number),
      ("insertText", Json.str (i.insertText.getD i.label))] ++
     optionalMember "detail" i.detail ++ optionalMember "documentation" i.documentation ++
     optionalMember "sortText" i.sortText)

/-- The number of a kind of outline entry. -/
def OutlineKind.number : OutlineKind → Nat
  | .function => 12
  | .variable => 13
  | .constant => 14
  | .property => 7
  | .event    => 24

/-- The members of an outline line. -/
def OutlineLine.editorMembers (l : OutlineLine) : List (String × Json) :=
  [("name", .string l.name), ("detail", Json.str l.detail), ("kind", Json.int l.kind.number),
   ("range", l.span.editorJson), ("selectionRange", l.nameSpan.editorJson)]

/-- An outline entry. -/
def OutlineEntry.editorJson (e : OutlineEntry) : Json :=
  let children :=
    match e.children with
    | some lines => [("children", Json.array (lines.map fun l => Json.obj l.editorMembers))]
    | none       => []
  Json.obj (e.line.editorMembers ++ children)

end SceneScript
