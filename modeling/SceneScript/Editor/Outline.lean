import SceneScript.Editor.Hover

/-!
# Outline — the declarations of a script as an editor lists them

One entry for every top-level declaration, in source order; the entry of a function has its
parameters below it.
-/

namespace SceneScript

/-- What an entry stands for. -/
inductive OutlineKind where
  | function | variable | constant | property | event
deriving DecidableEq, Repr

/-- The word for a kind of entry. -/
def OutlineKind.word : OutlineKind → String
  | .function => "function"
  | .variable => "variable"
  | .constant => "constant"
  | .property => "property"
  | .event    => "event"

/-- One line of an outline. -/
structure OutlineLine where
  name     : Text
  kind     : OutlineKind
  span     : Span
  nameSpan : Span
  detail   : String
deriving DecidableEq, Repr

/-- An entry; only functions have lines below them. -/
structure OutlineEntry where
  line     : OutlineLine
  children : Option (List OutlineLine)
deriving DecidableEq, Repr

/-- Parameters as they are written. -/
def paramsText (ps : List Param) : String :=
  ", ".intercalate (ps.map fun p => s!"{p.name.name}: {p.declared.name}")

/-- The line of a parameter. -/
def Param.outline (p : Param) : OutlineLine :=
  ⟨p.name.name, .variable, p.span, p.name.span, p.declared.name.toString⟩

/-- The entry of a global. -/
def GlobalDecl.outline (g : GlobalDecl) : OutlineEntry :=
  let kind : OutlineKind :=
    if g.exported.isSome then .property else if g.mutable then .variable else .constant
  let mark := if g.exported.isSome then "@export " else ""
  let type :=
    match g.declared with
    | some t => s!": {t.name}"
    | none   => ""
  ⟨⟨g.name.name, kind, g.span, g.name.span, mark ++ letWord g.mutable ++ type⟩, none⟩

/-- The entry of a function. -/
def FunctionDecl.outline {β : Type} (f : FunctionDecl β) : OutlineEntry :=
  let returns :=
    match f.returns with
    | some t => s!" -> {t.name}"
    | none   => ""
  ⟨⟨f.name.name, .function, f.span, f.name.span, s!"fn({paramsText f.params}){returns}"⟩,
   some (f.params.map Param.outline)⟩

/-- The entry of a signal. -/
def SignalDecl.outline (s : SignalDecl) : OutlineEntry :=
  ⟨⟨s.name.name, .event, s.span, s.name.span, s!"signal({paramsText s.params})"⟩, none⟩

/-- The entry of a declaration. -/
def Declaration.outline {β : Type} : Declaration β → OutlineEntry
  | .global g   => g.outline
  | .function f => f.outline
  | .signal s   => s.outline

/-- The outline of a program. -/
def Program.outline {β : Type} (p : Program β) : List OutlineEntry :=
  (p.body.map Declaration.outline).mergeSort fun a b =>
    a.line.span.start.offset ≤ b.line.span.start.offset

end SceneScript
