import SceneScript.Typing.Problem
import SceneScript.Ast.Walk

/-!
# Scope — the names that are visible at a place

A scope is a stack of frames, the innermost first, each of which defines a name at most once.
The global frame is the outermost. A name means what the innermost frame that defines it says.

Checking is a value with a log: `Check α` is an `α` together with the findings met on the way
to it, in order. Findings are problems, declared variables, uses of variables and the types of
bindings; diagnostics, use counts and tables are views of that one list.
-/

namespace SceneScript

/-- Where a variable is declared. -/
inductive VariableKind where
  | global | local | param
deriving DecidableEq, Repr

/-- The word for a kind of variable. -/
def VariableKind.word : VariableKind → String
  | .global => "global"
  | .local  => "local"
  | .param  => "param"

/-- A declared variable; its identifier is the one at the declaration. -/
structure Variable where
  id      : Ident
  kind    : VariableKind
  type    : Ty
  mutable : Bool
deriving DecidableEq, Repr

/-- Frames of variables, innermost first. -/
abbrev Scope := List (List Variable)

namespace Scope

/-- The variable of a name in one frame. -/
def inFrame? (name : Text) (frame : List Variable) : Option Variable :=
  frame.find? fun v => v.id.name == name

/-- The variable that a name means. -/
def find? (scope : Scope) (name : Text) : Option Variable :=
  scope.findSome? (inFrame? name)

/-- The scope with a variable added to the innermost frame, or `none` when that frame already
    defines its name. -/
def define? (scope : Scope) (v : Variable) : Option Scope :=
  match scope with
  | []              => some [[v]]
  | frame :: frames =>
      if (inFrame? v.id.name frame).isSome then none else some ((frame ++ [v]) :: frames)

/-- All visible names, innermost first. -/
def names (scope : Scope) : List Text := scope.flatten.map fun v => v.id.name

end Scope

/-- A binding and its type: a global, a local variable or a parameter. -/
structure Binding where
  node : NodeKind
  name : Text
  span : Span
  type : Ty
deriving DecidableEq, Repr

/-- What checking finds. A variable that is used is named by its declaration. -/
inductive Finding where
  | problem (p : Problem) (span : Span)
  | declared (v : Variable)
  | read (declaration : Ident)
  | written (declaration : Ident)
  | bound (b : Binding)
deriving DecidableEq, Repr

/-- A value together with the findings on the way to it, in order. -/
structure Check (α : Type) where
  value    : α
  findings : List Finding

namespace Check

instance : Monad Check where
  pure a   := ⟨a, []⟩
  bind x f := ⟨(f x.value).value, x.findings ++ (f x.value).findings⟩

/-- Notes a finding. -/
def note (f : Finding) : Check Unit := ⟨(), [f]⟩

/-- Reports a problem at a place. -/
def report (span : Span) (p : Problem) : Check Unit := note (.problem p span)

/-- Reports a problem at a place when a condition holds. -/
def reportIf (condition : Bool) (span : Span) (p : Problem) : Check Unit :=
  if condition then report span p else pure ()

end Check

/-- A variable with the number of its uses. -/
structure SymbolInfo where
  declared : Variable
  reads    : Nat
  writes   : Nat
deriving DecidableEq, Repr

/-- The diagnostics among findings. -/
def findingDiagnostics (findings : List Finding) : List Diagnostic :=
  findings.filterMap fun
    | .problem p span => some (p.diagnostic span)
    | _               => none

/-- The bindings among findings. -/
def findingBindings (findings : List Finding) : List Binding :=
  findings.filterMap fun
    | .bound b => some b
    | _        => none

/-- The declared variables among findings, with their uses counted. -/
def findingSymbols (findings : List Finding) : List SymbolInfo :=
  findings.filterMap fun
    | .declared v =>
        some ⟨v, findings.count (.read v.id), findings.count (.written v.id)⟩
    | _ => none

end SceneScript
