import SceneScript.Typing.Scope
import SceneScript.Ast.Returns

/-!
# Lint — what is allowed and still suspicious

Three rules: a local variable that is never read, a statement after one that always returns,
and a local variable declared `mut` that is never assigned. Names that begin with an
underscore are exempt from the two rules on variables. Warnings never make a script invalid.
-/

namespace SceneScript

/-- The rules that are switched on. -/
structure LintRules where
  unusedVariables : Bool := true
  unreachableCode : Bool := true
  needlessMut     : Bool := true
deriving DecidableEq, Repr

/-- What a rule finds. -/
inductive LintProblem where
  | unused (name : Text)
  | needlessMut (name : Text)
  | unreachable
deriving DecidableEq, Repr

namespace LintProblem

/-- The registered code. -/
def code : LintProblem → String
  | .unused _      => "W001"
  | .unreachable   => "W002"
  | .needlessMut _ => "W003"

/-- The wording. -/
def message : LintProblem → Text
  | .unused n      => "Variable '" ++ n ++ "' is never used"
  | .unreachable   => "Unreachable code"
  | .needlessMut n => "Variable '" ++ n ++ "' is declared 'mut' but never reassigned"

/-- The advice that goes with it. -/
def hint : LintProblem → Option Text
  | .unused n      => some ("Rename it to '_" ++ n ++ "' to silence this.")
  | .unreachable   => none
  | .needlessMut _ => some "Remove 'mut'."

/-- The warning at a place. -/
def diagnostic (p : LintProblem) (span : Span) : Diagnostic :=
  .make .warning p.code p.message span (some .lint) p.hint

end LintProblem

/-- What the rules find in a variable. -/
def lintSymbol (rules : LintRules) (s : SymbolInfo) : List Diagnostic :=
  let v := s.declared
  if v.kind ≠ .local ∨ v.id.name.startsWith "_" then []
  else
    (if rules.unusedVariables ∧ s.reads = 0 then
      [(LintProblem.unused v.id.name).diagnostic v.id.span] else []) ++
    (if rules.needlessMut ∧ v.mutable ∧ s.writes = 0 then
      [(LintProblem.needlessMut v.id.name).diagnostic v.id.span] else [])

/-- The first statement that cannot be reached: the one after the first that always
    returns. -/
def firstUnreachable? {β : Type} : List (Stmt β) → Option (Stmt β)
  | []      => none
  | s :: ss => if s.alwaysReturns then ss.head? else firstUnreachable? ss

mutual

/-- The unreachable statements of a statement, an outer block before the blocks in it. -/
def Stmt.unreachable {β : Type} : Stmt β → List (Stmt β)
  | .block b       => b.unreachable
  | .cond c        => c.unreachable
  | .loop _ _ body => body.unreachable
  | _              => []

/-- The unreachable statements of a block, its own first. -/
def Block.unreachable {β : Type} : Block β → List (Stmt β)
  | .mk _ body => (firstUnreachable? body).toList ++ stmtsUnreachable body

/-- The unreachable statements of a conditional. -/
def Cond.unreachable {β : Type} : Cond β → List (Stmt β)
  | .mk _ _ consequent alternate => consequent.unreachable ++ alternate.unreachable

/-- The unreachable statements of what follows a consequent. -/
def Else.unreachable {β : Type} : Else β → List (Stmt β)
  | .absent  => []
  | .block b => b.unreachable
  | .cond c  => c.unreachable

/-- The unreachable statements inside statements. -/
def stmtsUnreachable {β : Type} : List (Stmt β) → List (Stmt β)
  | []      => []
  | s :: ss => s.unreachable ++ stmtsUnreachable ss

end

/-- What the rules find in a script: variables in declaration order, then blocks in source
    order. -/
def lint {β : Type} (rules : LintRules) (p : Program β) (symbols : List SymbolInfo) :
    List Diagnostic :=
  symbols.flatMap (lintSymbol rules) ++
    (if rules.unreachableCode then
      (p.functions.flatMap fun f => f.body.unreachable).map fun s =>
        LintProblem.unreachable.diagnostic s.span
    else [])

end SceneScript
