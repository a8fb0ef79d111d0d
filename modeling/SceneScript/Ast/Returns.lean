import SceneScript.Ast

/-!
# Returns — statements that never fall through

`Stmt.alwaysReturns` holds of a statement when every path through it ends in a `return`. A
loop never counts, since its condition may fail at once.
-/

namespace SceneScript

mutual

/-- Whether every path through a statement ends in a `return`. -/
def Stmt.alwaysReturns {β : Type} : Stmt β → Bool
  | .ret _ _ => true
  | .block b => b.alwaysReturns
  | .cond c  => c.alwaysReturns
  | _        => false

/-- Whether every path through a block ends in a `return`. -/
def Block.alwaysReturns {β : Type} : Block β → Bool
  | .mk _ body => anyReturns body

/-- Whether every path through a conditional ends in a `return`. -/
def Cond.alwaysReturns {β : Type} : Cond β → Bool
  | .mk _ _ consequent alternate => consequent.alwaysReturns && alternate.alwaysReturns

/-- Whether every path through what follows a consequent ends in a `return`. -/
def Else.alwaysReturns {β : Type} : Else β → Bool
  | .absent  => false
  | .block b => b.alwaysReturns
  | .cond c  => c.alwaysReturns

/-- Whether one of several statements always returns. -/
def anyReturns {β : Type} : List (Stmt β) → Bool
  | []      => false
  | s :: ss => s.alwaysReturns || anyReturns ss

end

end SceneScript
