import SceneScript.Ast

/-!
# The expressions in a program

* **`Expr.parts`** — an expression with all the expressions in it.
* **`Stmt.parts`**, **`Declaration.parts`**, **`Program.parts`** — all the expressions in larger
  things. The target of an assignment is no expression.
-/

namespace SceneScript

mutual

/-- An expression and all that it is made of. -/
def Expr.parts : Expr → List Expr
  | .int s n raw         => [.int s n raw]
  | .float s x raw       => [.float s x raw]
  | .bool s b            => [.bool s b]
  | .string s t          => [.string s t]
  | .self s              => [.self s]
  | .ident id            => [.ident id]
  | .field s object name => .field s object name :: object.parts
  | .call s callee args  => .call s callee args :: exprsParts args
  | .unary s op arg      => .unary s op arg :: arg.parts
  | .binary s op l r     => .binary s op l r :: (l.parts ++ r.parts)
  | .struct s name fs    => .struct s name fs :: fieldsParts fs

/-- The parts of expressions. -/
def exprsParts : List Expr → List Expr
  | []      => []
  | e :: es => e.parts ++ exprsParts es

/-- The parts of the values of struct fields. -/
def fieldsParts : List (Ident × Expr) → List Expr
  | []             => []
  | (_, e) :: rest => e.parts ++ fieldsParts rest

end

/-! ## Statements and declarations -/

variable {β : Type}

mutual

/-- The expressions in a statement. -/
def Stmt.parts : Stmt β → List Expr
  | .block b             => b.parts
  | .bind _ _ _ _ init _ => init.parts
  | .assign _ _ _ value  => value.parts
  | .cond c              => c.parts
  | .loop _ test body    => test.parts ++ body.parts
  | .ret _ none          => []
  | .ret _ (some e)      => e.parts
  | .eval _ e            => e.parts

/-- The expressions in statements. -/
def stmtsParts : List (Stmt β) → List Expr
  | []         => []
  | st :: rest => st.parts ++ stmtsParts rest

/-- The expressions in a block. -/
def Block.parts : Block β → List Expr
  | .mk _ body => stmtsParts body

/-- The expressions in a conditional. -/
def Cond.parts : Cond β → List Expr
  | .mk _ test consequent alternate => test.parts ++ consequent.parts ++ alternate.parts

/-- The expressions in what follows a consequent. -/
def Else.parts : Else β → List Expr
  | .absent  => []
  | .block b => b.parts
  | .cond c  => c.parts

end

/-- The arguments of the hint of an annotation. -/
def markParts : Option ExportMark → List Expr
  | some ⟨_, some hint⟩ => exprsParts hint.args
  | _                   => []

/-- The expressions in a declaration. -/
def Declaration.parts : Declaration β → List Expr
  | .global g   => markParts g.exported ++ g.init.parts
  | .function f => f.body.parts
  | .signal _   => []

/-- The expressions in declarations. -/
def declsParts (ds : List (Declaration β)) : List Expr := ds.flatMap Declaration.parts

/-- The expressions in a script. -/
def Program.parts (p : Program β) : List Expr := declsParts p.body

end SceneScript
