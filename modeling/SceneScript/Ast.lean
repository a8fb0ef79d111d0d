import SceneScript.Token

/-!
# Ast — the tree of a script

A program is a list of declarations: globals, functions and signals. Function bodies are
blocks of statements over expressions. Every part knows its place in the text.

Statements are indexed by the annotation `β` of their variable declarations. Reading a script
gives `Unit` there; checking it puts the type of the variable in its place, which is what
running it needs.
-/

namespace SceneScript

/-- A name where it is written. -/
structure Ident where
  name : Text
  span : Span
deriving DecidableEq, Repr, Inhabited

/-- A type name where it is written. -/
structure TypeRef where
  name : Text
  span : Span
deriving DecidableEq, Repr, Inhabited

/-- Operators before an operand. -/
inductive UnaryOp where
  | neg | not
deriving DecidableEq, Repr

namespace UnaryOp

/-- The spelling of an operator. -/
def symbol : UnaryOp → String
  | .neg => "-"
  | .not => "!"

end UnaryOp

/-- Operators between two operands. -/
inductive BinaryOp where
  | or | and | eq | ne | lt | le | gt | ge | add | sub | mul | div
deriving DecidableEq, Repr

namespace BinaryOp

/-- The spelling of an operator. -/
def symbol : BinaryOp → String
  | .or  => "||"
  | .and => "&&"
  | .eq  => "=="
  | .ne  => "!="
  | .lt  => "<"
  | .le  => "<="
  | .gt  => ">"
  | .ge  => ">="
  | .add => "+"
  | .sub => "-"
  | .mul => "*"
  | .div => "/"

/-- How strongly an operator binds. -/
def precedence : BinaryOp → Nat
  | .or                    => 1
  | .and                   => 2
  | .eq | .ne              => 3
  | .lt | .le | .gt | .ge  => 4
  | .add | .sub            => 5
  | .mul | .div            => 6

end BinaryOp

/-- Assignment operators: plain, or combined with an arithmetic operator. -/
inductive AssignOp where
  | set | add | sub | mul | div
deriving DecidableEq, Repr

namespace AssignOp

/-- The spelling of an operator. -/
def symbol : AssignOp → String
  | .set => "="
  | .add => "+="
  | .sub => "-="
  | .mul => "*="
  | .div => "/="

/-- The arithmetic operator of a combined assignment. -/
def arithmetic? : AssignOp → Option BinaryOp
  | .set => none
  | .add => some .add
  | .sub => some .sub
  | .mul => some .mul
  | .div => some .div

end AssignOp

/-- An expression. The raw spelling of a number literal is kept beside its value; struct
    fields stand in source order, repeated ones included. -/
inductive Expr where
  | int (span : Span) (value : Int) (raw : Text)
  | float (span : Span) (value : Binary64) (raw : Text)
  | bool (span : Span) (value : Bool)
  | string (span : Span) (value : Text)
  | self (span : Span)
  | ident (id : Ident)
  | field (span : Span) (object : Expr) (name : Ident)
  | call (span : Span) (callee : Ident) (args : List Expr)
  | unary (span : Span) (op : UnaryOp) (arg : Expr)
  | binary (span : Span) (op : BinaryOp) (left right : Expr)
  | struct (span : Span) (typeName : Ident) (fields : List (Ident × Expr))
deriving Repr, Inhabited

/-- The place of an expression. -/
def Expr.span : Expr → Span
  | .int s _ _      => s
  | .float s _ _    => s
  | .bool s _       => s
  | .string s _     => s
  | .self s         => s
  | .ident id       => id.span
  | .field s _ _    => s
  | .call s _ _     => s
  | .unary s _ _    => s
  | .binary s _ _ _ => s
  | .struct s _ _   => s

/-- The place of a field in a struct literal: from its name to the end of its value. -/
def fieldSpan (field : Ident × Expr) : Span := field.1.span.through field.2.span

/-- What an assignment path starts from. -/
inductive TargetRoot where
  | self (span : Span)
  | name (id : Ident)
deriving DecidableEq, Repr

/-- The root of a target as an expression. -/
def TargetRoot.expr : TargetRoot → Expr
  | .self span => .self span
  | .name id   => .ident id

/-- The target `root.a.b` of an assignment. -/
structure AssignTarget where
  span : Span
  root : TargetRoot
  path : List Ident
deriving DecidableEq, Repr

/-- The dotted text of an assignment target. -/
def AssignTarget.text (t : AssignTarget) : Text :=
  let root : Text :=
    match t.root with
    | .self _  => "self"
    | .name id => id.name
  Text.join "." (root :: t.path.map Ident.name)

mutual

/-- A statement. -/
inductive Stmt (β : Type) where
  | block (b : Block β)
  | bind (span : Span) (name : Ident) (mutable : Bool) (declared : Option TypeRef)
      (init : Expr) (binding : β)
  | assign (span : Span) (target : AssignTarget) (op : AssignOp) (value : Expr)
  | cond (c : Cond β)
  | loop (span : Span) (test : Expr) (body : Block β)
  | ret (span : Span) (value : Option Expr)
  | eval (span : Span) (e : Expr)

/-- Statements between braces. -/
inductive Block (β : Type) where
  | mk (span : Span) (body : List (Stmt β))

/-- A conditional statement. -/
inductive Cond (β : Type) where
  | mk (span : Span) (test : Expr) (consequent : Block β) (alternate : Else β)

/-- What follows the consequent of a conditional. -/
inductive Else (β : Type) where
  | absent
  | block (b : Block β)
  | cond (c : Cond β)

end

/-- The place of a block. -/
def Block.span {β : Type} : Block β → Span
  | .mk s _ => s

/-- The statements of a block. -/
def Block.body {β : Type} : Block β → List (Stmt β)
  | .mk _ b => b

/-- The place of a conditional. -/
def Cond.span {β : Type} : Cond β → Span
  | .mk s _ _ _ => s

/-- The place of a statement. -/
def Stmt.span {β : Type} : Stmt β → Span
  | .block b          => b.span
  | .bind s _ _ _ _ _ => s
  | .assign s _ _ _   => s
  | .cond c           => c.span
  | .loop s _ _       => s
  | .ret s _          => s
  | .eval s _         => s

instance {β : Type} : Inhabited (Block β) := ⟨.mk .origin []⟩
instance {β : Type} : Inhabited (Stmt β) := ⟨.block default⟩

/-- The argument of an export annotation, such as `range(0, 10)`. -/
structure HintCall where
  span : Span
  name : Ident
  args : List Expr
deriving Repr

/-- `@export`, with or without a hint. -/
structure ExportMark where
  span : Span
  hint : Option HintCall
deriving Repr

/-- A global variable. -/
structure GlobalDecl where
  span     : Span
  name     : Ident
  mutable  : Bool
  declared : Option TypeRef
  init     : Expr
  exported : Option ExportMark
deriving Repr

/-- A parameter of a function or a signal. -/
structure Param where
  span     : Span
  name     : Ident
  declared : TypeRef
deriving DecidableEq, Repr

/-- A function. -/
structure FunctionDecl (β : Type) where
  span    : Span
  name    : Ident
  params  : List Param
  returns : Option TypeRef
  body    : Block β

/-- A signal. -/
structure SignalDecl where
  span   : Span
  name   : Ident
  params : List Param
deriving DecidableEq, Repr

/-- A top-level declaration. -/
inductive Declaration (β : Type) where
  | global (g : GlobalDecl)
  | function (f : FunctionDecl β)
  | signal (s : SignalDecl)

/-- A script. -/
structure Program (β : Type) where
  span : Span
  body : List (Declaration β)

namespace Program

variable {β : Type}

/-- The globals of a program in source order. -/
def globals (p : Program β) : List GlobalDecl :=
  p.body.filterMap fun
    | .global g => some g
    | _         => none

/-- The functions of a program in source order. -/
def functions (p : Program β) : List (FunctionDecl β) :=
  p.body.filterMap fun
    | .function f => some f
    | _           => none

/-- The signals of a program in source order. -/
def signals (p : Program β) : List SignalDecl :=
  p.body.filterMap fun
    | .signal s => some s
    | _         => none

end Program

end SceneScript
