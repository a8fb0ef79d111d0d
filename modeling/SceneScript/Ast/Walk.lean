import SceneScript.Ast

/-!
# Walk — the uniform view of a program tree

`Program.tree` shows a program as a tree of nodes that all look alike: a kind, a place and the
children in source order. `Tree.events` walks such a tree, entering a node before its children
and leaving it after them.
-/

namespace SceneScript

/-- The kinds of node in a program tree. -/
inductive NodeKind where
  | program | globalDeclaration | functionDeclaration | signalDeclaration | parameter
  | exportMark | hintCall | typeRef
  | blockStatement | letStatement | assignStatement | ifStatement | whileStatement
  | returnStatement | expressionStatement | assignTarget
  | identifier | selfExpression | fieldAccess | callExpression | unaryExpression
  | binaryExpression | structLiteral | structField
  | intLiteral | floatLiteral | boolLiteral | stringLiteral
deriving DecidableEq, Repr

/-- The label of a node kind. -/
def NodeKind.label : NodeKind → String
  | .program             => "Program"
  | .globalDeclaration   => "GlobalDeclaration"
  | .functionDeclaration => "FunctionDeclaration"
  | .signalDeclaration   => "SignalDeclaration"
  | .parameter           => "Parameter"
  | .exportMark          => "ExportAnnotation"
  | .hintCall            => "HintCall"
  | .typeRef             => "TypeRef"
  | .blockStatement      => "BlockStatement"
  | .letStatement        => "LetStatement"
  | .assignStatement     => "AssignStatement"
  | .ifStatement         => "IfStatement"
  | .whileStatement      => "WhileStatement"
  | .returnStatement     => "ReturnStatement"
  | .expressionStatement => "ExpressionStatement"
  | .assignTarget        => "AssignTarget"
  | .identifier          => "Identifier"
  | .selfExpression      => "SelfExpression"
  | .fieldAccess         => "FieldAccess"
  | .callExpression      => "CallExpression"
  | .unaryExpression     => "UnaryExpression"
  | .binaryExpression    => "BinaryExpression"
  | .structLiteral       => "StructLiteral"
  | .structField         => "StructField"
  | .intLiteral          => "IntLiteral"
  | .floatLiteral        => "FloatLiteral"
  | .boolLiteral         => "BoolLiteral"
  | .stringLiteral       => "StringLiteral"

/-- A node with its children in source order. -/
inductive Tree where
  | node (kind : NodeKind) (span : Span) (children : List Tree)
deriving Repr

namespace Tree

/-- The kind of a node. -/
def kind : Tree → NodeKind
  | .node k _ _ => k

/-- The place of a node. -/
def span : Tree → Span
  | .node _ s _ => s

/-- The children of a node. -/
def children : Tree → List Tree
  | .node _ _ c => c

end Tree

/-! ## The view -/

/-- A name as a node. -/
def Ident.tree (id : Ident) : Tree := .node .identifier id.span []

/-- A type name as a node. -/
def TypeRef.tree (t : TypeRef) : Tree := .node .typeRef t.span []

mutual

/-- An expression as a tree. -/
def Expr.tree : Expr → Tree
  | .int s _ _           => .node .intLiteral s []
  | .float s _ _         => .node .floatLiteral s []
  | .bool s _            => .node .boolLiteral s []
  | .string s _          => .node .stringLiteral s []
  | .self s              => .node .selfExpression s []
  | .ident id            => id.tree
  | .field s object name => .node .fieldAccess s [object.tree, name.tree]
  | .call s callee args  => .node .callExpression s (callee.tree :: exprTrees args)
  | .unary s _ arg       => .node .unaryExpression s [arg.tree]
  | .binary s _ l r      => .node .binaryExpression s [l.tree, r.tree]
  | .struct s name fs    => .node .structLiteral s (name.tree :: fieldTrees fs)

/-- Expressions as trees. -/
def exprTrees : List Expr → List Tree
  | []      => []
  | e :: es => e.tree :: exprTrees es

/-- Struct fields as trees. -/
def fieldTrees : List (Ident × Expr) → List Tree
  | []                => []
  | (name, e) :: rest =>
      .node .structField (name.span.through e.span) [name.tree, e.tree] :: fieldTrees rest

end

/-- An assignment target as a tree. -/
def AssignTarget.tree (t : AssignTarget) : Tree :=
  let root :=
    match t.root with
    | .self s  => .node .selfExpression s []
    | .name id => id.tree
  .node .assignTarget t.span (root :: t.path.map Ident.tree)

mutual

/-- A statement as a tree. -/
def Stmt.tree {β : Type} : Stmt β → Tree
  | .block b => b.tree
  | .bind s name _ declared init _ =>
      .node .letStatement s ([name.tree] ++ declared.toList.map TypeRef.tree ++ [init.tree])
  | .assign s target _ value => .node .assignStatement s [target.tree, value.tree]
  | .cond c                  => c.tree
  | .loop s test body        => .node .whileStatement s [test.tree, body.tree]
  | .ret s value             => .node .returnStatement s (value.toList.map Expr.tree)
  | .eval s e                => .node .expressionStatement s [e.tree]

/-- A block as a tree. -/
def Block.tree {β : Type} : Block β → Tree
  | .mk s body => .node .blockStatement s (stmtTrees body)

/-- A conditional as a tree. -/
def Cond.tree {β : Type} : Cond β → Tree
  | .mk s test consequent alternate =>
      .node .ifStatement s (test.tree :: consequent.tree :: alternate.trees)

/-- What follows a consequent, as at most one tree. -/
def Else.trees {β : Type} : Else β → List Tree
  | .absent  => []
  | .block b => [b.tree]
  | .cond c  => [c.tree]

/-- Statements as trees. -/
def stmtTrees {β : Type} : List (Stmt β) → List Tree
  | []      => []
  | s :: ss => s.tree :: stmtTrees ss

end

/-- A parameter as a tree. -/
def Param.tree (p : Param) : Tree := .node .parameter p.span [p.name.tree, p.declared.tree]

/-- A hint as a tree. -/
def HintCall.tree (h : HintCall) : Tree := .node .hintCall h.span (h.name.tree :: exprTrees h.args)

/-- An export annotation as a tree. -/
def ExportMark.tree (a : ExportMark) : Tree :=
  .node .exportMark a.span (a.hint.toList.map HintCall.tree)

/-- A declaration as a tree. -/
def Declaration.tree {β : Type} : Declaration β → Tree
  | .global g =>
      .node .globalDeclaration g.span
        (g.exported.toList.map ExportMark.tree ++ [g.name.tree] ++
          g.declared.toList.map TypeRef.tree ++ [g.init.tree])
  | .function f =>
      .node .functionDeclaration f.span
        ([f.name.tree] ++ f.params.map Param.tree ++ f.returns.toList.map TypeRef.tree ++
          [f.body.tree])
  | .signal s => .node .signalDeclaration s.span (s.name.tree :: s.params.map Param.tree)

/-- A program as a tree. -/
def Program.tree {β : Type} (p : Program β) : Tree :=
  .node .program p.span (p.body.map Declaration.tree)

/-! ## Walking -/

/-- What a walk reports. -/
inductive WalkEvent where
  | enter (kind : NodeKind) (parent : Option NodeKind)
  | leave (kind : NodeKind)
deriving DecidableEq, Repr

namespace WalkEvent

/-- The line that reports an event. -/
def text : WalkEvent → String
  | .enter k none     => s!"+{k.label}"
  | .enter k (some p) => s!"+{k.label}<{p.label}"
  | .leave k          => s!"-{k.label}"

end WalkEvent

mutual

/-- The events of walking a tree below an optional parent. -/
def Tree.events (parent : Option NodeKind) : Tree → List WalkEvent
  | .node k _ children => .enter k parent :: (treeEvents k children ++ [.leave k])

/-- The events of walking the children of a node of kind `parent`. -/
def treeEvents (parent : NodeKind) : List Tree → List WalkEvent
  | []      => []
  | t :: ts => t.events (some parent) ++ treeEvents parent ts

end

mutual

/-- The assignment targets of a statement in source order. -/
def Stmt.targets {β : Type} : Stmt β → List AssignTarget
  | .block b        => b.targets
  | .assign _ t _ _ => [t]
  | .cond c         => c.targets
  | .loop _ _ body  => body.targets
  | _               => []

/-- The assignment targets of a block. -/
def Block.targets {β : Type} : Block β → List AssignTarget
  | .mk _ body => stmtTargets body

/-- The assignment targets of a conditional. -/
def Cond.targets {β : Type} : Cond β → List AssignTarget
  | .mk _ _ consequent alternate => consequent.targets ++ alternate.targets

/-- The assignment targets of what follows a consequent. -/
def Else.targets {β : Type} : Else β → List AssignTarget
  | .absent  => []
  | .block b => b.targets
  | .cond c  => c.targets

/-- The assignment targets of statements. -/
def stmtTargets {β : Type} : List (Stmt β) → List AssignTarget
  | []      => []
  | s :: ss => s.targets ++ stmtTargets ss

end

/-- The assignment targets of a program in source order. -/
def Program.targets {β : Type} (p : Program β) : List AssignTarget :=
  p.functions.flatMap fun f => f.body.targets

end SceneScript
