import SceneScript.Ast.Walk
import SceneScript.Json

/-!
# Dump — a program as JSON

The tree of a program for tools outside the library: every node is an object with its kind,
its place as six numbers (offset, line and column of start and end) and its parts. Parts that
are absent are `null`; a float literal carries the bit pattern of its value.
-/

namespace SceneScript

/-- Offset, line and column of the start, then of the end. -/
def Span.json (s : Span) : Json :=
  .array ([s.start.offset, s.start.line, s.start.column,
    s.stop.offset, s.stop.line, s.stop.column].map fun (n : Nat) => Json.int n)

/-- A node with its parts. -/
def nodeJson (kind : NodeKind) (span : Span) (parts : List (String × Json)) : Json :=
  Json.obj ([("kind", Json.str kind.label), ("range", span.json)] ++ parts)

/-- A part that may be absent. -/
def optionJson {α : Type} (f : α → Json) : Option α → Json
  | some a => f a
  | none   => .null

/-- A name. -/
def Ident.json (id : Ident) : Json := nodeJson .identifier id.span [("name", .string id.name)]

/-- A type name. -/
def TypeRef.json (t : TypeRef) : Json := nodeJson .typeRef t.span [("name", .string t.name)]

mutual

/-- An expression. -/
def Expr.json : Expr → Json
  | .int s value raw     => nodeJson .intLiteral s [("value", Json.int value), ("raw", .string raw)]
  | .float s value raw   =>
      nodeJson .floatLiteral s [("value", Json.str value.patternText), ("raw", .string raw)]
  | .bool s value        => nodeJson .boolLiteral s [("value", .bool value)]
  | .string s value      => nodeJson .stringLiteral s [("value", .string value)]
  | .self s              => nodeJson .selfExpression s []
  | .ident id            => id.json
  | .field s object name =>
      nodeJson .fieldAccess s [("object", object.json), ("field", name.json)]
  | .call s callee args  =>
      nodeJson .callExpression s [("callee", callee.json), ("args", .array (exprsJson args))]
  | .unary s op arg      =>
      nodeJson .unaryExpression s [("operator", Json.str op.symbol), ("argument", arg.json)]
  | .binary s op l r     =>
      nodeJson .binaryExpression s
        [("operator", Json.str op.symbol), ("left", l.json), ("right", r.json)]
  | .struct s name fs    =>
      nodeJson .structLiteral s [("typeName", name.json), ("fields", .array (fieldsJson fs))]

/-- Expressions. -/
def exprsJson : List Expr → List Json
  | []      => []
  | e :: es => e.json :: exprsJson es

/-- Struct fields. -/
def fieldsJson : List (Ident × Expr) → List Json
  | []                => []
  | (name, e) :: rest =>
      nodeJson .structField (name.span.through e.span) [("name", name.json), ("value", e.json)] ::
        fieldsJson rest

end

/-- An assignment target. -/
def AssignTarget.json (t : AssignTarget) : Json :=
  let root :=
    match t.root with
    | .self s  => nodeJson .selfExpression s []
    | .name id => id.json
  nodeJson .assignTarget t.span [("root", root), ("path", .array (t.path.map Ident.json))]

mutual

/-- A statement. -/
def Stmt.json {β : Type} : Stmt β → Json
  | .block b => b.json
  | .bind s name mutable declared init _ =>
      nodeJson .letStatement s
        [("name", name.json), ("mutable", .bool mutable),
         ("typeAnnotation", optionJson TypeRef.json declared), ("initializer", init.json)]
  | .assign s target op value =>
      nodeJson .assignStatement s
        [("target", target.json), ("operator", Json.str op.symbol), ("value", value.json)]
  | .cond c => c.json
  | .loop s test body => nodeJson .whileStatement s [("test", test.json), ("body", body.json)]
  | .ret s value => nodeJson .returnStatement s [("argument", optionJson Expr.json value)]
  | .eval s e => nodeJson .expressionStatement s [("expression", e.json)]

/-- A block. -/
def Block.json {β : Type} : Block β → Json
  | .mk s body => nodeJson .blockStatement s [("body", .array (stmtsJson body))]

/-- A conditional. -/
def Cond.json {β : Type} : Cond β → Json
  | .mk s test consequent alternate =>
      nodeJson .ifStatement s
        [("test", test.json), ("consequent", consequent.json), ("alternate", alternate.json)]

/-- What follows a consequent. -/
def Else.json {β : Type} : Else β → Json
  | .absent  => .null
  | .block b => b.json
  | .cond c  => c.json

/-- Statements. -/
def stmtsJson {β : Type} : List (Stmt β) → List Json
  | []      => []
  | s :: ss => s.json :: stmtsJson ss

end

/-- A parameter. -/
def Param.json (p : Param) : Json :=
  nodeJson .parameter p.span [("name", p.name.json), ("typeAnnotation", p.declared.json)]

/-- A hint. -/
def HintCall.json (h : HintCall) : Json :=
  nodeJson .hintCall h.span [("name", h.name.json), ("args", .array (exprsJson h.args))]

/-- An export annotation. -/
def ExportMark.json (a : ExportMark) : Json :=
  nodeJson .exportMark a.span [("hint", optionJson HintCall.json a.hint)]

/-- A declaration. -/
def Declaration.json {β : Type} : Declaration β → Json
  | .global g =>
      nodeJson .globalDeclaration g.span
        [("name", g.name.json), ("mutable", .bool g.mutable),
         ("typeAnnotation", optionJson TypeRef.json g.declared),
         ("initializer", g.init.json),
         ("exportAnnotation", optionJson ExportMark.json g.exported)]
  | .function f =>
      nodeJson .functionDeclaration f.span
        [("name", f.name.json), ("params", .array (f.params.map Param.json)),
         ("returnType", optionJson TypeRef.json f.returns), ("body", f.body.json)]
  | .signal s =>
      nodeJson .signalDeclaration s.span
        [("name", s.name.json), ("params", .array (s.params.map Param.json))]

/-- A program. -/
def Program.json {β : Type} (p : Program β) : Json :=
  nodeJson .program p.span [("body", .array (p.body.map Declaration.json))]

end SceneScript
