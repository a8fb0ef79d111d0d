import Mathlib.Logic.Relation
import SceneScript.Proofs.Syntax.Parsed

/-!
# The moments of a parse

The functions of the parser call one another. What they pass through on the way is not in the
program that is read, and with an error in the script it may be in nothing at all. Here the moments
of a parse are the calls, each inside another one: the first operand is read where the expression
begins, the next one where the operator behind the first one ends. Only calls on the way to an
expression are moments; names, types, parameters and field accesses hold none.

* **`Reader.Call`** / **`Reader.Moment`** — a function of the parser, and where it starts from.
* **`Reader.Calls`** — one moment directly inside another; **`Reader.Reaches`** — at any depth.
* **`Reader.Inside`** — what is recorded in one computation is recorded in the other.
* **`Reader.Calls.inside`**, **`Reader.Reaches.inside`** — nothing that is recorded on the way is
  lost, whatever happens afterwards.
* **`parseTokens_primary`** — a number that is too large, where a primary expression begins.
-/

namespace SceneScript

theorem ite_bind {m : Type → Type} [Monad m] {α β : Type} {p : Prop} [Decidable p] (x y : m α)
    (f : α → m β) : (if p then x else y) >>= f = if p then x >>= f else y >>= f := by
  split <;> rfl

namespace Reader

/-! ## Heads

What some functions read in front of the first expression or block. -/

/-- The head of a variable declaration, up to the equals sign. -/
def letIntro : Reader (Position × Bool × Ident × Option TypeRef) := do
  let start ← start
  advance
  let mutable ← acceptKeyword .mutKey
  let name ← expectName .variableName
  let declared ← if ← accept .colon then some <$> typeRef else pure none
  if !(← accept .assign) then fail (.expectedInitializer name.name (← peek))
  return (start, mutable, name, declared)

theorem letParts_intro (fuel : Nat) : letParts fuel = (do
    let (start, mutable, name, declared) ← letIntro
    let init ← expression fuel
    expectSemicolon .variableDeclaration
    return ⟨← spanFrom start, name, mutable, declared, init⟩) := by
  simp only [letParts, letIntro, bind_assoc, pure_bind, ite_bind]

/-- The head of a struct field, up to the colon. -/
def memberIntro (typeName : Ident) : Reader Ident := do
  let name ← expectName (.structFieldName typeName.name)
  expectMark .colon (.fieldColon name.name)
  return name

theorem structFields_intro (fuel : Nat) (typeName : Ident) : structFields (fuel + 1) typeName = (do
    if ← atSymbol .rbrace then return []
    let name ← memberIntro typeName
    let value ← binary fuel 1
    if ← accept .comma then
      let more ← structFields fuel typeName
      return (name, value) :: more
    else return [(name, value)]) := by
  simp only [structFields, memberIntro, bind_assoc, pure_bind]

/-- An annotation up to its name. -/
def markIntro : Reader Position := do
  let start ← start
  advance
  let name ← expectName .annotationName
  if name.name ≠ "export" then failAt name.span (.unknownMark name.name)
  return start

/-- The name of a hint and its opening parenthesis. -/
def hintIntro : Reader Ident := do
  let hint ← expectName .hintName
  expectMark .lparen (.hintParen hint.name)
  return hint

theorem exportMark_intro (fuel : Nat) : exportMark fuel = (do
    let start ← markIntro
    if ← accept .lparen then
      let hint ← hintIntro
      let args ← arguments fuel
      expectClose .rparen (.hintCall hint.name)
      let span ← spanFrom hint.span.start
      expectClose .rparen .exportMark
      return ⟨← spanFrom start, some ⟨span, hint, args⟩⟩
    else return ⟨← spanFrom start, none⟩) := by
  simp only [exportMark, markIntro, hintIntro, bind_assoc, pure_bind, ite_bind]

/-- The head of a function, up to its body. -/
def functionIntro (fuel : Nat) : Reader (Position × Ident × List Param × Option TypeRef) := do
  let start ← start
  advance
  let name ← expectName .functionName
  if !(← accept .lparen) then fail (.functionNeedsParen name.name (← peek))
  let params ← parameters fuel
  let returns ← returnType
  if !(← atSymbol .lbrace) then fail (.functionNeedsBody name.name (← peek))
  return (start, name, params, returns)

theorem functionDecl_intro (fuel : Nat) : functionDecl fuel = (do
    let (start, name, params, returns) ← functionIntro fuel
    let body ← block fuel
    return ⟨⟨start, body.span.stop⟩, name, params, returns, body⟩) := by
  simp only [functionDecl, functionIntro, bind_assoc, pure_bind, ite_bind]

/-! ## Moments -/

/-- A function of the parser with what it is given besides fuel. -/
inductive Call where
  | declarations
  | declaration
  | exportMark
  | globalDecl (exported : Option ExportMark)
  | functionDecl
  | letParts
  | returnStmt
  | simpleStmt
  | block
  | blockRest (opening : Span) (done : List (Stmt Unit))
  | statement
  | conditional
  | expectBlock (head : BlockHead)
  | binary (level : Nat)
  | binaryRest (level : Nat) (left : Expr)
  | unary
  | primary
  | arguments
  | argumentsRest
  | structFields (typeName : Ident)

/-- The beginning of a call: with fuel, at a cursor. -/
structure Moment where
  fuel   : Nat
  call   : Call
  cursor : Cursor

/-- The second moment lies directly inside the first: the call that begins at the first one makes
    the call that begins at the second. -/
inductive Calls : Moment → Moment → Prop where
  -- expressions
  | operand {n level c} : Calls ⟨n + 1, .binary level, c⟩ ⟨n, .unary, c⟩
  | operators {n level c left d} : unary n c = .ok left d →
      Calls ⟨n + 1, .binary level, c⟩ ⟨n, .binaryRest level left, d⟩
  | right {n level left c op} : binaryOp? c.tokens.head? = some op → ¬op.precedence < level →
      Calls ⟨n + 1, .binaryRest level left, c⟩ ⟨n, .binary (op.precedence + 1), c.advance⟩
  | moreOperators {n level left c op right d} :
      binaryOp? c.tokens.head? = some op → ¬op.precedence < level →
      binary n (op.precedence + 1) c.advance = .ok right d →
      Calls ⟨n + 1, .binaryRest level left, c⟩
        ⟨n, .binaryRest level (.binary (left.span.through right.span) op left right), d⟩
  | argument {n c op} : ¬AtLeast c → unaryOp? c.tokens.head? = some op →
      Calls ⟨n + 1, .unary, c⟩ ⟨n, .unary, c.advance⟩
  | bare {n c} : ¬AtLeast c → unaryOp? c.tokens.head? = none →
      Calls ⟨n + 1, .unary, c⟩ ⟨n, .primary, c⟩
  | grouped {n c} : c.atSymbol .lparen = true →
      Calls ⟨n + 1, .primary, c⟩ ⟨n, .binary 1, c.advance⟩
  | called {n c t rest} : c.tokens = t :: rest → t.kind = .identifier →
      c.kindAt 1 = some (.symbol .lparen) →
      Calls ⟨n + 1, .primary, c⟩ ⟨n, .arguments, c.advance.advance⟩
  | members {n c t rest} : c.tokens = t :: rest → t.kind = .identifier →
      looksLikeStruct c t.lexeme = true →
      Calls ⟨n + 1, .primary, c⟩ ⟨n, .structFields ⟨t.lexeme, t.span⟩, c.advance.advance⟩
  | firstArgument {n c} : c.atSymbol .rparen = false →
      Calls ⟨n + 1, .arguments, c⟩ ⟨n, .binary 1, c⟩
  | moreArguments {n c first d} : c.atSymbol .rparen = false → binary n 1 c = .ok first d →
      Calls ⟨n + 1, .arguments, c⟩ ⟨n, .argumentsRest, d⟩
  | nextArgument {n c} : c.atSymbol .comma = true →
      Calls ⟨n + 1, .argumentsRest, c⟩ ⟨n, .binary 1, c.advance⟩
  | otherArguments {n c next d} : c.atSymbol .comma = true → binary n 1 c.advance = .ok next d →
      Calls ⟨n + 1, .argumentsRest, c⟩ ⟨n, .argumentsRest, d⟩
  | member {n typeName c name d} : c.atSymbol .rbrace = false →
      memberIntro typeName c = .ok name d →
      Calls ⟨n + 1, .structFields typeName, c⟩ ⟨n, .binary 1, d⟩
  | moreMembers {n typeName c name d value e} : c.atSymbol .rbrace = false →
      memberIntro typeName c = .ok name d → binary n 1 d = .ok value e →
      e.atSymbol .comma = true →
      Calls ⟨n + 1, .structFields typeName, c⟩ ⟨n, .structFields typeName, e.advance⟩
  -- statements
  | init {n c head d} : letIntro c = .ok head d → Calls ⟨n, .letParts, c⟩ ⟨n, .binary 1, d⟩
  | result {n c} : c.advance.atSymbol .semicolon = false →
      Calls ⟨n, .returnStmt, c⟩ ⟨n, .binary 1, c.advance⟩
  | simple {n c} : Calls ⟨n, .simpleStmt, c⟩ ⟨n, .binary 1, c⟩
  | value {n c e d op target} : binary n 1 c = .ok e d → assignOp? d.tokens.head? = some op →
      targetParts e [] = some target → Calls ⟨n, .simpleStmt, c⟩ ⟨n, .binary 1, d.advance⟩
  | body {n c} : Calls ⟨n + 1, .block, c⟩ ⟨n, .blockRest c.here [], c.advance⟩
  | item {n opening done c} : c.atSymbol .rbrace = false → c.tokens ≠ [] →
      c.atDeclaration = false → Calls ⟨n + 1, .blockRest opening done, c⟩ ⟨n, .statement, c⟩
  | nextItem {n opening done c found d} : c.atSymbol .rbrace = false → c.tokens ≠ [] →
      c.atDeclaration = false → recover .statement (statement n) c = .ok found d →
      Calls ⟨n + 1, .blockRest opening done, c⟩ ⟨n, .blockRest opening (done ++ found.toList), d⟩
  | bind {n c} : c.atKeyword .letKey = true → Calls ⟨n + 1, .statement, c⟩ ⟨n, .letParts, c⟩
  | cond {n c} : c.atKeyword .ifKey = true → Calls ⟨n + 1, .statement, c⟩ ⟨n, .conditional, c⟩
  | loopTest {n c} : c.atKeyword .whileKey = true →
      Calls ⟨n + 1, .statement, c⟩ ⟨n, .binary 1, c.advance⟩
  | loopBody {n c test d} : c.atKeyword .whileKey = true → binary n 1 c.advance = .ok test d →
      Calls ⟨n + 1, .statement, c⟩ ⟨n, .expectBlock .whileCondition, d⟩
  | ret {n c} : c.atKeyword .returnKey = true → Calls ⟨n + 1, .statement, c⟩ ⟨n, .returnStmt, c⟩
  | inner {n c} : c.atSymbol .lbrace = true → Calls ⟨n + 1, .statement, c⟩ ⟨n, .block, c⟩
  | plain {n c} :
      (∀ k ∈ [Keyword.letKey, .ifKey, .whileKey, .returnKey, .elseKey], c.atKeyword k = false) →
      c.atSymbol .lbrace = false → Calls ⟨n + 1, .statement, c⟩ ⟨n, .simpleStmt, c⟩
  | condTest {n c} : Calls ⟨n + 1, .conditional, c⟩ ⟨n, .binary 1, c.advance⟩
  | consequent {n c test d} : binary n 1 c.advance = .ok test d →
      Calls ⟨n + 1, .conditional, c⟩ ⟨n, .expectBlock .ifCondition, d⟩
  | elseIf {n c test d b e} : binary n 1 c.advance = .ok test d →
      expectBlock n .ifCondition d = .ok b e → e.atKeyword .elseKey = true →
      e.advance.atKeyword .ifKey = true →
      Calls ⟨n + 1, .conditional, c⟩ ⟨n, .conditional, e.advance⟩
  | elseBlock {n c test d b e} : binary n 1 c.advance = .ok test d →
      expectBlock n .ifCondition d = .ok b e → e.atKeyword .elseKey = true →
      e.advance.atKeyword .ifKey = false →
      Calls ⟨n + 1, .conditional, c⟩ ⟨n, .expectBlock .elseWord, e.advance⟩
  | braces {n head c} : c.atSymbol .lbrace = true →
      Calls ⟨n + 1, .expectBlock head, c⟩ ⟨n, .block, c⟩
  -- declarations
  | hint {n c start d name e} : markIntro c = .ok start d → d.atSymbol .lparen = true →
      hintIntro d.advance = .ok name e → Calls ⟨n, .exportMark, c⟩ ⟨n, .arguments, e⟩
  | parts {n exported c} : Calls ⟨n, .globalDecl exported, c⟩ ⟨n, .letParts, c⟩
  | functionBody {n c head d} : functionIntro n c = .ok head d →
      Calls ⟨n, .functionDecl, c⟩ ⟨n, .block, d⟩
  | mark {n c} : c.atSymbol .atSign = true → Calls ⟨n, .declaration, c⟩ ⟨n, .exportMark, c⟩
  | marked {n c mark d} : c.atSymbol .atSign = true → exportMark n c = .ok mark d →
      d.atKeyword .letKey = true → Calls ⟨n, .declaration, c⟩ ⟨n, .globalDecl (some mark), d⟩
  | unmarked {n c} : c.atKeyword .letKey = true →
      Calls ⟨n, .declaration, c⟩ ⟨n, .globalDecl none, c⟩
  | function {n c} : c.atKeyword .fnKey = true → Calls ⟨n, .declaration, c⟩ ⟨n, .functionDecl, c⟩
  | first {n c} : c.tokens ≠ [] → Calls ⟨n + 1, .declarations, c⟩ ⟨n, .declaration, c⟩
  | others {n c found d} : c.tokens ≠ [] → recover .declaration (declaration n) c = .ok found d →
      Calls ⟨n + 1, .declarations, c⟩ ⟨n, .declarations, d⟩

/-- The second moment lies inside the first, or is the first. -/
abbrev Reaches : Moment → Moment → Prop := Relation.ReflTransGen Calls

/-- The moment at which the parser begins with some tokens. -/
def Moment.start (tokens : List Token) (finish : Position) : Moment :=
  ⟨parserFuel tokens.length, .declarations, ⟨tokens, .origin, finish, []⟩⟩

/-! ## Where computations end -/

/-- Why a computation stops, if it does, and where. -/
def outcome {α : Type} (x : Reader α) (c : Cursor) : Option Stop × Cursor :=
  match x c with
  | .ok _ d       => (none, d)
  | .error stop d => (some stop, d)

/-- Why and where the call that begins at a moment ends. -/
def Moment.outcome : Moment → Option Stop × Cursor
  | ⟨n, .declarations, c⟩           => Reader.outcome (Reader.declarations n) c
  | ⟨n, .declaration, c⟩            => Reader.outcome (Reader.declaration n) c
  | ⟨n, .exportMark, c⟩             => Reader.outcome (Reader.exportMark n) c
  | ⟨n, .globalDecl exported, c⟩    => Reader.outcome (Reader.globalDecl n exported) c
  | ⟨n, .functionDecl, c⟩           => Reader.outcome (Reader.functionDecl n) c
  | ⟨n, .letParts, c⟩               => Reader.outcome (Reader.letParts n) c
  | ⟨n, .returnStmt, c⟩             => Reader.outcome (Reader.returnStmt n) c
  | ⟨n, .simpleStmt, c⟩             => Reader.outcome (Reader.simpleStmt n) c
  | ⟨n, .block, c⟩                  => Reader.outcome (Reader.block n) c
  | ⟨n, .blockRest opening done, c⟩ => Reader.outcome (Reader.blockRest n opening done) c
  | ⟨n, .statement, c⟩              => Reader.outcome (Reader.statement n) c
  | ⟨n, .conditional, c⟩            => Reader.outcome (Reader.conditional n) c
  | ⟨n, .expectBlock head, c⟩       => Reader.outcome (Reader.expectBlock n head) c
  | ⟨n, .binary level, c⟩           => Reader.outcome (Reader.binary n level) c
  | ⟨n, .binaryRest level left, c⟩  => Reader.outcome (Reader.binaryRest n level left) c
  | ⟨n, .unary, c⟩                  => Reader.outcome (Reader.unary n) c
  | ⟨n, .primary, c⟩                => Reader.outcome (Reader.primary n) c
  | ⟨n, .arguments, c⟩              => Reader.outcome (Reader.arguments n) c
  | ⟨n, .argumentsRest, c⟩          => Reader.outcome (Reader.argumentsRest n) c
  | ⟨n, .structFields typeName, c⟩  => Reader.outcome (Reader.structFields n typeName) c

/-- What the first of two computations records, the second one has recorded when it ends; and where
    the first one runs out of fuel, so does the second. -/
structure Inside (inner outer : Option Stop × Cursor) : Prop where
  keeps   : inner.2.Extends outer.2
  starves : inner.1 = some .outOfFuel → outer.1 = some .outOfFuel

namespace Inside

theorem refl (r : Option Stop × Cursor) : Inside r r := ⟨.refl _, id⟩

theorem trans {r s t : Option Stop × Cursor} (hrs : Inside r s) (hst : Inside s t) : Inside r t :=
  ⟨hrs.keeps.trans hst.keeps, fun h => hst.starves (hrs.starves h)⟩

end Inside

section Outcome

variable {α β : Type} {x : Reader α} {f : α → Reader β} {c d : Cursor}

/-- A step that loses nothing moves forward. -/
theorem extends_of_reads (h : Reads x c fun _ _ => True) : c.Extends (outcome x c).2 := by
  rw [outcome]
  cases hx : x c with
  | ok a d => exact ((ends_of_ok hx).mp h).1
  | error stop d => exact ((ends_of_error hx).mp h).1

theorem outcome_bind_ok {a : α} (h : x c = .ok a d) :
    outcome (x >>= f) c = outcome (f a) d := by rw [outcome, outcome, bind_of_ok h]

/-- A computation with another one behind it that loses nothing. -/
theorem inside_bind (hf : ∀ a d, Reads (f a) d fun _ _ => True) :
    Inside (outcome x c) (outcome (x >>= f) c) := by
  cases hx : x c with
  | ok a d =>
      rw [outcome_bind_ok hx, outcome, hx]
      exact ⟨extends_of_reads (hf a d), fun h => by cases h⟩
  | error stop d =>
      rw [outcome, outcome, bind_of_error hx, hx]
      exact .refl _

theorem inside_map {g : α → β} : Inside (outcome x c) (outcome (g <$> x) c) := by
  rw [map_eq_pure_bind]
  exact inside_bind fun _ _ => reads_pure trivial

theorem inside_recover {level : Cursor.Level} :
    Inside (outcome x c) (outcome (recover level x) c) := by
  rw [outcome, outcome, recover]
  cases x c with
  | ok a d => exact .refl _
  | error stop d =>
      cases stop with
      | panic => exact ⟨d.extends_skip _, fun h => by cases h⟩
      | outOfFuel => exact .refl _

/-- A step that loses nothing, and its result put into something else. -/
theorem reads_bind_pure {S : α → List Word → Prop} {g : α → β} (h : Reads x c S) :
    Reads (x >>= fun a => pure (g a)) c fun _ _ => True :=
  h.any.bind fun _ _ _ => reads_pure fun _ _ => trivial

/-! Steps that look or move by one token. -/

theorem outcome_get {f : Cursor → Reader β} : outcome (get >>= f) c = outcome (f c) c := rfl

theorem outcome_peek {f : Option Token → Reader β} :
    outcome (peek >>= f) c = outcome (f c.tokens.head?) c := rfl

theorem outcome_atSymbol {s : Symbol} {f : Bool → Reader β} :
    outcome (atSymbol s >>= f) c = outcome (f (c.atSymbol s)) c := rfl

theorem outcome_atKeyword {k : Keyword} {f : Bool → Reader β} :
    outcome (atKeyword k >>= f) c = outcome (f (c.atKeyword k)) c := rfl

theorem outcome_start {f : Position → Reader β} :
    outcome (start >>= f) c = outcome (f c.here.start) c := rfl

theorem outcome_advance {f : Unit → Reader β} :
    outcome (advance >>= f) c = outcome (f ()) c.advance := rfl

theorem outcome_accept {s : Symbol} {f : Bool → Reader β} (h : c.atSymbol s = true) :
    outcome (accept s >>= f) c = outcome (f true) c.advance := by
  refine outcome_bind_ok ?_
  rw [accept, bind_of_ok (show atSymbol s c = .ok true c by rw [← h]; rfl)]
  rfl

theorem outcome_acceptKeyword {k : Keyword} {f : Bool → Reader β} (h : c.atKeyword k = true) :
    outcome (acceptKeyword k >>= f) c = outcome (f true) c.advance := by
  refine outcome_bind_ok ?_
  rw [acceptKeyword, bind_of_ok (show atKeyword k c = .ok true c by rw [← h]; rfl)]
  rfl

end Outcome

/-! ## Calls of the functions that read expressions -/

section Expressions

variable {n : Nat} {c d : Cursor}

theorem outcome_binary (n level : Nat) (c : Cursor) :
    outcome (binary (n + 1) level) c = outcome (do
      let left ← unary n
      binaryRest n level left) c := by
  rw [binary]

/-- In front of an operator that binds strongly enough, its right operand is read. -/
theorem outcome_binaryRest {level : Nat} {op : BinaryOp} (left : Expr)
    (hop : binaryOp? c.tokens.head? = some op) (hlevel : ¬op.precedence < level) :
    outcome (binaryRest (n + 1) level left) c = outcome (do
      let right ← binary n (op.precedence + 1)
      binaryRest n level (.binary (left.span.through right.span) op left right)) c.advance := by
  rw [binaryRest, outcome_peek]
  simp only [hop, hlevel, if_false]
  rfl

theorem outcome_unary (h : ¬AtLeast c) :
    outcome (unary (n + 1)) c = outcome (unaryPlain n c) c := by
  rw [outcome, outcome, unary_plain h]

theorem outcome_grouped (h : c.atSymbol .lparen = true) :
    outcome (primary (n + 1)) c = outcome (do
      let inner ← binary n 1
      expectClose .rparen .parenthesized
      return inner) c.advance := by
  obtain ⟨t, rest, ht, hk⟩ := Cursor.atSymbol_iff.mp h
  rw [primary, outcome_get]
  simp only [ht, hk]
  rfl

theorem outcome_called {t : Token} {rest : List Token} (ht : c.tokens = t :: rest)
    (hk : t.kind = .identifier) (hnext : c.kindAt 1 = some (.symbol .lparen)) :
    outcome (primary (n + 1)) c = outcome (do
      let args ← arguments n
      expectClose .rparen (.callOf t.lexeme)
      return Expr.call (← spanFrom t.span.start) ⟨t.lexeme, t.span⟩ args)
        c.advance.advance := by
  rw [primary, outcome_get]
  simp only [ht, hk, hnext, beq_self_eq_true, if_true]
  rfl

theorem outcome_members {t : Token} {rest : List Token} (ht : c.tokens = t :: rest)
    (hk : t.kind = .identifier) (hstruct : looksLikeStruct c t.lexeme = true) :
    outcome (primary (n + 1)) c = outcome (do
      let members ← structFields n ⟨t.lexeme, t.span⟩
      expectClose .rbrace (.structLiteral t.lexeme)
      return Expr.struct (← spanFrom t.span.start) ⟨t.lexeme, t.span⟩ members)
        c.advance.advance := by
  have hbrace : c.kindAt 1 = some (.symbol .lbrace) := by
    simp only [looksLikeStruct, Bool.and_eq_true, beq_iff_eq] at hstruct
    exact hstruct.1.2
  have hcall : (c.kindAt 1 == some (.symbol .lparen)) = false := by rw [hbrace]; rfl
  rw [primary, outcome_get]
  simp only [ht, hk, hcall, hstruct, Bool.false_eq_true, if_false, if_true]
  rfl

theorem outcome_arguments (h : c.atSymbol .rparen = false) :
    outcome (arguments (n + 1)) c = outcome (do
      let first ← binary n 1
      let more ← argumentsRest n
      return first :: more) c := by
  rw [arguments, outcome_atSymbol, h]
  rfl

theorem outcome_argumentsRest (h : c.atSymbol .comma = true) :
    outcome (argumentsRest (n + 1)) c = outcome (do
      let next ← binary n 1
      let more ← argumentsRest n
      return next :: more) c.advance := by
  rw [argumentsRest, outcome_accept h]
  rfl

theorem outcome_structFields {typeName name : Ident} (h : c.atSymbol .rbrace = false)
    (hname : memberIntro typeName c = .ok name d) :
    outcome (structFields (n + 1) typeName) c = outcome (do
      let value ← binary n 1
      if ← accept .comma then
        let more ← structFields n typeName
        return (name, value) :: more
      else return [(name, value)]) d := by
  rw [structFields_intro, outcome_atSymbol, h]
  exact outcome_bind_ok hname

end Expressions

/-! ## Calls of the functions that read statements -/

section Statements

variable {n : Nat} {c d e : Cursor}

theorem outcome_returnStmt (h : c.advance.atSymbol .semicolon = false) :
    outcome (returnStmt n) c = outcome (do
      let value ← some <$> expression n
      expectSemicolon .returnStatement
      return Stmt.ret (β := Unit) (← spanFrom c.here.start) value) c.advance := by
  rw [returnStmt, outcome_start, outcome_advance, outcome_atSymbol, h]
  rfl

/-- A simple statement behind its first expression. -/
def simpleRest (n : Nat) (e : Expr) : Reader (Stmt Unit) := do
  match assignOp? (← peek) with
  | some op =>
      let target ← assignTarget e
      advance
      let value ← expression n
      expectSemicolon .assignment
      return .assign (← spanFrom target.span.start) target op value
  | none =>
      expectSemicolon .expression
      return .eval (← spanFrom e.span.start) e

theorem reads_simpleRest (n : Nat) (e : Expr) (c : Cursor) :
    Reads (simpleRest n e) c fun _ _ => True := by
  rw [simpleRest, reads_peek]
  cases hop : assignOp? c.tokens.head? with
  | none => exact reads_expectSemicolon (reads_spanFrom.mpr (reads_pure trivial))
  | some op =>
      obtain ⟨t, ht, -⟩ := assignOp?_word hop
      obtain ⟨rest, ht⟩ := head?_cons ht
      cases htarget : targetParts e [] with
      | none =>
          simp only [assignTarget, htarget]
          exact reads_failAt
      | some target =>
          simp only [assignTarget, htarget, pure_bind]
          exact reads_advance ht ((reads_expression .spelled n _).any.bind fun _ _ _ =>
            reads_expectSemicolon (reads_spanFrom.mpr (reads_pure fun _ _ => trivial)))

theorem outcome_simpleStmt {left : Expr} {op : AssignOp} {root : TargetRoot} {path : List Ident}
    (he : binary n 1 c = .ok left d) (hop : assignOp? d.tokens.head? = some op)
    (htarget : targetParts left [] = some (root, path)) :
    outcome (simpleStmt n) c = outcome (do
      let value ← expression n
      expectSemicolon .assignment
      return Stmt.assign (β := Unit) (← spanFrom left.span.start) ⟨left.span, root, path⟩ op value)
        d.advance := by
  rw [simpleStmt, expression, outcome_bind_ok he, outcome_peek]
  simp only [hop, assignTarget, htarget]
  rfl

theorem outcome_blockRest (opening : Span) (done : List (Stmt Unit))
    (hclose : c.atSymbol .rbrace = false) (hne : c.tokens ≠ []) (hdecl : c.atDeclaration = false) :
    outcome (blockRest (n + 1) opening done) c = outcome (do
      let found ← recover .statement (statement n)
      blockRest n opening (done ++ found.toList)) c := by
  have hempty : c.tokens.isEmpty = false := List.isEmpty_eq_false_iff.mpr hne
  rw [blockRest, outcome_get]
  simp only [hclose, hempty, hdecl, Bool.false_eq_true, if_false]
  refine congrArg (fun x => outcome x c) (bind_congr fun found => ?_)
  cases found with
  | none => rw [Option.toList_none, List.append_nil]
  | some st => rfl

theorem kindAt_keyword {k : Keyword} (h : c.atKeyword k = true) :
    c.kindAt 0 = some (.keyword k) := by simpa [Cursor.atKeyword] using h

theorem kindAt_symbol {s : Symbol} (h : c.atSymbol s = true) :
    c.kindAt 0 = some (.symbol s) := by simpa [Cursor.atSymbol] using h

theorem outcome_bind (h : c.atKeyword .letKey = true) :
    outcome (statement (n + 1)) c = outcome (do
      let d ← letParts n
      return Stmt.bind d.span d.name d.mutable d.declared d.init ()) c := by
  rw [statement, outcome_get, kindAt_keyword h]

theorem outcome_cond (h : c.atKeyword .ifKey = true) :
    outcome (statement (n + 1)) c = outcome (Stmt.cond <$> conditional n) c := by
  rw [statement, outcome_get, kindAt_keyword h]

theorem outcome_loop (h : c.atKeyword .whileKey = true) :
    outcome (statement (n + 1)) c = outcome (do
      let test ← expression n
      let body ← expectBlock n .whileCondition
      return Stmt.loop ⟨c.here.start, body.span.stop⟩ test body) c.advance := by
  rw [statement, outcome_get, kindAt_keyword h]
  rfl

theorem outcome_ret (h : c.atKeyword .returnKey = true) :
    outcome (statement (n + 1)) c = outcome (returnStmt n) c := by
  rw [statement, outcome_get, kindAt_keyword h]

theorem outcome_inner (h : c.atSymbol .lbrace = true) :
    outcome (statement (n + 1)) c = outcome (Stmt.block <$> block n) c := by
  rw [statement, outcome_get, kindAt_symbol h]

theorem outcome_plain
    (hkey : ∀ k ∈ [Keyword.letKey, .ifKey, .whileKey, .returnKey, .elseKey], c.atKeyword k = false)
    (hbrace : c.atSymbol .lbrace = false) :
    outcome (statement (n + 1)) c = outcome (simpleStmt n) c := by
  have hne : ∀ k ∈ [Keyword.letKey, .ifKey, .whileKey, .returnKey, .elseKey],
      c.kindAt 0 ≠ some (.keyword k) := by
    intro k hk hkind
    have hfalse := hkey k hk
    rw [Cursor.atKeyword, hkind, beq_self_eq_true] at hfalse
    cases hfalse
  rw [statement, outcome_get]
  split
  · next h => exact absurd h (hne _ (by simp))
  · next h => exact absurd h (hne _ (by simp))
  · next h => exact absurd h (hne _ (by simp))
  · next h => exact absurd h (hne _ (by simp))
  · next h => simp [Cursor.atSymbol, h] at hbrace
  · next h => exact absurd h (hne _ (by simp))
  · rfl

/-- A conditional behind its consequent. -/
def alternate (n : Nat) (start : Position) (test : Expr) (consequent : Block Unit) :
    Reader (Cond Unit) := do
  if ← acceptKeyword .elseKey then
    if ← atKeyword .ifKey then
      let inner ← conditional n
      return .mk ⟨start, inner.span.stop⟩ test consequent (.cond inner)
    else
      let b ← expectBlock n .elseWord
      return .mk ⟨start, b.span.stop⟩ test consequent (.block b)
  else return .mk ⟨start, consequent.span.stop⟩ test consequent .absent

theorem outcome_conditional (n : Nat) (c : Cursor) :
    outcome (conditional (n + 1)) c = outcome (do
      let test ← expression n
      let consequent ← expectBlock n .ifCondition
      alternate n c.here.start test consequent) c.advance := rfl

theorem reads_alternate (n : Nat) (start : Position) (test : Expr) (consequent : Block Unit)
    (c : Cursor) : Reads (alternate n start test consequent) c fun _ _ => True := by
  refine reads_acceptKeyword ?_ (reads_pure trivial)
  simp only [if_true, reads_atKeyword]
  split
  · next hif => exact reads_bind_pure ((readsStmts .spelled n).conditional _ hif)
  · exact reads_bind_pure ((readsStmts .spelled n).expectBlock _ _)

theorem outcome_expectBlock (head : BlockHead) (h : c.atSymbol .lbrace = true) :
    outcome (expectBlock (n + 1) head) c = outcome (block n) c := by
  rw [expectBlock, outcome_atSymbol, h]
  rfl

end Statements

/-! ## Calls of the functions that read declarations -/

section Declarations

variable {n : Nat} {c d e : Cursor}

theorem outcome_exportMark {start : Position} {hint : Ident} (hmark : markIntro c = .ok start d)
    (hparen : d.atSymbol .lparen = true) (hhint : hintIntro d.advance = .ok hint e) :
    outcome (exportMark n) c = outcome (do
      let args ← arguments n
      expectClose .rparen (.hintCall hint.name)
      let span ← spanFrom hint.span.start
      expectClose .rparen .exportMark
      return ExportMark.mk (← spanFrom start) (some ⟨span, hint, args⟩)) e := by
  rw [exportMark_intro, outcome_bind_ok hmark, outcome_accept hparen]
  exact outcome_bind_ok hhint

theorem outcome_declaration_mark (h : c.atSymbol .atSign = true) :
    outcome (declaration n) c = outcome (do
      let a ← exportMark n
      if ← atKeyword .letKey then some <$> Declaration.global (β := Unit) <$> globalDecl n (some a)
      else fail (.annotationNeedsLet (← peek))) c := by
  obtain ⟨t, rest, ht, hk⟩ := Cursor.atSymbol_iff.mp h
  rw [declaration, outcome_peek, ht]
  simp only [List.head?_cons, Option.map_some, hk]

theorem outcome_declaration_let (h : c.atKeyword .letKey = true) :
    outcome (declaration n) c =
      outcome (some <$> Declaration.global (β := Unit) <$> globalDecl n none) c := by
  obtain ⟨t, rest, ht, hk⟩ := Cursor.atKeyword_iff.mp h
  rw [declaration, outcome_peek, ht]
  simp only [List.head?_cons, Option.map_some, hk]

theorem outcome_declaration_fn (h : c.atKeyword .fnKey = true) :
    outcome (declaration n) c = outcome (some <$> Declaration.function <$> functionDecl n) c := by
  obtain ⟨t, rest, ht, hk⟩ := Cursor.atKeyword_iff.mp h
  rw [declaration, outcome_peek, ht]
  simp only [List.head?_cons, Option.map_some, hk]

theorem outcome_declarations (h : c.tokens ≠ []) :
    outcome (declarations (n + 1)) c = outcome (do
      let found ← recover .declaration (declaration n)
      let more ← declarations n
      return found.join.toList ++ more) c := by
  have hempty : c.tokens.isEmpty = false := List.isEmpty_eq_false_iff.mpr h
  rw [declarations, outcome_get]
  simp only [hempty, Bool.false_eq_true, if_false]

end Declarations

/-! ## What is recorded on the way -/

/-- Behind a call the parser only moves forward. -/
theorem Calls.inside {m m' : Moment} (h : Calls m m') : Inside m'.outcome m.outcome := by
  cases h with
  | operand =>
      simp only [Moment.outcome, outcome_binary]
      exact inside_bind fun left d => ((readsExprs .spelled _).binaryRest _ left d).any
  | operators h =>
      simp only [Moment.outcome, outcome_binary, outcome_bind_ok h]
      exact .refl _
  | right hop hlevel =>
      simp only [Moment.outcome, outcome_binaryRest _ hop hlevel]
      exact inside_bind fun _ d => ((readsExprs .spelled _).binaryRest _ _ d).any
  | moreOperators hop hlevel h =>
      simp only [Moment.outcome, outcome_binaryRest _ hop hlevel, outcome_bind_ok h]
      exact .refl _
  | argument hleast hop =>
      simp only [Moment.outcome, outcome_unary hleast, unaryPlain, hop, outcome_advance]
      exact inside_bind fun _ d => reads_pure trivial
  | bare hleast hop =>
      simp only [Moment.outcome, outcome_unary hleast, unaryPlain, hop]
      exact inside_bind fun _ d => ((readsExprs .spelled _).fields _ d).any
  | grouped h =>
      simp only [Moment.outcome, outcome_grouped h]
      exact inside_bind fun _ d => reads_expectClose (reads_pure trivial)
  | called ht hk hnext =>
      simp only [Moment.outcome, outcome_called ht hk hnext]
      exact inside_bind fun _ d => reads_expectClose (reads_spanFrom.mpr (reads_pure trivial))
  | members ht hk hstruct =>
      simp only [Moment.outcome, outcome_members ht hk hstruct]
      exact inside_bind fun _ d => reads_expectClose (reads_spanFrom.mpr (reads_pure trivial))
  | firstArgument h =>
      simp only [Moment.outcome, outcome_arguments h]
      exact inside_bind fun _ d => reads_bind_pure ((readsExprs .spelled _).argumentsRest d)
  | moreArguments h hfirst =>
      simp only [Moment.outcome, outcome_arguments h, outcome_bind_ok hfirst]
      exact inside_bind fun _ d => reads_pure trivial
  | nextArgument h =>
      simp only [Moment.outcome, outcome_argumentsRest h]
      exact inside_bind fun _ d => reads_bind_pure ((readsExprs .spelled _).argumentsRest d)
  | otherArguments h hnext =>
      simp only [Moment.outcome, outcome_argumentsRest h, outcome_bind_ok hnext]
      exact inside_bind fun _ d => reads_pure trivial
  | member h hname =>
      simp only [Moment.outcome, outcome_structFields h hname]
      exact inside_bind fun _ d => reads_accept
        (reads_bind_pure ((readsExprs .spelled _).structFields _ _)) (reads_pure trivial)
  | moreMembers h hname hvalue hcomma =>
      simp only [Moment.outcome, outcome_structFields h hname, outcome_bind_ok hvalue,
        outcome_accept hcomma]
      exact inside_bind fun _ d => reads_pure trivial
  | init h =>
      simp only [Moment.outcome, letParts_intro, outcome_bind_ok h]
      exact inside_bind fun _ d => reads_expectSemicolon (reads_spanFrom.mpr (reads_pure trivial))
  | result h =>
      simp only [Moment.outcome, outcome_returnStmt h]
      exact inside_map.trans (inside_bind fun _ d =>
        reads_expectSemicolon (reads_spanFrom.mpr (reads_pure trivial)))
  | simple => exact inside_bind fun e d => reads_simpleRest _ e d
  | value he hop htarget =>
      simp only [Moment.outcome, outcome_simpleStmt he hop htarget]
      exact inside_bind fun _ d => reads_expectSemicolon (reads_spanFrom.mpr (reads_pure trivial))
  | body => exact .refl _
  | item hclose hne hdecl =>
      simp only [Moment.outcome, outcome_blockRest _ _ hclose hne hdecl]
      exact inside_recover.trans
        (inside_bind fun _ d => ((readsStmts .spelled _).blockRest _ _ d).any)
  | nextItem hclose hne hdecl h =>
      simp only [Moment.outcome, outcome_blockRest _ _ hclose hne hdecl, outcome_bind_ok h]
      exact .refl _
  | bind h =>
      simp only [Moment.outcome, outcome_bind h]
      exact inside_bind fun _ d => reads_pure trivial
  | cond h =>
      simp only [Moment.outcome, outcome_cond h]
      exact inside_map
  | loopTest h =>
      simp only [Moment.outcome, outcome_loop h]
      exact inside_bind fun _ d => reads_bind_pure ((readsStmts .spelled _).expectBlock _ d)
  | loopBody h htest =>
      simp only [Moment.outcome, outcome_loop h, expression, outcome_bind_ok htest]
      exact inside_bind fun _ d => reads_pure trivial
  | ret h =>
      simp only [Moment.outcome, outcome_ret h]
      exact .refl _
  | inner h =>
      simp only [Moment.outcome, outcome_inner h]
      exact inside_map
  | plain hkey hbrace =>
      simp only [Moment.outcome, outcome_plain hkey hbrace]
      exact .refl _
  | condTest =>
      simp only [Moment.outcome, outcome_conditional]
      exact inside_bind fun test d => ((readsStmts .spelled _).expectBlock _ d).any.bind
        fun _ e _ => (reads_alternate _ _ _ _ e).mono fun _ _ _ _ _ => trivial
  | consequent htest =>
      simp only [Moment.outcome, outcome_conditional, expression, outcome_bind_ok htest]
      exact inside_bind fun _ d => reads_alternate _ _ _ _ d
  | elseIf htest hblock helse hif =>
      simp only [Moment.outcome, outcome_conditional, expression, outcome_bind_ok htest,
        outcome_bind_ok hblock, alternate, outcome_acceptKeyword helse, if_true,
        outcome_atKeyword, hif]
      exact inside_bind fun _ d => reads_pure trivial
  | elseBlock htest hblock helse hif =>
      simp only [Moment.outcome, outcome_conditional, expression, outcome_bind_ok htest,
        outcome_bind_ok hblock, alternate, outcome_acceptKeyword helse, if_true,
        outcome_atKeyword, hif, Bool.false_eq_true, if_false]
      exact inside_bind fun _ d => reads_pure trivial
  | braces h =>
      simp only [Moment.outcome, outcome_expectBlock _ h]
      exact .refl _
  | hint hmark hparen hhint =>
      simp only [Moment.outcome, outcome_exportMark hmark hparen hhint]
      exact inside_bind fun _ d => reads_expectClose
        (reads_spanFrom.mpr (reads_expectClose (reads_spanFrom.mpr (reads_pure trivial))))
  | parts => exact inside_bind fun _ d => reads_pure trivial
  | functionBody h =>
      simp only [Moment.outcome, functionDecl_intro, outcome_bind_ok h]
      exact inside_bind fun _ d => reads_pure trivial
  | mark h =>
      simp only [Moment.outcome, outcome_declaration_mark h]
      refine inside_bind fun a d => reads_atKeyword.mpr ?_
      split
      · next hlet =>
          exact ((reads_globalDecl .spelled _ _ hlet).any.map fun _ _ h => h).map fun _ _ h => h
      · exact reads_peek.mpr reads_fail
  | marked h hmark hlet =>
      simp only [Moment.outcome, outcome_declaration_mark h, outcome_bind_ok hmark,
        outcome_atKeyword, hlet, if_true]
      exact inside_map.trans inside_map
  | unmarked h =>
      simp only [Moment.outcome, outcome_declaration_let h]
      exact inside_map.trans inside_map
  | function h =>
      simp only [Moment.outcome, outcome_declaration_fn h]
      exact inside_map.trans inside_map
  | first h =>
      simp only [Moment.outcome, outcome_declarations h]
      exact inside_recover.trans
        (inside_bind fun _ d => reads_bind_pure (reads_declarations .spelled _ d))
  | others h hfound =>
      simp only [Moment.outcome, outcome_declarations h, outcome_bind_ok hfound]
      exact inside_bind fun _ d => reads_pure trivial

theorem Reaches.inside {m m' : Moment} (h : Reaches m m') : Inside m'.outcome m.outcome := by
  induction h with
  | refl => exact .refl _
  | tail _ hcall ih => exact hcall.inside.trans ih

/-- An integer beyond those that may stand alone is recorded when it is read. -/
theorem outcome_primary_int {n : Nat} {c : Cursor} {t : Token} {rest : List Token} {k : Nat}
    (ht : c.tokens = t :: rest) (hk : t.kind = .int k) (hlarge : maxIntMagnitude ≤ k) :
    outcome (primary (n + 1)) c = (none, c.advance.record (.integerTooLarge t.lexeme) t.span) := by
  rw [primary, outcome_get]
  simp only [ht, hk, hlarge, if_true]
  rfl

end Reader

/-- Where a primary expression begins with an integer that only a minus may precede, its error is
    reported, whatever else is wrong with the script. -/
theorem parseTokens_primary {tokens : List Token} {finish : Position} {n : Nat} {c : Cursor}
    (hreach : Reader.Reaches (.start tokens finish) ⟨n, .primary, c⟩) {t : Token}
    (ht : c.tokens.head? = some t) {k : Nat} (hk : t.kind = .int k) (hlarge : maxIntMagnitude ≤ k) :
    (SyntaxError.integerTooLarge t.lexeme).diagnostic t.span ∈
      (parseTokens tokens finish).diagnostics := by
  obtain ⟨rest, ht⟩ := Reader.head?_cons ht
  obtain ⟨body, d, hrun, -⟩ := declarations_ok tokens finish
  have hstart : (Reader.Moment.start tokens finish).outcome = (none, d) := by
    simp only [Reader.Moment.start, Reader.Moment.outcome, Reader.outcome, hrun]
  have hinside := hreach.inside
  rw [hstart] at hinside
  cases n with
  | zero => cases hinside.starves rfl
  | succ n =>
      obtain ⟨new, hnew⟩ := hinside.keeps.errors
      simp only [Reader.Moment.outcome, Reader.outcome_primary_int ht hk hlarge] at hnew
      simp only [parseTokens, hrun, hnew, Cursor.record]
      exact List.mem_append_left _ (List.mem_append_right _ List.mem_cons_self)

end SceneScript
