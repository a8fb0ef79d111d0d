import SceneScript.Ast.Cursor
import SceneScript.Token.Lexer

/-!
# Parser — from tokens to a program

Declarations and statements are read by what they begin with, binary expressions by operator
precedence, every operator grouping to the left. An item with a syntax error is dropped after
its error is recorded, and reading goes on at the next item, so one script can have many
errors.

Reading is by recursion on fuel. Every chain of calls that takes no token is short, so
`parseTokens` computes enough fuel from the number of tokens.
-/

namespace SceneScript

namespace Reader

/-- The binary operator that a token is. -/
def binaryOp? : Option Token → Option BinaryOp
  | some t =>
      match t.kind with
      | .symbol .or    => some .or
      | .symbol .and   => some .and
      | .symbol .eq    => some .eq
      | .symbol .neq   => some .ne
      | .symbol .lt    => some .lt
      | .symbol .lte   => some .le
      | .symbol .gt    => some .gt
      | .symbol .gte   => some .ge
      | .symbol .plus  => some .add
      | .symbol .minus => some .sub
      | .symbol .star  => some .mul
      | .symbol .slash => some .div
      | _              => none
  | none => none

/-- The unary operator that a token is. -/
def unaryOp? : Option Token → Option UnaryOp
  | some t =>
      match t.kind with
      | .symbol .minus => some .neg
      | .symbol .not   => some .not
      | _              => none
  | none => none

/-- Whether a name at the cursor begins a struct literal: it starts with an upper-case letter
    and is followed by `\x7b \x7d` or by `\x7b name :`. -/
def looksLikeStruct (c : Cursor) (name : Text) : Bool :=
  name.units.head?.any isUpperUnit && c.kindAt 1 == some (.symbol .lbrace) &&
    (c.kindAt 2 == some (.symbol .rbrace) ||
      (c.kindAt 2 == some .identifier && c.kindAt 3 == some (.symbol .colon)))

/-! ## Expressions -/

mutual

/-- A binary expression whose operators bind at least as strongly as `level`. -/
def binary : Nat → Nat → Reader Expr
  | 0, _            => throw .outOfFuel
  | fuel + 1, level => do
      let left ← unary fuel
      binaryRest fuel level left

/-- The operators and right operands after a left operand. -/
def binaryRest : Nat → Nat → Expr → Reader Expr
  | 0, _, _               => throw .outOfFuel
  | fuel + 1, level, left => do
      match binaryOp? (← peek) with
      | some op =>
          if op.precedence < level then return left
          advance
          let right ← binary fuel (op.precedence + 1)
          binaryRest fuel level (.binary (left.span.through right.span) op left right)
      | none => return left

/-- An operand with its unary operators. A minus directly before the largest magnitude is part
    of the literal. -/
def unary : Nat → Reader Expr
  | 0        => throw .outOfFuel
  | fuel + 1 => do
      let c ← get
      match c.tokens with
      | minus :: number :: _ =>
          if minus.kind = .symbol .minus ∧ number.kind = .int maxIntMagnitude then
            advance
            advance
            return .int (minus.span.through number.span) (-(maxIntMagnitude : Int))
              ("-" ++ number.lexeme)
      | _ => pure ()
      match unaryOp? c.tokens.head? with
      | some op =>
          advance
          let arg ← unary fuel
          return .unary (c.here.through arg.span) op arg
      | none =>
          let object ← primary fuel
          fields fuel object

/-- The field accesses after an operand. -/
def fields : Nat → Expr → Reader Expr
  | 0, _             => throw .outOfFuel
  | fuel + 1, object => do
      if !(← accept .dot) then return object
      let name ← expectName .fieldName
      if ← atSymbol .lparen then fail (.methodCall name.name)
      fields fuel (.field (object.span.through name.span) object name)

/-- A literal, a name, a call, a struct literal or a parenthesized expression. -/
def primary : Nat → Reader Expr
  | 0        => throw .outOfFuel
  | fuel + 1 => do
      let c ← get
      match c.tokens with
      | []     => fail .expressionUnfinished
      | t :: _ =>
          match t.kind with
          | .int n =>
              advance
              if maxIntMagnitude ≤ n then
                modify fun c => c.record (.integerTooLarge t.lexeme) t.span
              return .int t.span n t.lexeme
          | .float x =>
              advance
              return .float t.span x t.lexeme
          | .string s =>
              advance
              return .string t.span s
          | .keyword .trueKey =>
              advance
              return .bool t.span true
          | .keyword .falseKey =>
              advance
              return .bool t.span false
          | .keyword .selfKey =>
              advance
              return .self t.span
          | .symbol .lparen =>
              advance
              let inner ← binary fuel 1
              expectClose .rparen .parenthesized
              return inner
          | .identifier =>
              let id : Ident := ⟨t.lexeme, t.span⟩
              advance
              if c.kindAt 1 == some (.symbol .lparen) then
                advance
                let args ← arguments fuel
                expectClose .rparen (.callOf id.name)
                return .call (← spanFrom t.span.start) id args
              else if looksLikeStruct c t.lexeme then
                advance
                let members ← structFields fuel id
                expectClose .rbrace (.structLiteral id.name)
                return .struct (← spanFrom t.span.start) id members
              else return .ident id
          | _ =>
              match assignOp? (some t) with
              | some op => fail (.assignInExpression op false)
              | none    => fail (.expectedExpression (some t))

/-- Arguments up to the closing parenthesis. -/
def arguments : Nat → Reader (List Expr)
  | 0        => throw .outOfFuel
  | fuel + 1 => do
      if ← atSymbol .rparen then return []
      let first ← binary fuel 1
      let more ← argumentsRest fuel
      return first :: more

/-- The arguments after the first. -/
def argumentsRest : Nat → Reader (List Expr)
  | 0        => throw .outOfFuel
  | fuel + 1 => do
      if !(← accept .comma) then return []
      let next ← binary fuel 1
      let more ← argumentsRest fuel
      return next :: more

/-- The fields of a struct literal up to the closing brace; a comma may follow the last. -/
def structFields : Nat → Ident → Reader (List (Ident × Expr))
  | 0, _               => throw .outOfFuel
  | fuel + 1, typeName => do
      if ← atSymbol .rbrace then return []
      let name ← expectName (.structFieldName typeName.name)
      expectMark .colon (.fieldColon name.name)
      let value ← binary fuel 1
      if ← accept .comma then
        let more ← structFields fuel typeName
        return (name, value) :: more
      else return [(name, value)]

end

/-- An expression. -/
def expression (fuel : Nat) : Reader Expr := binary fuel 1

/-! ## Statements -/

/-- The root and the field path of an expression that can be assigned to, the path before a
    given rest. -/
def targetParts : Expr → List Ident → Option (TargetRoot × List Ident)
  | .field _ object name, path => targetParts object (name :: path)
  | .ident id, path            => some (.name id, path)
  | .self span, path           => some (.self span, path)
  | _, _                       => none

/-- An expression as an assignment target. -/
def assignTarget (e : Expr) : Reader AssignTarget := do
  match targetParts e [] with
  | some (root, path) => return ⟨e.span, root, path⟩
  | none              => failAt e.span .invalidTarget

/-- A type name. -/
def typeRef : Reader TypeRef := do
  match ← peek with
  | some t =>
      if t.kind = .identifier then
        advance
        return ⟨t.lexeme, t.span⟩
      else fail (.expectedType (some t))
  | none => fail .typeUnfinished

/-- The parts of a variable declaration, global or local. -/
structure LetParts where
  span     : Span
  name     : Ident
  mutable  : Bool
  declared : Option TypeRef
  init     : Expr

/-- `let mut? name (: type)? = value ;` -/
def letParts (fuel : Nat) : Reader LetParts := do
  let start ← start
  advance
  let mutable ← acceptKeyword .mutKey
  let name ← expectName .variableName
  let declared ← if ← accept .colon then some <$> typeRef else pure none
  if !(← accept .assign) then fail (.expectedInitializer name.name (← peek))
  let init ← expression fuel
  expectSemicolon .variableDeclaration
  return ⟨← spanFrom start, name, mutable, declared, init⟩

/-- `return value? ;` -/
def returnStmt (fuel : Nat) : Reader (Stmt Unit) := do
  let start ← start
  advance
  let value ← if ← atSymbol .semicolon then pure none else some <$> expression fuel
  expectSemicolon .returnStatement
  return .ret (← spanFrom start) value

/-- An assignment or an expression, and its semicolon. -/
def simpleStmt (fuel : Nat) : Reader (Stmt Unit) := do
  let e ← expression fuel
  match assignOp? (← peek) with
  | some op =>
      let target ← assignTarget e
      advance
      let value ← expression fuel
      expectSemicolon .assignment
      return .assign (← spanFrom target.span.start) target op value
  | none =>
      expectSemicolon .expression
      return .eval (← spanFrom e.span.start) e

mutual

/-- A block; the next token is its opening brace. -/
def block : Nat → Reader (Block Unit)
  | 0        => throw .outOfFuel
  | fuel + 1 => do
      let opening := (← get).here
      advance
      blockRest fuel opening []

/-- The statements of a block after `done` of them, up to its closing brace. A block that is
    never closed ends before the next declaration or at the end of the file. -/
def blockRest : Nat → Span → List (Stmt Unit) → Reader (Block Unit)
  | 0, _, _                 => throw .outOfFuel
  | fuel + 1, opening, done => do
      let c ← get
      if c.atSymbol .rbrace then
        advance
        return .mk (← spanFrom opening.start) done
      else if c.tokens.isEmpty then
        set (c.record .blockUnfinished c.here)
        return .mk (opening.through c.here) done
      else if c.atDeclaration then
        set (c.record .blockNotClosed opening)
        return .mk ⟨opening.start, c.last⟩ done
      else
        match ← recover .statement (statement fuel) with
        | some s => blockRest fuel opening (done ++ [s])
        | none   => blockRest fuel opening done

/-- A statement. -/
def statement : Nat → Reader (Stmt Unit)
  | 0        => throw .outOfFuel
  | fuel + 1 => do
      match (← get).kindAt 0 with
      | some (.keyword .letKey) =>
          let d ← letParts fuel
          return .bind d.span d.name d.mutable d.declared d.init ()
      | some (.keyword .ifKey)     => .cond <$> conditional fuel
      | some (.keyword .whileKey)  =>
          let start ← start
          advance
          let test ← expression fuel
          let body ← expectBlock fuel .whileCondition
          return .loop ⟨start, body.span.stop⟩ test body
      | some (.keyword .returnKey) => returnStmt fuel
      | some (.symbol .lbrace)     => .block <$> block fuel
      | some (.keyword .elseKey)   => fail .strayElse
      | _                          => simpleStmt fuel

/-- A conditional; the next token is its `if`. -/
def conditional : Nat → Reader (Cond Unit)
  | 0        => throw .outOfFuel
  | fuel + 1 => do
      let start ← start
      advance
      let test ← expression fuel
      let consequent ← expectBlock fuel .ifCondition
      if ← acceptKeyword .elseKey then
        if ← atKeyword .ifKey then
          let c ← conditional fuel
          return .mk ⟨start, c.span.stop⟩ test consequent (.cond c)
        else
          let b ← expectBlock fuel .elseWord
          return .mk ⟨start, b.span.stop⟩ test consequent (.block b)
      else return .mk ⟨start, consequent.span.stop⟩ test consequent .absent

/-- A block after its head. -/
def expectBlock : Nat → BlockHead → Reader (Block Unit)
  | 0, _           => throw .outOfFuel
  | fuel + 1, head => do
      if ← atSymbol .lbrace then block fuel
      else
        rejectAssign
        fail (.missingBlock head (← peek))

end

/-! ## Declarations -/

/-- Parameters up to and including the closing parenthesis, at least one. -/
def parametersRest : Nat → Reader (List Param)
  | 0        => throw .outOfFuel
  | fuel + 1 => do
      match ← peek with
      | some t =>
          if t.kind = .identifier then
            advance
            if !(← accept .colon) then failAt t.span (.parameterWithoutType t.lexeme)
            let declared ← typeRef
            let p : Param := ⟨t.span.through declared.span, ⟨t.lexeme, t.span⟩, declared⟩
            if ← accept .comma then
              let more ← parametersRest fuel
              return p :: more
            else
              expectClose .rparen .parameters
              return [p]
          else fail (.expectedParameter (some t))
      | none => fail .parametersUnfinished

/-- Parameters up to and including the closing parenthesis. -/
def parameters (fuel : Nat) : Reader (List Param) := do
  if ← accept .rparen then return [] else parametersRest fuel

/-- `@export`, with or without a hint. -/
def exportMark (fuel : Nat) : Reader ExportMark := do
  let start ← start
  advance
  let name ← expectName .annotationName
  if name.name ≠ "export" then failAt name.span (.unknownMark name.name)
  if ← accept .lparen then
    let hint ← expectName .hintName
    expectMark .lparen (.hintParen hint.name)
    let args ← arguments fuel
    expectClose .rparen (.hintCall hint.name)
    let span ← spanFrom hint.span.start
    expectClose .rparen .exportMark
    return ⟨← spanFrom start, some ⟨span, hint, args⟩⟩
  else return ⟨← spanFrom start, none⟩

/-- A global variable after its annotation. -/
def globalDecl (fuel : Nat) (exported : Option ExportMark) : Reader GlobalDecl := do
  let d ← letParts fuel
  let start :=
    match exported with
    | some a => a.span.start
    | none   => d.span.start
  return ⟨⟨start, d.span.stop⟩, d.name, d.mutable, d.declared, d.init, exported⟩

/-- A return type after an arrow. -/
def returnType : Reader (Option TypeRef) := do
  if ← accept .arrow then
    match ← peek with
    | some t =>
        if t.kind = .identifier then
          advance
          return some ⟨t.lexeme, t.span⟩
        else fail (.expectedReturnType (some t))
    | none => fail (.expectedReturnType none)
  else return none

/-- A function. -/
def functionDecl (fuel : Nat) : Reader (FunctionDecl Unit) := do
  let start ← start
  advance
  let name ← expectName .functionName
  if !(← accept .lparen) then fail (.functionNeedsParen name.name (← peek))
  let params ← parameters fuel
  let returns ← returnType
  if !(← atSymbol .lbrace) then fail (.functionNeedsBody name.name (← peek))
  let body ← block fuel
  return ⟨⟨start, body.span.stop⟩, name, params, returns, body⟩

/-- A signal. -/
def signalDecl (fuel : Nat) : Reader SignalDecl := do
  let start ← start
  advance
  let name ← expectName .signalName
  expectMark .lparen (.signalParen name.name)
  let params ← parameters fuel
  expectSemicolon .signalDeclaration
  return ⟨← spanFrom start, name, params⟩

/-- A declaration; a semicolon between declarations is skipped. -/
def declaration (fuel : Nat) : Reader (Option (Declaration Unit)) := do
  let next ← peek
  match next.map Token.kind with
  | some (.symbol .atSign) =>
      let a ← exportMark fuel
      if ← atKeyword .letKey then some <$> .global <$> globalDecl fuel (some a)
      else fail (.annotationNeedsLet (← peek))
  | some (.keyword .letKey)    => some <$> .global <$> globalDecl fuel none
  | some (.keyword .fnKey)     => some <$> .function <$> functionDecl fuel
  | some (.keyword .signalKey) => some <$> .signal <$> signalDecl fuel
  | some (.symbol .semicolon)  =>
      advance
      return none
  | _ => fail (.expectedDeclaration next)

/-- All declarations up to the end. -/
def declarations : Nat → Reader (List (Declaration Unit))
  | 0        => throw .outOfFuel
  | fuel + 1 => do
      if (← get).tokens.isEmpty then return []
      let found ← recover .declaration (declaration fuel)
      let more ← declarations fuel
      return found.join.toList ++ more

end Reader

/-- A script as a program, with what is wrong with its shape. -/
structure Parsed where
  program     : Program Unit
  diagnostics : List Diagnostic

/-- Fuel that suffices for a number of tokens. -/
def parserFuel (tokens : Nat) : Nat := 16 * (tokens + 2)

/-- Reads tokens that end at position `finish`. -/
def parseTokens (tokens : List Token) (finish : Position) : Parsed :=
  let c : Cursor := ⟨tokens, .origin, finish, []⟩
  match Reader.declarations (parserFuel tokens.length) c with
  | .ok body c'  => ⟨⟨⟨c.here.start, finish⟩, body⟩, c'.errors⟩
  | .error _ c'  => ⟨⟨⟨c.here.start, finish⟩, []⟩, c'.errors⟩

/-- The diagnostic of a lexical error. -/
def LexError.diagnostic (e : LexError) : Diagnostic :=
  .make .error e.problem.code e.problem.message e.span (some .lexer) none

/-- Reads a script. A script with lexical errors has no declarations, and those errors are all
    that is reported. -/
def parseSource (source : Text) : Parsed :=
  let lexed := tokenize source false
  if lexed.errors.isEmpty then parseTokens lexed.tokens lexed.finish
  else ⟨⟨.point lexed.finish, []⟩, lexed.errors.map LexError.diagnostic⟩

end SceneScript
