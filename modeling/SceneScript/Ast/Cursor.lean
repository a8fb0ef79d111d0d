import SceneScript.Ast.SyntaxError

/-!
# Cursor — reading a token list from left to right

The reader's state is the tokens that remain, where the last token ended, where the script
ends, and the errors met so far. A reading step succeeds, gives up on the item at hand
(`Stop.panic`, its error already recorded), or runs out of fuel. Errors and position survive
giving up, so reading can go on after the item.

`Cursor.synchronize` is the way on: it skips to the next place where an item can begin.
-/

namespace SceneScript

/-- Where reading stands. -/
structure Cursor where
  tokens : List Token
  last   : Position
  finish : Position
  errors : List Diagnostic
deriving Repr

/-- Why a reading step has no result. -/
inductive Stop where
  | panic
  | outOfFuel
deriving DecidableEq, Repr

/-- A reading step. -/
abbrev Reader (α : Type) := EStateM Stop Cursor α

namespace Cursor

/-- The place of the next token, or of the end of the script. -/
def here (c : Cursor) : Span :=
  match c.tokens with
  | t :: _ => t.span
  | []     => .point c.finish

/-- Past the next token. -/
def advance (c : Cursor) : Cursor :=
  match c.tokens with
  | t :: rest => { c with tokens := rest, last := t.span.stop }
  | []        => c

/-- The kind of the token `n` places ahead. -/
def kindAt (c : Cursor) (n : Nat) : Option TokenKind := (c.tokens[n]?).map Token.kind

/-- Whether the next token is a given symbol. -/
def atSymbol (c : Cursor) (s : Symbol) : Bool := c.kindAt 0 == some (.symbol s)

/-- Whether the next token is a given keyword. -/
def atKeyword (c : Cursor) (k : Keyword) : Bool := c.kindAt 0 == some (.keyword k)

/-- Whether the next token begins a declaration that no statement can contain. -/
def atDeclaration (c : Cursor) : Bool :=
  c.atKeyword .fnKey || c.atKeyword .signalKey || c.atSymbol .atSign

/-- With one more error. -/
def record (c : Cursor) (e : SyntaxError) (span : Span) : Cursor :=
  { c with errors := c.errors ++ [e.diagnostic span] }

/-- The level at which reading goes on after an error. -/
inductive Level where
  | declaration | statement
deriving DecidableEq, Repr

/-- How many tokens to skip before reading goes on, at brace depth `depth`: up to a token that
    begins a declaration, or at depth zero past a semicolon, before a `let`, or at a closing
    brace, which is skipped only on the level of declarations. Braces opened on the way are
    skipped as a whole. -/
def skipCount (level : Level) : Nat → List Token → Nat
  | _, []            => 0
  | depth, t :: rest =>
      match t.kind with
      | .keyword .fnKey | .keyword .signalKey | .symbol .atSign => 0
      | .symbol .semicolon => if depth = 0 then 1 else skipCount level depth rest + 1
      | .keyword .letKey => if depth = 0 then 0 else skipCount level depth rest + 1
      | .symbol .lbrace => skipCount level (depth + 1) rest + 1
      | .symbol .rbrace =>
          if depth = 0 then (if level = .declaration then 1 else 0)
          else if depth = 1 then 1
          else skipCount level (depth - 1) rest + 1
      | _ => skipCount level depth rest + 1

/-- Past a number of tokens. -/
def skip : Nat → Cursor → Cursor
  | 0, c     => c
  | n + 1, c => skip n c.advance

/-- At the next place where an item can begin. -/
def synchronize (level : Level) (c : Cursor) : Cursor := c.skip (skipCount level 0 c.tokens)

end Cursor

namespace Reader

/-- The next token, or `none` at the end. -/
def peek : Reader (Option Token) := do return (← get).tokens.head?

/-- Past the next token. -/
def advance : Reader Unit := modify Cursor.advance

/-- Records an error at a place and gives up. -/
def failAt {α : Type} (span : Span) (e : SyntaxError) : Reader α := do
  modify fun c => c.record e span
  throw .panic

/-- Records an error at the next token and gives up. -/
def fail {α : Type} (e : SyntaxError) : Reader α := do failAt (← get).here e

/-- Whether the next token is a given symbol. -/
def atSymbol (s : Symbol) : Reader Bool := do return (← get).atSymbol s

/-- Whether the next token is a given keyword. -/
def atKeyword (k : Keyword) : Reader Bool := do return (← get).atKeyword k

/-- Past the next token if it is a given symbol. -/
def accept (s : Symbol) : Reader Bool := do
  if ← atSymbol s then
    advance
    return true
  else return false

/-- Past the next token if it is a given keyword. -/
def acceptKeyword (k : Keyword) : Reader Bool := do
  if ← atKeyword k then
    advance
    return true
  else return false

/-- From a position to the end of the last token. -/
def spanFrom (start : Position) : Reader Span := do return ⟨start, (← get).last⟩

/-- The place where an item begins: that of the next token. -/
def start : Reader Position := do return (← get).here.start

/-- A name. -/
def expectName (expected : Expected) : Reader Ident := do
  match ← peek with
  | some t =>
      if t.kind = .identifier then
        advance
        return ⟨t.lexeme, t.span⟩
      else fail (.missingName expected (some t))
  | none => fail (.missingName expected none)

/-- A mark after a name. -/
def expectMark (s : Symbol) (mark : Mark) : Reader Unit := do
  if !(← accept s) then fail (.missingMark mark (← peek))

/-- A closing mark. -/
def expectClose (s : Symbol) (enclosed : Enclosed) : Reader Unit := do
  if !(← accept s) then fail (.missingClose enclosed (← peek))

/-- The assignment operator that a token is. -/
def assignOp? : Option Token → Option AssignOp
  | some t =>
      match t.kind with
      | .symbol .assign      => some .set
      | .symbol .plusAssign  => some .add
      | .symbol .minusAssign => some .sub
      | .symbol .starAssign  => some .mul
      | .symbol .slashAssign => some .div
      | _                    => none
  | none => none

/-- Gives up at an assignment operator where an expression has ended. -/
def rejectAssign : Reader Unit := do
  match assignOp? (← peek) with
  | some op => fail (.assignInExpression op true)
  | none    => return ()

/-- A semicolon; a missing one is reported just after the last token. -/
def expectSemicolon (ended : Ended) : Reader Unit := do
  if ← accept .semicolon then return ()
  rejectAssign
  let p := (← get).last
  failAt ⟨p, { p with offset := p.offset + 1, column := p.column + 1 }⟩
    (.missingSemicolon ended (← peek))

/-- Runs a step on the level of items: giving up skips to the next item and yields nothing. -/
def recover {α : Type} (level : Cursor.Level) (step : Reader α) : Reader (Option α) := fun c =>
  match step c with
  | .ok a c'             => .ok (some a) c'
  | .error .panic c'     => .ok none (c'.synchronize level)
  | .error .outOfFuel c' => .error .outOfFuel c'

end Reader

end SceneScript
