import SceneScript.Proofs.Syntax.Words

/-!
# Rendering a tree with as few parentheses as possible

A tree is written out in source order. Parentheses stand where precedence asks for them: around
a left operand that binds less than its operator, a right operand that does not bind more, the
operand of a unary operator when it is a binary expression, and the object of a field access
unless it is a primary expression. The tests of conditionals and loops always stand in
parentheses, so that no struct literal is seen in front of a block.

* **`Expr.level`** — how strongly an expression binds; **`Expr.wordsAt`** — its words where a
  level is asked for.
* **`Program.words`** — a whole script.
* **`Expr.wellFormed`**, …, **`Program.wellFormed`** — the trees that can be written: integers
  in range, and names of struct types that begin with an upper-case letter.
* **`Program.bare`** — the tree without its places in the text.
-/

namespace SceneScript

/-! ## Expressions -/

/-- How strongly an expression binds: like its operator, as a unary one, or as a primary one. The
    least integer is written with a minus. -/
def Expr.level : Expr → Nat
  | .binary _ op _ _ => op.precedence
  | .unary _ _ _     => 7
  | .int _ n _       => if n < 0 then 7 else 8
  | _                => 8

/-- Words between parentheses. -/
def inParens (ws : List Word) : List Word := .symbol .lparen :: ws ++ [.symbol .rparen]

/-- Words between parentheses where they are needed. -/
def inParensIf (needed : Bool) (ws : List Word) : List Word := if needed then inParens ws else ws

mutual

/-- The words of an expression. -/
def Expr.words : Expr → List Word
  | .int _ n raw =>
      if n < 0 then [.symbol .minus, .int maxIntMagnitude ⟨raw.units.tail⟩]
      else [.int n.toNat raw]
  | .float _ x raw         => [.float x raw]
  | .bool _ b              => [boolWord b]
  | .string _ t            => [.string t]
  | .self _                => [.keyword .selfKey]
  | .ident id              => [.name id.name]
  | .field _ object name   =>
      inParensIf (object.level < 8) object.words ++ [.symbol .dot, .name name.name]
  | .call _ callee args    =>
      .name callee.name :: .symbol .lparen :: argumentWords args ++ [.symbol .rparen]
  | .unary _ op arg        => op.word :: inParensIf (arg.level < 7) arg.words
  | .binary _ op left right =>
      inParensIf (left.level < op.precedence) left.words ++
        op.word :: inParensIf (right.level < op.precedence + 1) right.words
  | .struct _ name fields  =>
      .name name.name :: .symbol .lbrace :: memberWords fields ++ [.symbol .rbrace]

/-- The words of arguments, with commas between them. -/
def argumentWords : List Expr → List Word
  | []      => []
  | e :: es => e.words ++ moreArgumentWords es

/-- The words of arguments after the first. -/
def moreArgumentWords : List Expr → List Word
  | []      => []
  | e :: es => .symbol .comma :: e.words ++ moreArgumentWords es

/-- The words of the fields of a struct literal, with commas between them. -/
def memberWords : List (Ident × Expr) → List Word
  | []                => []
  | (name, e) :: rest =>
      .name name.name :: .symbol .colon :: e.words ++ moreMemberWords rest

/-- The words of fields after the first. -/
def moreMemberWords : List (Ident × Expr) → List Word
  | []                => []
  | (name, e) :: rest =>
      .symbol .comma :: .name name.name :: .symbol .colon :: e.words ++ moreMemberWords rest

end

/-- The words of an expression where operators have to bind at least as strongly as a level. -/
def Expr.wordsAt (e : Expr) (level : Nat) : List Word := inParensIf (e.level < level) e.words

/-! ## Statements -/

/-- The word that the path of a target starts from. -/
def TargetRoot.word : TargetRoot → Word
  | .self _  => .keyword .selfKey
  | .name id => .name id.name

/-- The words of an assignment target. -/
def AssignTarget.words (t : AssignTarget) : List Word :=
  t.root.word :: t.path.flatMap fun id => [.symbol .dot, .name id.name]

mutual

/-- The words of a statement. -/
def Stmt.words : Stmt Unit → List Word
  | .block b => b.words
  | .bind _ name mutable declared init _ =>
      letHead mutable name declared ++ init.words ++ [.symbol .semicolon]
  | .assign _ target op value =>
      target.words ++ op.word :: value.words ++ [.symbol .semicolon]
  | .cond c => c.words
  | .loop _ test body => .keyword .whileKey :: inParens test.words ++ body.words
  | .ret _ none => [.keyword .returnKey, .symbol .semicolon]
  | .ret _ (some e) => .keyword .returnKey :: e.words ++ [.symbol .semicolon]
  | .eval _ e => e.words ++ [.symbol .semicolon]

/-- The words of statements. -/
def stmtsWords : List (Stmt Unit) → List Word
  | []         => []
  | st :: rest => st.words ++ stmtsWords rest

/-- The words of a block. -/
def Block.words : Block Unit → List Word
  | .mk _ body => .symbol .lbrace :: stmtsWords body ++ [.symbol .rbrace]

/-- The words of a conditional. -/
def Cond.words : Cond Unit → List Word
  | .mk _ test consequent alternate =>
      .keyword .ifKey :: inParens test.words ++ consequent.words ++ alternate.words

/-- The words of what follows a consequent. -/
def Else.words : Else Unit → List Word
  | .absent  => []
  | .block b => .keyword .elseKey :: b.words
  | .cond c  => .keyword .elseKey :: c.words

end

theorem Stmt.words_block (b : Block Unit) : (Stmt.block b).words = b.words := by rw [Stmt.words]

theorem Stmt.words_cond (c : Cond Unit) : (Stmt.cond c).words = c.words := by rw [Stmt.words]

theorem Block.words_eq (b : Block Unit) :
    b.words = .symbol .lbrace :: (stmtsWords b.body ++ [.symbol .rbrace]) := by
  cases b
  rfl

/-! ## Declarations -/

/-- The words of an export annotation. -/
def ExportMark.words (mark : ExportMark) : List Word :=
  .symbol .atSign :: .name "export" ::
    match mark.hint with
    | none   => []
    | some h =>
        .symbol .lparen :: .name h.name.name :: .symbol .lparen :: argumentWords h.args ++
          [.symbol .rparen, .symbol .rparen]

/-- The words of a declaration. -/
def Declaration.words : Declaration Unit → List Word
  | .global g =>
      g.exported.elim [] ExportMark.words ++ letHead g.mutable g.name g.declared ++
        g.init.words ++ [.symbol .semicolon]
  | .function f =>
      .keyword .fnKey :: .name f.name.name :: .symbol .lparen :: paramWords f.params ++
        .symbol .rparen :: resultWords f.returns ++ f.body.words
  | .signal s =>
      .keyword .signalKey :: .name s.name.name :: .symbol .lparen :: paramWords s.params ++
        [.symbol .rparen, .symbol .semicolon]

/-- The words of a script. -/
def Program.words (p : Program Unit) : List Word := p.body.flatMap Declaration.words

/-! ## Trees that can be written -/

mutual

/-- The expression can be written: integers are in range, the spelling of the least one begins
    with a minus, and names of struct types begin with an upper-case letter. -/
def Expr.wellFormed : Expr → Bool
  | .int _ n raw =>
      (0 ≤ n && n < maxIntMagnitude) ||
        (n == -(maxIntMagnitude : Int) && raw.units.head? == some (unitOf '-'))
  | .field _ object _      => object.wellFormed
  | .call _ _ args         => exprsWellFormed args
  | .unary _ _ arg         => arg.wellFormed
  | .binary _ _ left right => left.wellFormed && right.wellFormed
  | .struct _ name fields  =>
      name.name.units.head?.any isUpperUnit && membersWellFormed fields
  | _                      => true

/-- All expressions can be written. -/
def exprsWellFormed : List Expr → Bool
  | []      => true
  | e :: es => e.wellFormed && exprsWellFormed es

/-- The values of all fields can be written. -/
def membersWellFormed : List (Ident × Expr) → Bool
  | []             => true
  | (_, e) :: rest => e.wellFormed && membersWellFormed rest

end

mutual

/-- The expressions of a statement can be written. -/
def Stmt.wellFormed : Stmt Unit → Bool
  | .block b             => b.wellFormed
  | .bind _ _ _ _ init _ => init.wellFormed
  | .assign _ _ _ value  => value.wellFormed
  | .cond c              => c.wellFormed
  | .loop _ test body    => test.wellFormed && body.wellFormed
  | .ret _ none          => true
  | .ret _ (some e)      => e.wellFormed
  | .eval _ e            => e.wellFormed

/-- The expressions of statements can be written. -/
def stmtsWellFormed : List (Stmt Unit) → Bool
  | []         => true
  | st :: rest => st.wellFormed && stmtsWellFormed rest

/-- The expressions of a block can be written. -/
def Block.wellFormed : Block Unit → Bool
  | .mk _ body => stmtsWellFormed body

/-- The expressions of a conditional can be written. -/
def Cond.wellFormed : Cond Unit → Bool
  | .mk _ test consequent alternate =>
      test.wellFormed && consequent.wellFormed && alternate.wellFormed

/-- The expressions of what follows a consequent can be written. -/
def Else.wellFormed : Else Unit → Bool
  | .absent  => true
  | .block b => b.wellFormed
  | .cond c  => c.wellFormed

end

/-- The expressions of a declaration can be written. -/
def Declaration.wellFormed : Declaration Unit → Bool
  | .global g   =>
      g.init.wellFormed &&
        ((g.exported.bind ExportMark.hint).all fun h => exprsWellFormed h.args)
  | .function f => f.body.wellFormed
  | .signal _   => true

/-- The script can be written. -/
def Program.wellFormed (p : Program Unit) : Bool := p.body.all Declaration.wellFormed

/-! ## Trees without places -/

/-- The name alone. -/
def Ident.bare (id : Ident) : Ident := ⟨id.name, .origin⟩

/-- The type name alone. -/
def TypeRef.bare (t : TypeRef) : TypeRef := ⟨t.name, .origin⟩

mutual

/-- The expression without its places. -/
def Expr.bare : Expr → Expr
  | .int _ n raw            => .int .origin n raw
  | .float _ x raw          => .float .origin x raw
  | .bool _ b               => .bool .origin b
  | .string _ t             => .string .origin t
  | .self _                 => .self .origin
  | .ident id               => .ident id.bare
  | .field _ object name    => .field .origin object.bare name.bare
  | .call _ callee args     => .call .origin callee.bare (exprsBare args)
  | .unary _ op arg         => .unary .origin op arg.bare
  | .binary _ op left right => .binary .origin op left.bare right.bare
  | .struct _ name fields   => .struct .origin name.bare (membersBare fields)

/-- The expressions without their places. -/
def exprsBare : List Expr → List Expr
  | []      => []
  | e :: es => e.bare :: exprsBare es

/-- The fields without their places. -/
def membersBare : List (Ident × Expr) → List (Ident × Expr)
  | []                => []
  | (name, e) :: rest => (name.bare, e.bare) :: membersBare rest

end

/-- The root of a target without its place. -/
def TargetRoot.bare : TargetRoot → TargetRoot
  | .self _  => .self .origin
  | .name id => .name id.bare

/-- The target without its places. -/
def AssignTarget.bare (t : AssignTarget) : AssignTarget :=
  ⟨.origin, t.root.bare, t.path.map Ident.bare⟩

mutual

/-- The statement without its places. -/
def Stmt.bare : Stmt Unit → Stmt Unit
  | .block b => .block b.bare
  | .bind _ name mutable declared init _ =>
      .bind .origin name.bare mutable (declared.map TypeRef.bare) init.bare ()
  | .assign _ target op value => .assign .origin target.bare op value.bare
  | .cond c                   => .cond c.bare
  | .loop _ test body         => .loop .origin test.bare body.bare
  | .ret _ none               => .ret .origin none
  | .ret _ (some e)           => .ret .origin (some e.bare)
  | .eval _ e                 => .eval .origin e.bare

/-- The statements without their places. -/
def stmtsBare : List (Stmt Unit) → List (Stmt Unit)
  | []         => []
  | st :: rest => st.bare :: stmtsBare rest

/-- The block without its places. -/
def Block.bare : Block Unit → Block Unit
  | .mk _ body => .mk .origin (stmtsBare body)

/-- The conditional without its places. -/
def Cond.bare : Cond Unit → Cond Unit
  | .mk _ test consequent alternate => .mk .origin test.bare consequent.bare alternate.bare

/-- What follows a consequent without its places. -/
def Else.bare : Else Unit → Else Unit
  | .absent  => .absent
  | .block b => .block b.bare
  | .cond c  => .cond c.bare

end

theorem Stmt.bare_block (b : Block Unit) : (Stmt.block b).bare = .block b.bare := by
  rw [Stmt.bare]

theorem Stmt.bare_cond (c : Cond Unit) : (Stmt.cond c).bare = .cond c.bare := by rw [Stmt.bare]

theorem stmtsBare_eq_map (sts : List (Stmt Unit)) : stmtsBare sts = sts.map Stmt.bare := by
  induction sts with
  | nil => rfl
  | cons st sts ih => rw [stmtsBare, ih, List.map_cons]

/-- The annotation without its places. -/
def ExportMark.bare (mark : ExportMark) : ExportMark where
  span := .origin
  hint := mark.hint.map fun h => ⟨.origin, h.name.bare, exprsBare h.args⟩

/-- The parameter without its places. -/
def Param.bare (p : Param) : Param := ⟨.origin, p.name.bare, p.declared.bare⟩

/-- The declaration without its places. -/
def Declaration.bare : Declaration Unit → Declaration Unit
  | .global g =>
      .global ⟨.origin, g.name.bare, g.mutable, g.declared.map TypeRef.bare, g.init.bare,
        g.exported.map ExportMark.bare⟩
  | .function f =>
      .function ⟨.origin, f.name.bare, f.params.map Param.bare, f.returns.map TypeRef.bare,
        f.body.bare⟩
  | .signal s => .signal ⟨.origin, s.name.bare, s.params.map Param.bare⟩

/-- The script without its places. -/
def Program.bare (p : Program Unit) : Program Unit := ⟨.origin, p.body.map Declaration.bare⟩

end SceneScript
