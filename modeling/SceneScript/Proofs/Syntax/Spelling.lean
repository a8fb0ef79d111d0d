import SceneScript.Proofs.Syntax.Words

/-!
# Spelling — how a tree may be written

A tree is written in source order, every part by its own words. There is a choice in three
places only: an expression may stand in parentheses, a comma may follow the last field of a
struct literal, and semicolons may stand between declarations. Precedence plays no role here;
that a spelling is read back as the same tree is another matter (`Proofs.Syntax.RoundTrip`).

* **`ExprSpelled`** — expressions, with **`TargetSpelled`** for what an assignment changes.
* **`StmtSpelled`**, **`BlockSpelled`**, **`CondSpelled`** — function bodies.
* **`ProgramSpelled`** — whole scripts.
* **`SpellingRules`** — all relations of trees and words that respect these rules.
-/

namespace SceneScript

/-! ## Expressions -/

mutual

/-- An expression may be written with these words. -/
inductive ExprSpelled : Expr → List Word → Prop where
  | int (span) (n : Nat) (lexeme) : ExprSpelled (.int span n lexeme) [.int n lexeme]
  | least (span lexeme) :
      ExprSpelled (.int span (-(maxIntMagnitude : Int)) ("-" ++ lexeme))
        [.symbol .minus, .int maxIntMagnitude lexeme]
  | float (span x lexeme) : ExprSpelled (.float span x lexeme) [.float x lexeme]
  | bool (span b) : ExprSpelled (.bool span b) [boolWord b]
  | string (span t) : ExprSpelled (.string span t) [.string t]
  | self (span) : ExprSpelled (.self span) [.keyword .selfKey]
  | ident (id) : ExprSpelled (.ident id) [.name id.name]
  | field (span object name ws) :
      ExprSpelled object ws →
      ExprSpelled (.field span object name) (ws ++ [.symbol .dot, .name name.name])
  | call (span callee args ws) :
      ArgumentsSpelled args ws →
      ExprSpelled (.call span callee args)
        (.name callee.name :: .symbol .lparen :: ws ++ [.symbol .rparen])
  | unary (span op arg ws) :
      ExprSpelled arg ws → ExprSpelled (.unary span op arg) (op.word :: ws)
  | binary (span op left right ls rs) :
      ExprSpelled left ls → ExprSpelled right rs →
      ExprSpelled (.binary span op left right) (ls ++ op.word :: rs)
  | struct (span name fields ws) :
      FieldsSpelled fields ws →
      ExprSpelled (.struct span name fields)
        (.name name.name :: .symbol .lbrace :: ws ++ [.symbol .rbrace])
  | group (e ws) : ExprSpelled e ws → ExprSpelled e (.symbol .lparen :: ws ++ [.symbol .rparen])

/-- Arguments may be written with these words. -/
inductive ArgumentsSpelled : List Expr → List Word → Prop where
  | nil : ArgumentsSpelled [] []
  | cons (e es ws us) :
      ExprSpelled e ws → MoreArgumentsSpelled es us → ArgumentsSpelled (e :: es) (ws ++ us)

/-- Arguments after the first may be written with these words. -/
inductive MoreArgumentsSpelled : List Expr → List Word → Prop where
  | nil : MoreArgumentsSpelled [] []
  | cons (e es ws us) :
      ExprSpelled e ws → MoreArgumentsSpelled es us →
      MoreArgumentsSpelled (e :: es) (.symbol .comma :: ws ++ us)

/-- The fields of a struct literal may be written with these words. -/
inductive FieldsSpelled : List (Ident × Expr) → List Word → Prop where
  | nil : FieldsSpelled [] []
  | last (name e ws) :
      ExprSpelled e ws → FieldsSpelled [(name, e)] (.name name.name :: .symbol .colon :: ws)
  | cons (name e rest ws us) :
      ExprSpelled e ws → FieldsSpelled rest us →
      FieldsSpelled ((name, e) :: rest)
        (.name name.name :: .symbol .colon :: ws ++ .symbol .comma :: us)

end

/-- The target of an assignment may be written with these words. -/
inductive TargetSpelled : TargetRoot → List Ident → List Word → Prop where
  | self (span) : TargetSpelled (.self span) [] [.keyword .selfKey]
  | name (id) : TargetSpelled (.name id) [] [.name id.name]
  | field (root path name ws) :
      TargetSpelled root path ws →
      TargetSpelled root (path ++ [name]) (ws ++ [.symbol .dot, .name name.name])
  | group (root path ws) :
      TargetSpelled root path ws →
      TargetSpelled root path (.symbol .lparen :: ws ++ [.symbol .rparen])

/-! ## Statements -/

mutual

/-- A statement may be written with these words. -/
inductive StmtSpelled : Stmt Unit → List Word → Prop where
  | block (b ws) : BlockSpelled b ws → StmtSpelled (.block b) ws
  | bind (span name mutable declared init ws) :
      ExprSpelled init ws →
      StmtSpelled (.bind span name mutable declared init ())
        (letHead mutable name declared ++ ws ++ [.symbol .semicolon])
  | assign (span) (target : AssignTarget) (op value ts ws) :
      TargetSpelled target.root target.path ts → ExprSpelled value ws →
      StmtSpelled (.assign span target op value) (ts ++ op.word :: ws ++ [.symbol .semicolon])
  | cond (c ws) : CondSpelled c ws → StmtSpelled (.cond c) ws
  | loop (span test body ws us) :
      ExprSpelled test ws → BlockSpelled body us →
      StmtSpelled (.loop span test body) (.keyword .whileKey :: ws ++ us)
  | leave (span) :
      StmtSpelled (.ret span none) [.keyword .returnKey, .symbol .semicolon]
  | ret (span e ws) :
      ExprSpelled e ws →
      StmtSpelled (.ret span (some e)) (.keyword .returnKey :: ws ++ [.symbol .semicolon])
  | eval (span e ws) :
      ExprSpelled e ws → StmtSpelled (.eval span e) (ws ++ [.symbol .semicolon])

/-- Statements may be written with these words. -/
inductive StmtsSpelled : List (Stmt Unit) → List Word → Prop where
  | nil : StmtsSpelled [] []
  | cons (st rest ws us) :
      StmtSpelled st ws → StmtsSpelled rest us → StmtsSpelled (st :: rest) (ws ++ us)

/-- A block may be written with these words. -/
inductive BlockSpelled : Block Unit → List Word → Prop where
  | mk (span body ws) :
      StmtsSpelled body ws →
      BlockSpelled (.mk span body) (.symbol .lbrace :: ws ++ [.symbol .rbrace])

/-- A conditional may be written with these words. -/
inductive CondSpelled : Cond Unit → List Word → Prop where
  | mk (span test consequent alternate ws us vs) :
      ExprSpelled test ws → BlockSpelled consequent us → ElseSpelled alternate vs →
      CondSpelled (.mk span test consequent alternate) (.keyword .ifKey :: ws ++ us ++ vs)

/-- What follows a consequent may be written with these words. -/
inductive ElseSpelled : Else Unit → List Word → Prop where
  | absent : ElseSpelled .absent []
  | block (b ws) : BlockSpelled b ws → ElseSpelled (.block b) (.keyword .elseKey :: ws)
  | cond (c ws) : CondSpelled c ws → ElseSpelled (.cond c) (.keyword .elseKey :: ws)

end

/-! ## Declarations -/

/-- An export annotation may be written with these words. -/
inductive MarkSpelled : Option ExportMark → List Word → Prop where
  | absent : MarkSpelled none []
  | plain (span) : MarkSpelled (some ⟨span, none⟩) [.symbol .atSign, .name "export"]
  | hint (span hspan name args ws) :
      ArgumentsSpelled args ws →
      MarkSpelled (some ⟨span, some ⟨hspan, name, args⟩⟩)
        (.symbol .atSign :: .name "export" :: .symbol .lparen :: .name name.name ::
          .symbol .lparen :: ws ++ [.symbol .rparen, .symbol .rparen])

/-- A declaration may be written with these words. -/
inductive DeclarationSpelled : Declaration Unit → List Word → Prop where
  | global (g : GlobalDecl) (ms ws) :
      MarkSpelled g.exported ms → ExprSpelled g.init ws →
      DeclarationSpelled (.global g)
        (ms ++ letHead g.mutable g.name g.declared ++ ws ++ [.symbol .semicolon])
  | function (f : FunctionDecl Unit) (ws) :
      BlockSpelled f.body ws →
      DeclarationSpelled (.function f)
        (.keyword .fnKey :: .name f.name.name :: .symbol .lparen :: paramWords f.params ++
          .symbol .rparen :: resultWords f.returns ++ ws)
  | signal (s : SignalDecl) :
      DeclarationSpelled (.signal s)
        (.keyword .signalKey :: .name s.name.name :: .symbol .lparen :: paramWords s.params ++
          [.symbol .rparen, .symbol .semicolon])

/-- Declarations may be written with these words; semicolons may stand between them. -/
inductive ProgramSpelled : List (Declaration Unit) → List Word → Prop where
  | nil : ProgramSpelled [] []
  | stray (ds ws) : ProgramSpelled ds ws → ProgramSpelled ds (.symbol .semicolon :: ws)
  | cons (d ds ws us) :
      DeclarationSpelled d ws → ProgramSpelled ds us → ProgramSpelled (d :: ds) (ws ++ us)

/-! ## Targets -/

/-- An expression that can be assigned to spells its target. Parentheses may stand anywhere in
    it, so the induction is on the number of words. -/
theorem ExprSpelled.target (n : Nat) : ∀ {e : Expr} {ws : List Word} {behind path : List Ident}
    {root : TargetRoot}, ws.length ≤ n → ExprSpelled e ws →
    Reader.targetParts e behind = some (root, path) →
    ∃ front, path = front ++ behind ∧ TargetSpelled root front ws := by
  induction n with
  | zero =>
      intro e ws behind path root hlen he
      cases he <;> simp at hlen
  | succ n ih =>
      intro e ws behind path root hlen he hparts
      cases he with
      | self span =>
          cases hparts
          exact ⟨[], rfl, .self span⟩
      | ident id =>
          cases hparts
          exact ⟨[], rfl, .name id⟩
      | field span object name ws hobj =>
          have hshort : ws.length ≤ n := by
            simp only [List.length_append, List.length_cons] at hlen
            omega
          obtain ⟨front, rfl, hfront⟩ := ih hshort hobj hparts
          exact ⟨front ++ [name], by simp, .field root front name ws hfront⟩
      | group e ws he =>
          have hshort : ws.length ≤ n := by
            simp only [List.cons_append, List.length_cons, List.length_append] at hlen
            omega
          obtain ⟨front, rfl, hfront⟩ := ih hshort he hparts
          exact ⟨front, rfl, .group root front ws hfront⟩
      | _ => cases hparts

/-! ## Rules -/

/-- Relations between trees and words that the rules of writing respect: what is written by the
    rules from related parts is related. Only integers below the largest magnitude are written by
    their digits alone. -/
structure SpellingRules where
  expr        : Expr → List Word → Prop
  args        : List Expr → List Word → Prop
  moreArgs    : List Expr → List Word → Prop
  fields      : List (Ident × Expr) → List Word → Prop
  stmt        : Stmt Unit → List Word → Prop
  stmts       : List (Stmt Unit) → List Word → Prop
  block       : Block Unit → List Word → Prop
  cond        : Cond Unit → List Word → Prop
  alternate   : Else Unit → List Word → Prop
  mark        : Option ExportMark → List Word → Prop
  decl        : Declaration Unit → List Word → Prop
  decls       : List (Declaration Unit) → List Word → Prop
  -- expressions
  int (span) (n : Nat) (lexeme) : n < maxIntMagnitude → expr (.int span n lexeme) [.int n lexeme]
  least (span lexeme) :
    expr (.int span (-(maxIntMagnitude : Int)) ("-" ++ lexeme))
      [.symbol .minus, .int maxIntMagnitude lexeme]
  float (span x lexeme) : expr (.float span x lexeme) [.float x lexeme]
  bool (span b) : expr (.bool span b) [boolWord b]
  string (span t) : expr (.string span t) [.string t]
  self (span) : expr (.self span) [.keyword .selfKey]
  ident (id) : expr (.ident id) [.name id.name]
  field (span object name ws) :
    expr object ws → expr (.field span object name) (ws ++ [.symbol .dot, .name name.name])
  call (span callee es ws) :
    args es ws →
    expr (.call span callee es) (.name callee.name :: .symbol .lparen :: ws ++ [.symbol .rparen])
  unary (span op arg ws) : expr arg ws → expr (.unary span op arg) (op.word :: ws)
  binary (span op left right ls rs) :
    expr left ls → expr right rs → expr (.binary span op left right) (ls ++ op.word :: rs)
  struct (span name fs ws) :
    fields fs ws →
    expr (.struct span name fs) (.name name.name :: .symbol .lbrace :: ws ++ [.symbol .rbrace])
  group (e ws) : expr e ws → expr e (.symbol .lparen :: ws ++ [.symbol .rparen])
  argsNil : args [] []
  argsCons (e es ws us) : expr e ws → moreArgs es us → args (e :: es) (ws ++ us)
  moreArgsNil : moreArgs [] []
  moreArgsCons (e es ws us) :
    expr e ws → moreArgs es us → moreArgs (e :: es) (.symbol .comma :: ws ++ us)
  fieldsNil : fields [] []
  fieldsLast (name e ws) :
    expr e ws → fields [(name, e)] (.name name.name :: .symbol .colon :: ws)
  fieldsCons (name e rest ws us) :
    expr e ws → fields rest us →
    fields ((name, e) :: rest) (.name name.name :: .symbol .colon :: ws ++ .symbol .comma :: us)
  -- statements
  blockStmt (b ws) : block b ws → stmt (.block b) ws
  bind (span name mutable declared init ws) :
    expr init ws →
    stmt (.bind span name mutable declared init ())
      (letHead mutable name declared ++ ws ++ [.symbol .semicolon])
  assign (span op e value root path ts ws) :
    expr e ts → Reader.targetParts e [] = some (root, path) → expr value ws →
    stmt (.assign span ⟨e.span, root, path⟩ op value) (ts ++ op.word :: ws ++ [.symbol .semicolon])
  condStmt (c ws) : cond c ws → stmt (.cond c) ws
  loop (span test body ws us) :
    expr test ws → block body us →
    stmt (.loop span test body) (.keyword .whileKey :: ws ++ us)
  leave (span) : stmt (.ret span none) [.keyword .returnKey, .symbol .semicolon]
  ret (span e ws) :
    expr e ws → stmt (.ret span (some e)) (.keyword .returnKey :: ws ++ [.symbol .semicolon])
  eval (span e ws) : expr e ws → stmt (.eval span e) (ws ++ [.symbol .semicolon])
  stmtsNil : stmts [] []
  stmtsCons (st rest ws us) : stmt st ws → stmts rest us → stmts (st :: rest) (ws ++ us)
  blockMk (span body ws) :
    stmts body ws → block (.mk span body) (.symbol .lbrace :: ws ++ [.symbol .rbrace])
  condMk (span test consequent alt ws us vs) :
    expr test ws → block consequent us → alternate alt vs →
    cond (.mk span test consequent alt) (.keyword .ifKey :: ws ++ us ++ vs)
  noElse : alternate .absent []
  elseBlock (b ws) : block b ws → alternate (.block b) (.keyword .elseKey :: ws)
  elseCond (c ws) : cond c ws → alternate (.cond c) (.keyword .elseKey :: ws)
  -- declarations
  unmarked : mark none []
  plainMark (span) : mark (some ⟨span, none⟩) [.symbol .atSign, .name "export"]
  hintMark (span hspan name es ws) :
    args es ws →
    mark (some ⟨span, some ⟨hspan, name, es⟩⟩)
      (.symbol .atSign :: .name "export" :: .symbol .lparen :: .name name.name ::
        .symbol .lparen :: ws ++ [.symbol .rparen, .symbol .rparen])
  global (g : GlobalDecl) (ms ws) :
    mark g.exported ms → expr g.init ws →
    decl (.global g)
      (ms ++ letHead g.mutable g.name g.declared ++ ws ++ [.symbol .semicolon])
  function (f : FunctionDecl Unit) (ws) :
    block f.body ws →
    decl (.function f)
      (.keyword .fnKey :: .name f.name.name :: .symbol .lparen :: paramWords f.params ++
        .symbol .rparen :: resultWords f.returns ++ ws)
  signal (s : SignalDecl) :
    decl (.signal s)
      (.keyword .signalKey :: .name s.name.name :: .symbol .lparen :: paramWords s.params ++
        [.symbol .rparen, .symbol .semicolon])
  declsNil : decls [] []
  declsStray (ds ws) : decls ds ws → decls ds (.symbol .semicolon :: ws)
  declsCons (d ds ws us) : decl d ws → decls ds us → decls (d :: ds) (ws ++ us)

/-- The spellings themselves respect the rules. -/
def SpellingRules.spelled : SpellingRules where
  expr         := ExprSpelled
  args         := ArgumentsSpelled
  moreArgs     := MoreArgumentsSpelled
  fields       := FieldsSpelled
  stmt         := StmtSpelled
  stmts        := StmtsSpelled
  block        := BlockSpelled
  cond         := CondSpelled
  alternate    := ElseSpelled
  mark         := MarkSpelled
  decl         := DeclarationSpelled
  decls        := ProgramSpelled
  int span n lexeme _ := .int span n lexeme
  least        := .least
  float        := .float
  bool         := .bool
  string       := .string
  self         := .self
  ident        := .ident
  field        := .field
  call         := .call
  unary        := .unary
  binary       := .binary
  struct       := .struct
  group        := .group
  argsNil      := .nil
  argsCons     := .cons
  moreArgsNil  := .nil
  moreArgsCons := .cons
  fieldsNil    := .nil
  fieldsLast   := .last
  fieldsCons   := .cons
  blockStmt    := .block
  bind         := .bind
  assign span op e value root path ts ws he hparts hvalue := by
    -- The words were read as an expression and are those of the target it was turned into.
    obtain ⟨front, hfront, htarget⟩ := he.target ts.length (Nat.le_refl _) hparts
    rw [List.append_nil] at hfront
    subst hfront
    exact .assign span ⟨e.span, root, path⟩ op value ts ws htarget hvalue
  condStmt     := .cond
  loop         := .loop
  leave        := .leave
  ret          := .ret
  eval         := .eval
  stmtsNil     := .nil
  stmtsCons    := .cons
  blockMk      := .mk
  condMk       := .mk
  noElse       := .absent
  elseBlock    := .block
  elseCond     := .cond
  unmarked     := .absent
  plainMark    := .plain
  hintMark     := .hint
  global       := .global
  function     := .function
  signal       := .signal
  declsNil     := .nil
  declsStray   := .stray
  declsCons    := .cons

end SceneScript
