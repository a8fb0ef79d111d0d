import SceneScript.Ast.Parser

/-!
# Words — what the tree keeps of a token

A tree remembers the spelling of names and numbers, the values of literals and the place of
every part. Of a token it keeps its word: the kind, with the lexeme of a name or a number and
the value of a literal. Keywords and symbols have one lexeme each. The lexeme of a string is
not kept, its value is.

* **`Token.word`** — the word of a token.
* **`BinaryOp.word`**, **`AssignOp.word`**, … — the words that parts of a tree are written with.
* **`letHead`**, **`paramWords`**, … — the parts of declarations that have one spelling.
-/

namespace SceneScript

/-- What the tree keeps of a token. -/
inductive Word where
  | name (lexeme : Text)
  | int (value : Nat) (lexeme : Text)
  | float (value : Binary64) (lexeme : Text)
  | string (value : Text)
  | keyword (k : Keyword)
  | symbol (s : Symbol)
deriving DecidableEq, Repr

/-- The word of a token. -/
def Token.word (t : Token) : Word :=
  match t.kind with
  | .identifier => .name t.lexeme
  | .int n      => .int n t.lexeme
  | .float x    => .float x t.lexeme
  | .string s   => .string s
  | .keyword k  => .keyword k
  | .symbol s   => .symbol s

/-- The words ahead of a cursor. -/
def Cursor.words (c : Cursor) : List Word := c.tokens.map Token.word

/-! ## Operators -/

/-- The symbol of a unary operator. -/
def UnaryOp.word : UnaryOp → Word
  | .neg => .symbol .minus
  | .not => .symbol .not

/-- The symbol of a binary operator. -/
def BinaryOp.word : BinaryOp → Word
  | .or  => .symbol .or
  | .and => .symbol .and
  | .eq  => .symbol .eq
  | .ne  => .symbol .neq
  | .lt  => .symbol .lt
  | .le  => .symbol .lte
  | .gt  => .symbol .gt
  | .ge  => .symbol .gte
  | .add => .symbol .plus
  | .sub => .symbol .minus
  | .mul => .symbol .star
  | .div => .symbol .slash

/-- The symbol of an assignment operator. -/
def AssignOp.word : AssignOp → Word
  | .set => .symbol .assign
  | .add => .symbol .plusAssign
  | .sub => .symbol .minusAssign
  | .mul => .symbol .starAssign
  | .div => .symbol .slashAssign

/-- The keyword of a truth value. -/
def boolWord (b : Bool) : Word := .keyword (if b then .trueKey else .falseKey)

/-! ## Parts with one spelling -/

/-- `: type`, where a type is written. -/
def annotationWords : Option TypeRef → List Word
  | none      => []
  | some type => [.symbol .colon, .name type.name]

/-- `let mut? name (: type)? =` -/
def letHead (mutable : Bool) (name : Ident) (declared : Option TypeRef) : List Word :=
  .keyword .letKey :: (if mutable then [.keyword .mutKey] else []) ++
    .name name.name :: annotationWords declared ++ [.symbol .assign]

/-- `name: type` -/
def Param.words (p : Param) : List Word :=
  [.name p.name.name, .symbol .colon, .name p.declared.name]

/-- Parameters with commas between them. -/
def paramWords : List Param → List Word
  | []           => []
  | [p]          => p.words
  | p :: q :: ps => p.words ++ .symbol .comma :: paramWords (q :: ps)

/-- `-> type`, where there is a result. -/
def resultWords : Option TypeRef → List Word
  | none      => []
  | some type => [.symbol .arrow, .name type.name]

/-! ## Words and kinds -/

/-- The kind of token that a word belongs to. -/
def Word.kind : Word → TokenKind
  | .name _    => .identifier
  | .int n _   => .int n
  | .float x _ => .float x
  | .string s  => .string s
  | .keyword k => .keyword k
  | .symbol s  => .symbol s

namespace Token

variable {t : Token} {w : Word} {lexeme : Text}

theorem word_of_identifier (h : t.kind = .identifier) : t.word = .name t.lexeme := by rw [word, h]

theorem word_of_symbol {s : Symbol} (h : t.kind = .symbol s) : t.word = .symbol s := by
  rw [word, h]

theorem word_of_keyword {k : Keyword} (h : t.kind = .keyword k) : t.word = .keyword k := by
  rw [word, h]

theorem word_kind (t : Token) : t.word.kind = t.kind := by
  rw [word]
  split <;> rename_i h <;> exact h.symm

theorem kind_of_word (h : t.word = w) : t.kind = w.kind := by rw [← word_kind, h]

theorem kind_of_string {s : Text} (h : t.word = .string s) : t.kind = .string s := kind_of_word h

theorem kind_of_symbol {s : Symbol} (h : t.word = .symbol s) : t.kind = .symbol s :=
  kind_of_word h

theorem kind_of_keyword {k : Keyword} (h : t.word = .keyword k) : t.kind = .keyword k :=
  kind_of_word h

theorem kind_of_name (h : t.word = .name lexeme) : t.kind = .identifier ∧ t.lexeme = lexeme := by
  have hk : t.kind = .identifier := kind_of_word h
  rw [word_of_identifier hk] at h
  exact ⟨hk, Word.name.inj h⟩

theorem kind_of_int {n : Nat} (h : t.word = .int n lexeme) :
    t.kind = .int n ∧ t.lexeme = lexeme := by
  have hk : t.kind = .int n := kind_of_word h
  have hw : t.word = .int n t.lexeme := by rw [word, hk]
  exact ⟨hk, (Word.int.inj (hw.symm.trans h)).2⟩

theorem kind_of_float {x : Binary64} (h : t.word = .float x lexeme) :
    t.kind = .float x ∧ t.lexeme = lexeme := by
  have hk : t.kind = .float x := kind_of_word h
  have hw : t.word = .float x t.lexeme := by rw [word, hk]
  exact ⟨hk, (Word.float.inj (hw.symm.trans h)).2⟩

end Token

end SceneScript
