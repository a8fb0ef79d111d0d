import SceneScript.Proofs.Text.Shown
import SceneScript.Proofs.Token.LineEnds

/-!
# Fixed spellings

A keyword and a symbol have one spelling each, and what is read as one of them is spelled so. The
other kinds leave a choice: a name is its spelling, a number may have zeros in front, and a string
may write a unit raw or as an escape.

* **`TokenKind.fixed?`** — the spelling of a keyword or a symbol.
* **`Token.IsPlain`** — a token that is spelled as its kind is, where that has one spelling.
* **`tokenize_plain`** — the tokens of a source are plain.
-/

namespace SceneScript

/-- The spelling of a symbol. -/
def Symbol.word : Symbol → String
  | .assign      => "="
  | .plusAssign  => "+="
  | .minusAssign => "-="
  | .starAssign  => "*="
  | .slashAssign => "/="
  | .eq          => "=="
  | .neq         => "!="
  | .lt          => "<"
  | .lte         => "<="
  | .gt          => ">"
  | .gte         => ">="
  | .plus        => "+"
  | .minus       => "-"
  | .star        => "*"
  | .slash       => "/"
  | .and         => "&&"
  | .or          => "||"
  | .not         => "!"
  | .arrow       => "->"
  | .lparen      => "("
  | .rparen      => ")"
  | .lbrace      => "\x7b"
  | .rbrace      => "\x7d"
  | .comma       => ","
  | .semicolon   => ";"
  | .colon       => ":"
  | .dot         => "."
  | .atSign      => "@"

/-- The spelling of all tokens of a kind, where it is fixed. -/
def TokenKind.fixed? : TokenKind → Option Text
  | .keyword k => some k.word
  | .symbol s  => some s.word
  | _          => none

/-- The token is spelled as its kind is, where that has one spelling. -/
def Token.IsPlain (t : Token) : Prop := ∀ lexeme, t.kind.fixed? = some lexeme → t.lexeme = lexeme

/-! ## Steps -/

theorem Symbol.ofPair?_word {c d : Char} {s : Symbol} (h : ofPair? c d = some s) :
    (Text.ofString s.word).units = [unitOf c, unitOf d] ∧ c.toNat < 0xD800 ∧ d.toNat < 0xD800 := by
  rw [ofPair?.eq_def] at h
  split at h <;> cases h <;> decide

theorem Symbol.ofChar?_word {c : Char} {s : Symbol} (h : ofChar? c = some s) :
    (Text.ofString s.word).units = [unitOf c] ∧ c.toNat < 0xD800 := by
  rw [ofChar?.eq_def] at h
  split at h <;> cases h <;> decide

/-- A step that reads a symbol reads the spelling of it. -/
theorem symbolStep_word {u : UInt16} {rest : List UInt16} {s : Symbol}
    (h : (symbolStep u rest).piece = .token (.symbol s)) :
    u :: rest.take (symbolStep u rest).extra = (Text.ofString s.word).units := by
  have alone : Symbol.ofChar? (charOfUnit u) = some s → [u] = (Text.ofString s.word).units := by
    intro hchar
    obtain ⟨hword, hu⟩ := Symbol.ofChar?_word hchar
    rw [hword, unitOf_charOfUnit hu]
  cases rest with
  | nil =>
      cases hchar : Symbol.ofChar? (charOfUnit u) with
      | none =>
          simp only [symbolStep, hchar] at h
          cases h
      | some s' =>
          simp only [symbolStep, hchar] at h ⊢
          cases h
          exact alone hchar
  | cons v rest =>
      cases hpair : Symbol.ofPair? (charOfUnit u) (charOfUnit v) with
      | some s' =>
          simp only [symbolStep, hpair] at h ⊢
          cases h
          obtain ⟨hword, hu, hv⟩ := Symbol.ofPair?_word hpair
          rw [hword, unitOf_charOfUnit hu, unitOf_charOfUnit hv]
          rfl
      | none =>
          cases hchar : Symbol.ofChar? (charOfUnit u) with
          | none =>
              simp only [symbolStep, hpair, hchar] at h
              cases h
          | some s' =>
              simp only [symbolStep, hpair, hchar] at h ⊢
              cases h
              exact alone hchar

/-- A step that reads a keyword reads the spelling of it. -/
theorem nameStep_word {u : UInt16} (hu : isNameStart u = true) {rest : List UInt16} {k : Keyword}
    (h : (nameStep (u :: rest)).piece = .token (.keyword k)) :
    u :: rest.take (nameStep (u :: rest)).extra = (Text.ofString k.word).units := by
  rw [nameStep_text hu]
  simp only [nameStep] at h
  split at h
  · next hfind =>
      cases h
      have hword := List.find?_some hfind
      rw [eq_of_beq hword]
  · cases h

theorem scan_fixed {u : UInt16} {rest : List UInt16} {kind : TokenKind}
    (h : (scan u rest).piece = .token kind) {lexeme : Text} (hkind : kind.fixed? = some lexeme) :
    u :: rest.take (scan u rest).extra = lexeme.units := by
  have hstep := scan_read_token h
  generalize scan u rest = step at h hstep ⊢
  cases hstep with
  | string =>
      obtain ⟨_, rfl⟩ := stringStep_token h
      cases hkind
  | number => obtain ⟨_, rfl⟩ | ⟨_, rfl⟩ := numberStep_token h <;> cases hkind
  | name hu =>
      obtain rfl | ⟨k, rfl⟩ := nameStep_token h
      · cases hkind
      · cases hkind
        exact nameStep_word hu h
  | symbol =>
      obtain ⟨s, rfl⟩ := symbolStep_token h
      cases hkind
      exact symbolStep_word h

/-- What a source spells as a keyword or a symbol is read as that. -/
theorem tokenize_plain {source : Text} {t : Token} (ht : t ∈ (tokenize source false).tokens) :
    t.IsPlain := fun lexeme hlexeme =>
  congrArg Text.mk (lexFrom_token
    (P := fun kind units => ∀ lexeme, kind.fixed? = some lexeme → units = lexeme.units)
    (fun _ _ _ hpiece _ hkind => scan_fixed hpiece hkind) source.units .origin t ht lexeme hlexeme)

end SceneScript
