import Mathlib.Data.List.Forall2
import SceneScript.Proofs.Syntax.Fuel
import SceneScript.Proofs.Token.Fixed
import SceneScript.Proofs.Token.Respacing

/-!
# What parsing a script gives

The statements about single reading functions come together here: a whole script is read to its
end, everything that is reported about it is an error of syntax, and a script about which
nothing is reported is a spelling of the program that was read.

* **`parseTokens_diagnostics`** — only errors of syntax are reported.
* **`parseTokens_rules`** — without a report, every relation that respects the rules of writing
  holds of the program and its words.
* **`Token.Writes`** — a token is one with which a word of a program is written.
* **`parseTokens_spelled`** — without a report, nothing was dropped, invented or reordered.
* **`parseTokens_forgets_lexemes`** — the lexemes of strings cannot be written back.
-/

namespace SceneScript

/-- Reading a script ends behind its last token, having moved forward only; without an error what
    was read and the words of the script are related in every way that the rules respect. -/
theorem declarations_ok (tokens : List Token) (finish : Position) :
    ∃ body d, Reader.declarations (parserFuel tokens.length) ⟨tokens, .origin, finish, []⟩ =
        .ok body d ∧ Cursor.Extends ⟨tokens, .origin, finish, []⟩ d ∧
      (d.errors = [] → ∀ R : SpellingRules, R.decls body (tokens.map Token.word)) := by
  have hends := Reader.ends_declarations (parserFuel tokens.length)
    (c := ⟨tokens, .origin, finish, []⟩) (by simp only [Cursor.left, parserFuel]; omega)
  have hreads := fun R =>
    Reader.reads_declarations R (parserFuel tokens.length) ⟨tokens, .origin, finish, []⟩
  cases hrun : Reader.declarations (parserFuel tokens.length) ⟨tokens, .origin, finish, []⟩ with
  | error stop d => exact ((ends_of_error hrun).mp hends).elim
  | ok body d =>
      have hempty := (ends_of_ok hrun).mp hends
      refine ⟨body, d, rfl, ((ends_of_ok hrun).mp (hreads .spelled)).1, fun herr R => ?_⟩
      obtain ⟨ws, hws, hrules⟩ := ((ends_of_ok hrun).mp (hreads R)).2 herr
      rw [show d.words = [] by rw [Cursor.words, hempty]; rfl, List.append_nil] at hws
      rw [show tokens.map Token.word = ws from hws]
      exact hrules

/-- Everything that is reported about the shape of a script is an error of syntax. -/
theorem parseTokens_diagnostics (tokens : List Token) (finish : Position) :
    ∀ d ∈ (parseTokens tokens finish).diagnostics,
      ∃ (e : SyntaxError) (span : Span), d = e.diagnostic span := by
  obtain ⟨body, c, hrun, hext, -⟩ := declarations_ok tokens finish
  obtain ⟨new, hnew⟩ := hext.errors
  intro d hd
  simp only [parseTokens, hrun, hnew] at hd
  obtain ⟨e, -, rfl⟩ := List.mem_map.mp hd
  exact ⟨e.1, e.2, rfl⟩

/-- A script about which nothing is reported and its program are related in every way that the
    rules of writing respect. -/
theorem parseTokens_rules (R : SpellingRules) {tokens : List Token} {finish : Position}
    (h : (parseTokens tokens finish).diagnostics = []) :
    R.decls (parseTokens tokens finish).program.body (tokens.map Token.word) := by
  obtain ⟨body, c, hrun, -, hrules⟩ := declarations_ok tokens finish
  have herr : c.errors = [] := by
    simpa only [parseTokens, hrun] using h
  have hbody : (parseTokens tokens finish).program.body = body := by
    simp only [parseTokens, hrun]
  rw [hbody]
  exact hrules herr R

/-! ## Writing a program back -/

/-- The lexeme that a word is written with. A program keeps the values of strings and not their
    lexemes. -/
def Word.lexeme? : Word → Option Text
  | .name lexeme    => some lexeme
  | .int _ lexeme   => some lexeme
  | .float _ lexeme => some lexeme
  | w               => w.kind.fixed?

/-- The word is written as this token: with its kind, which has the value of a literal, and with
    its lexeme. That a keyword or a symbol is spelled otherwise than its kind is nothing that a
    word could tell. -/
structure Token.Writes (t : Token) (w : Word) : Prop where
  kind   : t.kind = w.kind
  lexeme : t.IsPlain → ∀ lexeme, w.lexeme? = some lexeme → t.lexeme = lexeme

theorem Token.writes_word (t : Token) : t.Writes t.word where
  kind := t.word_kind.symm
  lexeme := by
    intro hplain lexeme hlexeme
    cases hkind : t.kind with
    | keyword k =>
        rw [word_of_keyword hkind] at hlexeme
        exact hplain lexeme (hkind ▸ hlexeme)
    | symbol s =>
        rw [word_of_symbol hkind] at hlexeme
        exact hplain lexeme (hkind ▸ hlexeme)
    | string s =>
        simp only [word, hkind] at hlexeme
        cases hlexeme
    | _ =>
        simp only [word, hkind] at hlexeme
        cases hlexeme
        rfl

/-- The parser drops, invents and reorders nothing. A program about which nothing is reported can
    be written back as the tokens that it was read from: word by word in source order, with a
    choice of groups, of the comma behind the last field and of stray semicolons only, each token
    has the kind and the value of its word, and its lexeme if the word has one. The tokens of a
    source are plain, so all lexemes but those of strings come back. -/
theorem parseTokens_spelled (tokens : List Token) (finish : Position)
    (h : (parseTokens tokens finish).diagnostics = []) :
    (∃ ws, ProgramSpelled (parseTokens tokens finish).program.body ws ∧
      List.Forall₂ Token.Writes tokens ws) ∧
    ∀ source, (tokenize source false).tokens = tokens → ∀ t ∈ tokens, t.IsPlain := by
  refine ⟨⟨tokens.map Token.word, parseTokens_rules .spelled h, ?_⟩, ?_⟩
  · exact List.forall₂_map_right_iff.mpr (List.forall₂_same.mpr fun t _ => t.writes_word)
  · rintro source rfl t ht
    exact tokenize_plain ht

/-- A script with a stray semicolon, a group and a comma behind the last field. -/
def looselySpelled : List Token :=
  (tokenize "; let v = Vector2 \x7b x: (1), y: -2, \x7d;" false).tokens

theorem parseTokens_spelled_loosely :
    (parseTokens looselySpelled .origin).diagnostics = [] ∧
      (parseTokens looselySpelled .origin).program.body.length = 1 ∧
      ∃ ws, ProgramSpelled (parseTokens looselySpelled .origin).program.body ws ∧
        List.Forall₂ Token.Writes looselySpelled ws :=
  ⟨by decide +kernel, by decide +kernel,
    (parseTokens_spelled looselySpelled .origin (by decide +kernel)).1⟩

/-! ## What is not kept -/

/-- The tokens of `let a = "…";`, where the string holds two tabs. -/
def twoTabs (head lexeme : Text) : List Token :=
  [⟨.keyword .letKey, head, ⟨⟨0, 0, 0⟩, ⟨3, 0, 3⟩⟩⟩,
   ⟨.identifier, "a", ⟨⟨4, 0, 4⟩, ⟨5, 0, 5⟩⟩⟩,
   ⟨.symbol .assign, "=", ⟨⟨6, 0, 6⟩, ⟨7, 0, 7⟩⟩⟩,
   ⟨.string "\t\t", lexeme, ⟨⟨8, 0, 8⟩, ⟨13, 0, 13⟩⟩⟩,
   ⟨.symbol .semicolon, ";", ⟨⟨13, 0, 13⟩, ⟨14, 0, 14⟩⟩⟩]

/-- Whether a token stays when groups, commas and semicolons are left out of account. -/
def Token.isFirm (t : Token) : Bool :=
  t.kind ∉ [.symbol .lparen, .symbol .rparen, .symbol .comma, .symbol .semicolon]

theorem parseTokens_twoTabs (head lexeme : Text) :
    (parseTokens (twoTabs head lexeme) .origin).diagnostics = [] ∧
      (parseTokens (twoTabs head lexeme) .origin).program =
        (parseTokens (twoTabs "let" "\"\t\t\"") .origin).program := by
  constructor <;> rfl

/-- A tab in a string may be written raw or as an escape, and two sources that differ in the order
    of one and the other have one program. So nothing writes the lexemes of all sources back from
    their programs, even if groups, commas and semicolons are left out of account. Among tokens
    that are not those of a source, a keyword may have any lexeme. -/
theorem parseTokens_forgets_lexemes :
    (¬∃ write : Program Unit → List (TokenKind × Text), ∀ (source : Text) (finish : Position),
      let tokens := (tokenize source false).tokens
      (parseTokens tokens finish).diagnostics = [] →
        (tokens.filter Token.isFirm).map Token.content =
          write (parseTokens tokens finish).program) ∧
    (parseTokens (twoTabs "const" "\"\t\\t\"") .origin).diagnostics = [] ∧
      (parseTokens (twoTabs "const" "\"\t\\t\"") .origin).program =
        (parseTokens (twoTabs "let" "\"\t\\t\"") .origin).program := by
  refine ⟨?_, (parseTokens_twoTabs _ _).1, ?_⟩
  · rintro ⟨write, hwrite⟩
    have hraw : (tokenize "let a = \"\t\\t\";" false).tokens = twoTabs "let" "\"\t\\t\"" := by
      decide +kernel
    have hescaped : (tokenize "let a = \"\\t\t\";" false).tokens = twoTabs "let" "\"\\t\t\"" := by
      decide +kernel
    have hleft := hwrite "let a = \"\t\\t\";" .origin
    have hright := hwrite "let a = \"\\t\t\";" .origin
    simp only [hraw, hescaped] at hleft hright
    have hboth := (hleft (parseTokens_twoTabs _ _).1).trans
      ((congrArg write ((parseTokens_twoTabs _ _).2.trans (parseTokens_twoTabs _ _).2.symm)).trans
        (hright (parseTokens_twoTabs _ _).1).symm)
    exact absurd hboth (by decide +kernel)
  · exact (parseTokens_twoTabs _ _).2.trans (parseTokens_twoTabs _ _).2.symm

end SceneScript
