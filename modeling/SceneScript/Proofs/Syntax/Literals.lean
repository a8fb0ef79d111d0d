import SceneScript.Proofs.Syntax.Parsed
import SceneScript.Proofs.Syntax.Parts
import SceneScript.Proofs.Token.Numbers

/-!
# The integers in a script

An integer literal of a program about which nothing is reported was written in one of two ways: as a
token of an integer below the largest magnitude, or as a minus in front of the token of the largest
magnitude. This is a relation that respects the rules of writing, so it holds of whole programs.

* **`IntFrom`** — the two ways; **`IntsFrom`** — all literals among some expressions.
* **`intRules`** — the rules of writing respect it.
* **`Text.Denotes`**, **`parseSource_int`** — the values of the literals of a whole script.
-/

namespace SceneScript

/-- The integer literal is written with some of these words. -/
inductive IntFrom (ws : List Word) : Int → Text → Prop where
  | number {n : Nat} {raw : Text} : .int n raw ∈ ws → n < maxIntMagnitude → IntFrom ws n raw
  | least {lexeme : Text} : .int maxIntMagnitude lexeme ∈ ws →
      IntFrom ws (-(maxIntMagnitude : Int)) ("-" ++ lexeme)

/-- All integer literals among the expressions are written with some of these words. -/
def IntsFrom (ws : List Word) (es : List Expr) : Prop :=
  ∀ span n raw, .int span n raw ∈ es → IntFrom ws n raw

namespace IntsFrom

variable {ws us : List Word} {es fs : List Expr} {e : Expr}

theorem nil : IntsFrom ws [] := fun _ _ _ h => absurd h List.not_mem_nil

/-- More words do no harm. -/
theorem mono (h : IntsFrom ws es)
    (hle : ∀ w ∈ ws, w ∈ us := by simp +contextual) : IntsFrom us es := by
  intro span n raw hmem
  cases h span n raw hmem with
  | number hw hn => exact .number (hle _ hw) hn
  | least hw => exact .least (hle _ hw)

theorem append (hes : IntsFrom ws es) (hfs : IntsFrom ws fs) : IntsFrom ws (es ++ fs) :=
  fun span n raw h => (List.mem_append.mp h).elim (hes span n raw) (hfs span n raw)

/-- An expression that is no literal adds none. -/
theorem node (he : ∀ span n raw, e ≠ .int span n raw) (h : IntsFrom ws es) :
    IntsFrom ws (e :: es) :=
  fun span n raw hmem => h span n raw ((List.mem_cons.mp hmem).resolve_left (he span n raw).symm)

/-- The literals of two parts are written with the words of both. -/
theorem both (hes : IntsFrom ws es) (hfs : IntsFrom us fs) {vs : List Word}
    (hws : ∀ w ∈ ws, w ∈ vs := by simp +contextual)
    (hus : ∀ w ∈ us, w ∈ vs := by simp +contextual) : IntsFrom vs (es ++ fs) :=
  (hes.mono hws).append (hfs.mono hus)

end IntsFrom

/-- Whatever is written by the rules, its integer literals are written with some of the words. -/
def intRules : SpellingRules where
  expr e ws       := IntsFrom ws e.parts
  args es ws      := IntsFrom ws (exprsParts es)
  moreArgs es ws  := IntsFrom ws (exprsParts es)
  fields fs ws    := IntsFrom ws (fieldsParts fs)
  stmt st ws      := IntsFrom ws st.parts
  stmts sts ws    := IntsFrom ws (stmtsParts sts)
  block b ws      := IntsFrom ws b.parts
  cond c ws       := IntsFrom ws c.parts
  alternate e ws  := IntsFrom ws e.parts
  mark m ws       := IntsFrom ws (markParts m)
  decl d ws       := IntsFrom ws d.parts
  decls ds ws     := IntsFrom ws (declsParts ds)
  -- The two ways to write a literal.
  int span n lexeme hn := by
    intro _ _ _ h
    cases List.mem_singleton.mp h
    exact .number List.mem_cons_self hn
  least span lexeme := by
    intro _ _ _ h
    cases List.mem_singleton.mp h
    exact .least (List.mem_cons_of_mem _ List.mem_cons_self)
  -- Everything else passes on what its parts are written with.
  float _ _ _ := .node nofun .nil
  bool _ _ := .node nofun .nil
  string _ _ := .node nofun .nil
  self _ := .node nofun .nil
  ident _ := .node nofun .nil
  field _ _ _ _ h := .node nofun h.mono
  call _ _ _ _ h := .node nofun h.mono
  unary _ _ _ _ h := .node nofun h.mono
  binary _ _ _ _ _ _ hl hr := .node nofun (hl.both hr)
  struct _ _ _ _ h := .node nofun h.mono
  group _ _ h := h.mono
  argsNil := .nil
  argsCons _ _ _ _ h hs := h.both hs
  moreArgsNil := .nil
  moreArgsCons _ _ _ _ h hs := h.both hs
  fieldsNil := .nil
  fieldsLast _ _ _ h := by rw [fieldsParts, fieldsParts, List.append_nil]; exact h.mono
  fieldsCons _ _ _ _ _ h hs := h.both hs
  blockStmt _ _ h := h
  bind _ _ _ _ _ _ h := h.mono
  assign _ _ _ _ _ _ _ _ _ _ h := h.mono
  condStmt _ _ h := h
  loop _ _ _ _ _ h hs := h.both hs
  leave _ := .nil
  ret _ _ _ h := h.mono
  eval _ _ _ h := h.mono
  stmtsNil := .nil
  stmtsCons _ _ _ _ h hs := h.both hs
  blockMk _ _ _ h := h.mono
  condMk _ _ _ _ ws us _ h hs hvs := by
    have hfront : IntsFrom (ws ++ us) _ := h.both hs
    exact hfront.both hvs (by simp +contextual [or_imp])
  noElse := .nil
  elseBlock _ _ h := h.mono
  elseCond _ _ h := h.mono
  unmarked := .nil
  plainMark _ := .nil
  hintMark _ _ _ _ _ h := h.mono
  global _ _ _ hm h := hm.both h
  function _ _ h := h.mono
  signal _ := .nil
  declsNil := .nil
  declsStray _ _ h := h.mono
  declsCons _ _ _ _ h hs := h.both hs

/-! ## Whole scripts -/

/-- The number that a text denotes in decimal digits, with a minus in front of them or without. -/
inductive Text.Denotes : Text → Int → Prop where
  | digits {ds : List UInt16} : ds ≠ [] → (∀ u ∈ ds, isDigitUnit u = true) →
      Denotes ⟨ds⟩ (digitsNumber ds)
  | negated {ds : List UInt16} : ds ≠ [] → (∀ u ∈ ds, isDigitUnit u = true) →
      Denotes ⟨unitOf '-' :: ds⟩ (-(digitsNumber ds : Int))

/-- A script about which nothing is reported has integer literals from its own tokens only. -/
theorem parseSource_intsFrom {source : Text} (h : (parseSource source).diagnostics = []) :
    IntsFrom ((tokenize source false).tokens.map Token.word)
      (parseSource source).program.parts := by
  rw [parseSource] at h ⊢
  split at h
  · next hempty =>
      rw [if_pos hempty]
      exact parseTokens_rules intRules h
  · next herrors =>
      rw [if_neg herrors]
      exact .nil

/-- The word of an integer belongs to a token that is spelled by digits of its value. -/
theorem tokenize_word_int {source : Text} {n : Nat} {raw : Text}
    (h : .int n raw ∈ (tokenize source false).tokens.map Token.word) : IntLexeme n raw.units := by
  obtain ⟨t, ht, hword⟩ := List.mem_map.mp h
  rw [Token.word] at hword
  split at hword <;> cases hword
  next hk => exact tokenize_int ht hk

/-- An integer literal of a script about which nothing is reported has the value that its spelling
    denotes, and fits in thirty-two bits. -/
theorem parseSource_int {source : Text} (h : (parseSource source).diagnostics = []) {span : Span}
    {n : Int} {raw : Text} (hmem : .int span n raw ∈ (parseSource source).program.parts) :
    raw.Denotes n ∧ -(maxIntMagnitude : Int) ≤ n ∧ n < maxIntMagnitude := by
  cases parseSource_intsFrom h span n raw hmem with
  | @number n raw hword hn =>
      have hlexeme := tokenize_word_int hword
      refine ⟨?_, by omega, by omega⟩
      rw [hlexeme.value]
      exact .digits hlexeme.nonempty hlexeme.digits
  | @least lexeme hword =>
      have hlexeme := tokenize_word_int hword
      refine ⟨?_, by omega, by decide⟩
      have hdenotes : (⟨unitOf '-' :: lexeme.units⟩ : Text).Denotes _ :=
        .negated hlexeme.nonempty hlexeme.digits
      rw [← hlexeme.value] at hdenotes
      exact hdenotes

end SceneScript
