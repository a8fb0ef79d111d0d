import SceneScript.Proofs.Syntax.Faithful
import SceneScript.Proofs.Syntax.Render

/-!
# Rendered expressions are read back

Reading the words of an expression gives the expression, whatever follows them, provided that
it cannot be taken for a part of it. Operators group to the left, so a left operand is not read
by a call of its own: it is what has been read when the next operator is met. The statements
below therefore say how reading goes on behind the words: if it goes on well from the
expression, then it goes well from the words.

Fuel is of no concern here. A step that runs out of it counts as well.

* **`Cursor.Faces`** — the words ahead of a cursor that has met no error.
* **`Reread`** — an expression is read back as an operand, behind unary operators, and as a
  part of a binary expression.
* **`Expr.reread`** — so is every expression that can be written.
-/

namespace SceneScript

/-! ## Words ahead -/

/-- The cursor has met no error, and these words are ahead. -/
structure Cursor.Faces (c : Cursor) (ws : List Word) : Prop where
  words  : c.words = ws
  errors : c.errors = []

namespace Cursor.Faces

variable {c : Cursor} {w : Word} {ws : List Word}

theorem token (h : c.Faces (w :: ws)) : ∃ t rest, c.tokens = t :: rest ∧ t.word = w := by
  have hwords : c.tokens.map Token.word = w :: ws := h.words
  obtain ⟨t, rest, ht, hw, -⟩ := List.map_eq_cons_iff.mp hwords
  exact ⟨t, rest, ht, hw⟩

theorem advance (h : c.Faces (w :: ws)) : c.advance.Faces ws := by
  obtain ⟨t, rest, ht, -⟩ := h.token
  have hwords := h.words
  rw [Reader.words_cons ht] at hwords
  exact ⟨(List.cons.inj hwords).2, c.advance_errors.trans h.errors⟩

theorem kindAt (h : c.Faces ws) (n : Nat) : c.kindAt n = (ws[n]?).map Word.kind := by
  rw [← h.words, Cursor.words, List.getElem?_map, Cursor.kindAt, Option.map_map]
  exact congrFun (congrArg Option.map (funext fun t => t.word_kind.symm)) _

theorem atSymbol (h : c.Faces ws) (s : Symbol) :
    c.atSymbol s = decide (ws.head? = some (.symbol s)) := by
  rw [Cursor.atSymbol, h.kindAt 0, Bool.eq_iff_iff, beq_iff_eq, decide_eq_true_iff]
  cases ws with
  | nil => simp
  | cons w ws => cases w <;> simp [Word.kind]

theorem atKeyword (h : c.Faces ws) (k : Keyword) :
    c.atKeyword k = decide (ws.head? = some (.keyword k)) := by
  rw [Cursor.atKeyword, h.kindAt 0, Bool.eq_iff_iff, beq_iff_eq, decide_eq_true_iff]
  cases ws with
  | nil => simp
  | cons w ws => cases w <;> simp [Word.kind]

end Cursor.Faces

/-! ## Steps over known words -/

/-- The step stops for want of fuel only. -/
def OnlyFuel : Stop → Cursor → Prop := fun stop _ => stop = .outOfFuel

namespace Reader

variable {α : Type} {c d : Cursor} {ws rest : List Word} {E : Stop → Cursor → Prop}

theorem ends_accept_here {s : Symbol} {Q : Bool → Cursor → Prop} (h : c.Faces (.symbol s :: ws))
    (hQ : Q true c.advance) : Ends (accept s) c Q E := by
  refine ends_accept.mpr ⟨fun _ => hQ, fun hs => ?_⟩
  rw [h.atSymbol s] at hs
  simp at hs

theorem ends_accept_not {s : Symbol} {Q : Bool → Cursor → Prop} (h : c.Faces ws)
    (hs : ws.head? ≠ some (.symbol s)) (hQ : Q false c) : Ends (accept s) c Q E := by
  refine ends_accept.mpr ⟨fun hs' => ?_, fun _ => hQ⟩
  rw [h.atSymbol s] at hs'
  exact absurd (of_decide_eq_true hs') hs

theorem ends_expectName_here {expected : Expected} {name : Text} {Q : Ident → Cursor → Prop}
    (h : c.Faces (.name name :: ws)) (hQ : ∀ span, Q ⟨name, span⟩ c.advance) :
    Ends (expectName expected) c Q E := by
  obtain ⟨t, rest, ht, hw⟩ := h.token
  obtain ⟨hk, rfl⟩ := Token.kind_of_name hw
  rw [expectName, ends_bind, ends_peek, ht, List.head?_cons]
  simp only [hk, if_true, ends_bind, ends_advance]
  exact hQ t.span

theorem ends_typeRef_here {name : Text} {Q : TypeRef → Cursor → Prop}
    (h : c.Faces (.name name :: ws)) (hQ : ∀ span, Q ⟨name, span⟩ c.advance) :
    Ends typeRef c Q E := by
  obtain ⟨t, rest, ht, hw⟩ := h.token
  obtain ⟨hk, rfl⟩ := Token.kind_of_name hw
  rw [typeRef, ends_bind, ends_peek, ht, List.head?_cons]
  simp only [hk, if_true, ends_bind, ends_advance]
  exact hQ t.span

theorem ends_expectMark_here {s : Symbol} {mark : Mark} {Q : Unit → Cursor → Prop}
    (h : c.Faces (.symbol s :: ws)) (hQ : Q () c.advance) : Ends (expectMark s mark) c Q E := by
  rw [expectMark, ends_bind]
  exact ends_accept_here h hQ

theorem ends_expectClose_here {s : Symbol} {enclosed : Enclosed} {Q : Unit → Cursor → Prop}
    (h : c.Faces (.symbol s :: ws)) (hQ : Q () c.advance) :
    Ends (expectClose s enclosed) c Q E := by
  rw [expectClose, ends_bind]
  exact ends_accept_here h hQ

theorem ends_expectSemicolon_here {ended : Ended} {Q : Unit → Cursor → Prop}
    (h : c.Faces (.symbol .semicolon :: ws)) (hQ : Q () c.advance) :
    Ends (expectSemicolon ended) c Q E := by
  rw [expectSemicolon, ends_bind]
  exact ends_accept_here h hQ

/-! ## Where an expression begins and ends -/

end Reader

/-- A word that begins an operand without unary operators. The number that only a minus may
    precede is not one of them. -/
def Word.beginsOperand : Word → Bool
  | .name _    => true
  | .int n _   => n != maxIntMagnitude
  | .float _ _ => true
  | .string _  => true
  | .keyword k => k == .trueKey || k == .falseKey || k == .selfKey
  | .symbol s  => s == .lparen

/-- A word that begins an expression. -/
def Word.beginsExpr (w : Word) : Bool :=
  w.beginsOperand || w == .symbol .minus || w == .symbol .not

/-- The words do not continue a name. -/
structure Apart (rest : List Word) : Prop where
  lparen : rest.head? ≠ some (.symbol .lparen)
  lbrace : rest.head? ≠ some (.symbol .lbrace)

/-- The words do not continue an operand. -/
structure Finished (rest : List Word) : Prop extends Apart rest where
  dot : rest.head? ≠ some (.symbol .dot)

/-- The words do not continue an operand, and no operator in front of them binds more strongly
    than a level. -/
structure StopsAt (level : Nat) (rest : List Word) : Prop extends Finished rest where
  operator : ∀ op : BinaryOp, rest.head? = some op.word → op.precedence ≤ level

theorem StopsAt.mono {m n : Nat} {rest : List Word} (h : StopsAt m rest) (hmn : m ≤ n) :
    StopsAt n rest := ⟨h.toFinished, fun op hop => Nat.le_trans (h.operator op hop) hmn⟩

theorem stopsAt_operator (op : BinaryOp) (rest : List Word) :
    StopsAt op.precedence (op.word :: rest) := by
  refine ⟨⟨⟨?_, ?_⟩, ?_⟩, fun op' h => ?_⟩
  · cases op <;> simp [BinaryOp.word]
  · cases op <;> simp [BinaryOp.word]
  · cases op <;> simp [BinaryOp.word]
  · cases op <;> cases op' <;> simp_all [BinaryOp.word]

/-- A mark behind an expression ends it at every level. -/
theorem stopsAt_mark {s : Symbol} (hs : s = .rparen ∨ s = .rbrace ∨ s = .comma ∨ s = .semicolon)
    (level : Nat) (rest : List Word) : StopsAt level (.symbol s :: rest) := by
  refine ⟨⟨⟨?_, ?_⟩, ?_⟩, fun op h => ?_⟩
  · rcases hs with rfl | rfl | rfl | rfl <;> simp
  · rcases hs with rfl | rfl | rfl | rfl <;> simp
  · rcases hs with rfl | rfl | rfl | rfl <;> simp
  · rcases hs with rfl | rfl | rfl | rfl <;> cases op <;> simp [BinaryOp.word] at h

theorem BinaryOp.precedence_le (op : BinaryOp) : op.precedence ≤ 6 := by cases op <;> decide

theorem BinaryOp.one_le_precedence (op : BinaryOp) : 1 ≤ op.precedence := by cases op <;> decide

theorem Expr.level_bounds (e : Expr) : 1 ≤ e.level ∧ e.level ≤ 8 := by
  cases e with
  | int span n raw =>
      rw [level]
      by_cases hn : n < 0 <;> simp [hn]
  | binary span op left right =>
      exact ⟨op.one_le_precedence, Nat.le_trans op.precedence_le (by decide)⟩
  | _ => exact ⟨by simp [level], by simp [level]⟩

theorem Expr.wordsAt_of_le {e : Expr} {m : Nat} (h : m ≤ e.level) : e.wordsAt m = e.words := by
  simp [wordsAt, inParensIf, Nat.not_lt.mpr h]

theorem Expr.wordsAt_of_lt {e : Expr} {m : Nat} (h : e.level < m) :
    e.wordsAt m = inParens e.words := by
  simp [wordsAt, inParensIf, h]

/-- Words in parentheses begin an operand, other words are as before. -/
theorem Expr.wordsAt_begin {e : Expr} {m : Nat}
    (h : ∃ w ws, e.words = w :: ws ∧ w.beginsExpr = true ∧ (e.level = 8 → w.beginsOperand = true)) :
    ∃ w ws, e.wordsAt m = w :: ws ∧ w.beginsExpr = true ∧ (m = 8 → w.beginsOperand = true) := by
  obtain ⟨w, ws, hwords, hexpr, hoperand⟩ := h
  by_cases hm : e.level < m
  · exact ⟨.symbol .lparen, _, wordsAt_of_lt hm, rfl, fun _ => rfl⟩
  · rw [wordsAt_of_le (Nat.not_lt.mp hm)]
    refine ⟨w, ws, hwords, hexpr, fun h8 => hoperand ?_⟩
    exact Nat.le_antisymm e.level_bounds.2 (h8 ▸ Nat.not_lt.mp hm)

theorem Expr.int_wellFormed {span : Span} {n : Int} {raw : Text}
    (h : (Expr.int span n raw).wellFormed = true) :
    (0 ≤ n ∧ n < maxIntMagnitude) ∨
      (n = -(maxIntMagnitude : Int) ∧ raw.units.head? = some (unitOf '-')) := by
  simpa [wellFormed] using h

/-- The first word of an expression. -/
theorem Expr.words_begin : ∀ e : Expr, e.wellFormed = true →
    ∃ w ws, e.words = w :: ws ∧ w.beginsExpr = true ∧ (e.level = 8 → w.beginsOperand = true)
  | .int _ n raw, h => by
      rw [words]
      by_cases hn : n < 0
      · exact ⟨_, _, if_pos hn, rfl, fun h8 => by simp [level, hn] at h8⟩
      · refine ⟨_, _, if_neg hn, ?_⟩
        -- Only the number that must stand behind a minus does not begin an expression.
        have hne : n.toNat ≠ maxIntMagnitude := by
          have hpos : 0 < maxIntMagnitude := by decide
          rcases int_wellFormed h with hrange | ⟨hleast, -⟩ <;> omega
        simp [Word.beginsExpr, Word.beginsOperand, hne]
  | .float _ _ _, _ => ⟨_, _, rfl, rfl, fun _ => rfl⟩
  | .bool _ b, _ => ⟨_, _, rfl, by cases b <;> rfl, fun _ => by cases b <;> rfl⟩
  | .string _ _, _ => ⟨_, _, rfl, rfl, fun _ => rfl⟩
  | .self _, _ => ⟨_, _, rfl, rfl, fun _ => rfl⟩
  | .ident _, _ => ⟨_, _, rfl, rfl, fun _ => rfl⟩
  | .call _ _ _, _ => ⟨_, _, rfl, rfl, fun _ => rfl⟩
  | .struct _ _ _, _ => ⟨_, _, rfl, rfl, fun _ => rfl⟩
  | .unary _ op _, _ =>
      ⟨_, _, rfl, by cases op <;> rfl, fun h8 => absurd h8 (by simp [level])⟩
  | .field _ object name, h => by
      obtain ⟨w, ws, hwords, hexpr, hoperand⟩ := wordsAt_begin (m := 8) (object.words_begin h)
      refine ⟨w, ws ++ [.symbol .dot, .name name.name], ?_, hexpr, fun _ => hoperand rfl⟩
      rw [words, ← wordsAt, hwords]
      rfl
  | .binary _ op left right, h => by
      rw [wellFormed, Bool.and_eq_true] at h
      obtain ⟨w, ws, hwords, hexpr, -⟩ := wordsAt_begin (m := op.precedence) (left.words_begin h.1)
      refine ⟨w, ws ++ op.word :: right.wordsAt (op.precedence + 1), ?_, hexpr, fun h8 => ?_⟩
      · rw [words, ← wordsAt, ← wordsAt, hwords]
        rfl
      · have hle := op.precedence_le
        rw [show op.precedence = 8 from h8] at hle
        exact absurd hle (by decide)

/-! ## Reading on behind an operand -/

namespace Reader

variable {c : Cursor} {rest : List Word} {Q : Expr → Cursor → Prop}

theorem binaryOp?_iff {t : Token} {op : BinaryOp} :
    binaryOp? (some t) = some op ↔ t.word = op.word := by
  constructor
  · intro h
    obtain ⟨u, hu, hw⟩ := binaryOp?_word h
    cases hu
    exact hw
  · intro h
    cases op <;> simp only [binaryOp?, Token.kind_of_symbol h]

theorem ends_fields_stop {e : Expr} (h : c.Faces rest) (hdot : rest.head? ≠ some (.symbol .dot))
    (hQ : Q e c) (fuel : Nat) : Ends (fields fuel e) c Q OnlyFuel := by
  cases fuel with
  | zero => exact rfl
  | succ fuel =>
      rw [fields, ends_bind]
      exact ends_accept_not h hdot hQ

theorem ends_fields_more {object : Expr} {name : Text}
    (h : c.Faces (.symbol .dot :: .name name :: rest))
    (hparen : rest.head? ≠ some (.symbol .lparen))
    (hx : ∀ fuel span span',
      Ends (fields fuel (.field span object ⟨name, span'⟩)) c.advance.advance Q OnlyFuel)
    (fuel : Nat) : Ends (fields fuel object) c Q OnlyFuel := by
  cases fuel with
  | zero => exact rfl
  | succ fuel =>
      rw [fields, ends_bind]
      refine ends_accept_here h ?_
      simp only [Bool.not_true, Bool.false_eq_true, if_false, ends_bind]
      refine ends_expectName_here h.advance fun span => ?_
      rw [ends_atSymbol, h.advance.advance.atSymbol .lparen, decide_eq_false hparen]
      exact hx fuel _ span

theorem ends_binaryRest_stop {e : Expr} {level : Nat} (h : c.Faces rest)
    (hop : ∀ op : BinaryOp, rest.head? = some op.word → op.precedence < level) (hQ : Q e c)
    (fuel : Nat) : Ends (binaryRest fuel level e) c Q OnlyFuel := by
  cases fuel with
  | zero => exact rfl
  | succ fuel =>
      rw [binaryRest, ends_bind, ends_peek]
      cases hnext : binaryOp? c.tokens.head? with
      | none => exact hQ
      | some op =>
          obtain ⟨t, ht, hw⟩ := binaryOp?_word hnext
          have hhead : rest.head? = some op.word := by
            rw [← h.words, Cursor.words, List.head?_map, ht, Option.map_some, hw]
          simp only [hop op hhead, if_true]
          exact hQ

/-- An operator that binds strongly enough is read with its right operand. -/
theorem ends_binaryRest_more {left : Expr} {op : BinaryOp} {level : Nat}
    (h : c.Faces (op.word :: rest)) (hle : level ≤ op.precedence)
    (hx : ∀ fuel, Ends (binary fuel (op.precedence + 1)) c.advance
      (fun right d => ∀ fuel span,
        Ends (binaryRest fuel level (.binary span op left right)) d Q OnlyFuel) OnlyFuel)
    (fuel : Nat) : Ends (binaryRest fuel level left) c Q OnlyFuel := by
  cases fuel with
  | zero => exact rfl
  | succ fuel =>
      obtain ⟨t, ts, ht, hw⟩ := h.token
      rw [binaryRest, ends_bind, ends_peek, ht, List.head?_cons, binaryOp?_iff.mpr hw]
      simp only [Nat.not_lt.mpr hle, if_false, ends_bind, ends_advance]
      exact Ends.mono (hx fuel) (fun right d hd => hd fuel _) fun _ _ he => he

/-- Before a word that begins an operand no unary operator is read. -/
theorem ends_unary_operand {w : Word} (h : c.Faces (w :: rest)) (hw : w.beginsOperand = true)
    (hx : ∀ fuel, Ends (primary fuel >>= fields fuel) c Q OnlyFuel) (fuel : Nat) :
    Ends (unary fuel) c Q OnlyFuel := by
  cases fuel with
  | zero => exact rfl
  | succ fuel =>
      obtain ⟨t, ts, ht, rfl⟩ := h.token
      have hnone : unaryOp? c.tokens.head? = none := by
        cases hop : unaryOp? c.tokens.head? with
        | none => rfl
        | some op =>
            obtain ⟨u, hu, hword⟩ := unaryOp?_word hop
            rw [ht] at hu
            cases hu
            rw [hword] at hw
            cases op <;> cases hw
      -- The least integer begins with a minus too.
      have hleast : ¬AtLeast c := by
        rintro ⟨minus, number, ts', hts, hm, -⟩
        rw [hts] at ht
        cases ht
        rw [Token.word_of_symbol hm] at hw
        cases hw
      refine (ends_congr (unary_plain hleast)).mpr ?_
      rw [unaryPlain, hnone]
      exact hx fuel

end Reader

/-! ## Reading back -/

/-- The expression is read back: as an operand in front of field accesses, as an operand, and
    as a part of a binary expression. Whatever goes well from there goes well from its words. -/
structure Reread (e : Expr) : Prop where
  operand : ∀ {c : Cursor} {rest : List Word} {Q : Expr → Cursor → Prop}, Apart rest →
    c.Faces (e.wordsAt 8 ++ rest) →
    (∀ fuel e' d, e'.bare = e.bare → d.Faces rest → Ends (Reader.fields fuel e') d Q OnlyFuel) →
    ∀ fuel, Ends (Reader.primary fuel >>= Reader.fields fuel) c Q OnlyFuel
  unary : ∀ {c : Cursor} {rest : List Word} {Q : Expr → Cursor → Prop}, Finished rest →
    c.Faces (e.wordsAt 7 ++ rest) → (∀ e' d, e'.bare = e.bare → d.Faces rest → Q e' d) →
    ∀ fuel, Ends (Reader.unary fuel) c Q OnlyFuel
  binary : ∀ {c : Cursor} {rest : List Word} {Q : Expr → Cursor → Prop} {level m : Nat},
    level ≤ m → m ≤ 7 → StopsAt m rest → c.Faces (e.wordsAt m ++ rest) →
    (∀ fuel e' d, e'.bare = e.bare → d.Faces rest →
      Ends (Reader.binaryRest fuel level e') d Q OnlyFuel) →
    ∀ fuel, Ends (Reader.binary fuel level) c Q OnlyFuel

namespace Reread

variable {c : Cursor} {rest : List Word} {e : Expr}

/-- An operand that is read is the beginning of a binary expression. -/
theorem ends_binary_of_unary {Q : Expr → Cursor → Prop} {level : Nat}
    (hx : ∀ fuel, Ends (Reader.unary fuel) c
      (fun e' d => ∀ fuel, Ends (Reader.binaryRest fuel level e') d Q OnlyFuel) OnlyFuel)
    (fuel : Nat) : Ends (Reader.binary fuel level) c Q OnlyFuel := by
  cases fuel with
  | zero => exact rfl
  | succ fuel =>
      rw [Reader.binary, ends_bind]
      exact Ends.mono (hx fuel) (fun _ _ h => h fuel) fun _ _ he => he

/-- Reading the words of an expression, without parentheses around them, as a part of a binary
    expression. -/
def Plain (e : Expr) : Prop :=
  ∀ {c : Cursor} {rest : List Word} {Q : Expr → Cursor → Prop} {level m : Nat},
    level ≤ m → m ≤ e.level → m ≤ 7 → StopsAt m rest → c.Faces (e.words ++ rest) →
    (∀ fuel e' d, e'.bare = e.bare → d.Faces rest →
      Ends (Reader.binaryRest fuel level e') d Q OnlyFuel) →
    ∀ fuel, Ends (Reader.binary fuel level) c Q OnlyFuel

/-- Words between parentheses are read on their own. -/
theorem Plain.group (h : Plain e) {Q : Expr → Cursor → Prop}
    (hc : c.Faces (inParens e.words ++ rest)) (hQ : ∀ e' d, e'.bare = e.bare → d.Faces rest → Q e' d)
    (fuel : Nat) : Ends (Reader.primary fuel) c Q OnlyFuel := by
  cases fuel with
  | zero => exact rfl
  | succ fuel =>
      have hc' : c.Faces (.symbol .lparen :: (e.words ++ .symbol .rparen :: rest)) := by
        simpa [inParens] using hc
      obtain ⟨t, ts, ht, hw⟩ := hc'.token
      rw [Reader.primary, ends_bind, ends_get, ht]
      simp only [Token.kind_of_symbol hw, ends_bind, Reader.ends_advance]
      refine h (Nat.le_refl 1) e.level_bounds.1 (by decide) (stopsAt_mark (.inl rfl) 1 rest)
        hc'.advance (fun fuel e' d he hd => ?_) fuel
      refine Reader.ends_binaryRest_stop hd (fun op hop => ?_) ?_ fuel
      · cases op <;> simp [BinaryOp.word] at hop
      · refine Reader.ends_expectClose_here hd ?_
        exact hQ e' d.advance he hd.advance

theorem Plain.group_operand (h : Plain e) {Q : Expr → Cursor → Prop}
    (hc : c.Faces (inParens e.words ++ rest))
    (hx : ∀ fuel e' d, e'.bare = e.bare → d.Faces rest → Ends (Reader.fields fuel e') d Q OnlyFuel)
    (fuel : Nat) : Ends (Reader.primary fuel >>= Reader.fields fuel) c Q OnlyFuel :=
  ends_bind.mpr (h.group hc (fun e' d he hd => hx fuel e' d he hd) fuel)

theorem Plain.group_unary (h : Plain e) {Q : Expr → Cursor → Prop}
    (hdot : rest.head? ≠ some (.symbol .dot)) (hc : c.Faces (inParens e.words ++ rest))
    (hQ : ∀ e' d, e'.bare = e.bare → d.Faces rest → Q e' d) (fuel : Nat) :
    Ends (Reader.unary fuel) c Q OnlyFuel := by
  refine Reader.ends_unary_operand (w := .symbol .lparen) hc rfl (h.group_operand hc ?_) fuel
  exact fun fuel e' d he hd => Reader.ends_fields_stop hd hdot (hQ e' d he hd) fuel

theorem Plain.group_binary (h : Plain e) {Q : Expr → Cursor → Prop} {level : Nat}
    (hdot : rest.head? ≠ some (.symbol .dot)) (hc : c.Faces (inParens e.words ++ rest))
    (hx : ∀ fuel e' d, e'.bare = e.bare → d.Faces rest →
      Ends (Reader.binaryRest fuel level e') d Q OnlyFuel) (fuel : Nat) :
    Ends (Reader.binary fuel level) c Q OnlyFuel :=
  ends_binary_of_unary (h.group_unary hdot hc fun e' d he hd fuel => hx fuel e' d he hd) fuel

/-- A binary expression stands in parentheses where an operand is asked for. -/
theorem of_plain (hlevel : e.level < 7) (h : Plain e) : Reread e where
  operand := by
    intro c rest Q _ hc hx
    rw [Expr.wordsAt_of_lt (by omega)] at hc
    exact h.group_operand hc hx
  unary := by
    intro c rest Q hrest hc hQ
    rw [Expr.wordsAt_of_lt hlevel] at hc
    exact h.group_unary hrest.dot hc hQ
  binary := by
    intro c rest Q level m hlm hm hrest hc hx
    by_cases hem : e.level < m
    · rw [Expr.wordsAt_of_lt hem] at hc
      exact h.group_binary hrest.dot hc hx
    · rw [Expr.wordsAt_of_le (Nat.not_lt.mp hem)] at hc
      exact h hlm (Nat.not_lt.mp hem) hm hrest hc hx

/-- An expression that begins with its operator needs parentheses in front of a dot only. -/
theorem of_unary (hlevel : e.level = 7)
    (h : ∀ {c : Cursor} {rest : List Word} {Q : Expr → Cursor → Prop}, Finished rest →
      c.Faces (e.words ++ rest) → (∀ e' d, e'.bare = e.bare → d.Faces rest → Q e' d) →
      ∀ fuel, Ends (Reader.unary fuel) c Q OnlyFuel) : Reread e := by
  have hplain : Plain e := by
    intro c rest Q level m hlm hme hm hrest hc hx
    exact ends_binary_of_unary (h hrest.toFinished hc fun e' d he hd fuel => hx fuel e' d he hd)
  refine ⟨?_, ?_, ?_⟩
  · intro c rest Q _ hc hx
    rw [Expr.wordsAt_of_lt (by omega)] at hc
    exact hplain.group_operand hc hx
  · intro c rest Q hrest hc hQ
    rw [Expr.wordsAt_of_le (by omega)] at hc
    exact h hrest hc hQ
  · intro c rest Q level m hlm hm hrest hc hx
    rw [Expr.wordsAt_of_le (by omega)] at hc
    exact hplain hlm (by omega) hm hrest hc hx

/-- A primary expression never needs parentheses. -/
theorem of_operand (hlevel : e.level = 8)
    (hbegin : ∃ w ws, e.words = w :: ws ∧ w.beginsOperand = true)
    (h : ∀ {c : Cursor} {rest : List Word} {Q : Expr → Cursor → Prop}, Apart rest →
      c.Faces (e.words ++ rest) →
      (∀ fuel e' d, e'.bare = e.bare → d.Faces rest → Ends (Reader.fields fuel e') d Q OnlyFuel) →
      ∀ fuel, Ends (Reader.primary fuel >>= Reader.fields fuel) c Q OnlyFuel) : Reread e := by
  have hwords : ∀ {m}, m ≤ 8 → e.wordsAt m = e.words := fun hm =>
    Expr.wordsAt_of_le (hlevel ▸ hm)
  -- Each way of being read goes through the one before it, and none adds parentheses.
  have hunary : ∀ {c : Cursor} {rest : List Word} {Q : Expr → Cursor → Prop}, Finished rest →
      c.Faces (e.words ++ rest) → (∀ e' d, e'.bare = e.bare → d.Faces rest → Q e' d) →
      ∀ fuel, Ends (Reader.unary fuel) c Q OnlyFuel := by
    intro c rest Q hrest hc hQ
    obtain ⟨w, ws, hw, hoperand⟩ := hbegin
    have hc' := hc
    rw [hw] at hc'
    refine Reader.ends_unary_operand hc' hoperand (h hrest.toApart hc ?_)
    exact fun fuel e' d he hd => Reader.ends_fields_stop hd hrest.dot (hQ e' d he hd) fuel
  refine ⟨?_, ?_, ?_⟩
  · intro c rest Q hrest hc hx
    rw [hwords (by decide)] at hc
    exact h hrest hc hx
  · intro c rest Q hrest hc hQ
    rw [hwords (by decide)] at hc
    exact hunary hrest hc hQ
  · intro c rest Q level m hlm hm hrest hc hx
    rw [hwords (by omega)] at hc
    exact ends_binary_of_unary
      (hunary hrest.toFinished hc fun e' d he hd fuel => hx fuel e' d he hd)

theorem plain (h : Reread e) : Plain e := by
  intro c rest Q level m hlm hme hm hrest hc hx
  rw [← Expr.wordsAt_of_le hme] at hc
  exact h.binary hlm hm hrest hc hx

/-- A whole expression, in front of words that no expression goes on with. -/
theorem whole (h : Reread e) {Q : Expr → Cursor → Prop} (hrest : StopsAt 0 rest)
    (hc : c.Faces (e.words ++ rest)) (hQ : ∀ e' d, e'.bare = e.bare → d.Faces rest → Q e' d)
    (fuel : Nat) : Ends (Reader.binary fuel 1) c Q OnlyFuel := by
  refine h.plain (Nat.le_refl 1) e.level_bounds.1 (by decide) (hrest.mono (Nat.zero_le 1)) hc ?_ fuel
  intro fuel e' d he hd
  refine Reader.ends_binaryRest_stop hd (fun op hop => ?_) (hQ e' d he hd) fuel
  exact Nat.lt_succ_of_le (hrest.operator op hop)

/-! ## Literals and names -/

/-- An expression of a single word, which reading takes at once. -/
theorem of_word {w : Word} (hlevel : e.level = 8) (hwords : e.words = [w])
    (hw : w.beginsOperand = true)
    (h : ∀ {c : Cursor} {rest : List Word}, Apart rest → c.Faces (w :: rest) → ∀ fuel,
      Ends (Reader.primary (fuel + 1)) c (fun e' d => e'.bare = e.bare ∧ d = c.advance) OnlyFuel) :
    Reread e := by
  refine of_operand hlevel ⟨w, [], hwords, hw⟩ ?_
  intro c rest Q hrest hc hx fuel
  rw [hwords] at hc
  rw [ends_bind]
  cases fuel with
  | zero => exact rfl
  | succ fuel =>
      refine Ends.mono (h hrest hc fuel) ?_ fun _ _ he => he
      rintro e' d ⟨he, rfl⟩
      exact hx _ e' _ he hc.advance

theorem int {span : Span} {n : Nat} {raw : Text} (hn : n < maxIntMagnitude) :
    Reread (.int span n raw) := by
  have hneg : ¬(n : Int) < 0 := by omega
  refine of_word (w := .int n raw) (by simp [Expr.level, hneg]) (by simp [Expr.words, hneg]) ?_ ?_
  · simpa [Word.beginsOperand] using Nat.ne_of_lt hn
  · intro c rest _ hc fuel
    obtain ⟨t, ts, ht, hw⟩ := hc.token
    obtain ⟨hk, rfl⟩ := Token.kind_of_int hw
    rw [Reader.primary, ends_bind, ends_get, ht]
    simp only [hk, Nat.not_le.mpr hn, if_false]
    exact And.intro rfl rfl

theorem float (span : Span) (x : Binary64) (raw : Text) : Reread (.float span x raw) := by
  refine of_word (w := .float x raw) rfl rfl rfl ?_
  intro c rest _ hc fuel
  obtain ⟨t, ts, ht, hw⟩ := hc.token
  obtain ⟨hk, rfl⟩ := Token.kind_of_float hw
  rw [Reader.primary, ends_bind, ends_get, ht]
  simp only [hk]
  exact And.intro rfl rfl

theorem string (span : Span) (t : Text) : Reread (.string span t) := by
  refine of_word (w := .string t) rfl rfl rfl ?_
  intro c rest _ hc fuel
  obtain ⟨t, ts, ht, hw⟩ := hc.token
  rw [Reader.primary, ends_bind, ends_get, ht]
  simp only [Token.kind_of_string hw]
  exact And.intro rfl rfl

theorem bool (span : Span) (b : Bool) : Reread (.bool span b) := by
  refine of_word (w := boolWord b) rfl rfl (by cases b <;> rfl) ?_
  intro c rest _ hc fuel
  obtain ⟨t, ts, ht, hw⟩ := hc.token
  rw [Reader.primary, ends_bind, ends_get, ht]
  simp only [Token.kind_of_keyword hw]
  cases b with
  | true => exact And.intro rfl rfl
  | false => exact And.intro rfl rfl

theorem self (span : Span) : Reread (.self span) := by
  refine of_word (w := .keyword .selfKey) rfl rfl rfl ?_
  intro c rest _ hc fuel
  obtain ⟨t, ts, ht, hw⟩ := hc.token
  rw [Reader.primary, ends_bind, ends_get, ht]
  simp only [Token.kind_of_keyword hw]
  exact And.intro rfl rfl

end Reread

/-- The kind of the word behind the next one. -/
theorem Cursor.Faces.kindAt_one_ne {c : Cursor} {w : Word} {rest : List Word} {s : Symbol}
    (h : c.Faces (w :: rest)) (hs : rest.head? ≠ some (.symbol s)) :
    (c.kindAt 1 == some (.symbol s)) = false := by
  rw [h.kindAt 1, beq_eq_false_iff_ne]
  cases rest with
  | nil => simp
  | cons v rest =>
      intro hv
      cases v <;> simp [Word.kind] at hv
      exact hs (by rw [hv]; rfl)

namespace Reread

variable {c : Cursor} {rest : List Word} {e : Expr}

theorem ident (id : Ident) : Reread (.ident id) := by
  refine of_word (w := .name id.name) rfl rfl rfl ?_
  intro c rest hrest hc fuel
  obtain ⟨t, ts, ht, hw⟩ := hc.token
  obtain ⟨hk, hlex⟩ := Token.kind_of_name hw
  have hparen := hc.kindAt_one_ne hrest.lparen
  have hstruct : Reader.looksLikeStruct c t.lexeme = false := by
    rw [Reader.looksLikeStruct, hc.kindAt_one_ne hrest.lbrace, Bool.and_false, Bool.false_and]
  rw [Reader.primary, ends_bind, ends_get, ht]
  simp only [hk, hparen, hstruct, Bool.false_eq_true, if_false]
  refine And.intro ?_ rfl
  rw [Expr.bare, Expr.bare, Ident.bare, Ident.bare, hlex]

/-! ## Operators and fields -/

/-- The least integer is read from two words. -/
theorem least {span : Span} {raw : Text} (hraw : raw.units.head? = some (unitOf '-')) :
    Reread (.int span (-(maxIntMagnitude : Int)) raw) := by
  have hneg : -(maxIntMagnitude : Int) < 0 := by decide
  refine of_unary (by rw [Expr.level, if_pos hneg]) ?_
  intro c rest Q _ hc hQ fuel
  rw [Expr.words, if_pos hneg] at hc
  cases fuel with
  | zero => exact rfl
  | succ fuel =>
      obtain ⟨minus, ts, hts, hm⟩ := hc.token
      obtain ⟨number, us, hus, hn⟩ := hc.advance.token
      rw [Cursor.advance_tokens hts] at hus
      rw [hus] at hts
      obtain ⟨hkind, hlex⟩ := Token.kind_of_int hn
      rw [ends_of_ok (Reader.unary_least hts (Token.kind_of_symbol hm) hkind)]
      refine hQ _ _ ?_ hc.advance.advance
      have hminus : ("-" : Text) ++ number.lexeme = raw := by
        obtain ⟨units⟩ := raw
        cases units with
        | nil => cases hraw
        | cons u us =>
            cases hraw
            rw [hlex]
            rfl
      rw [Expr.bare, Expr.bare, hminus]

theorem unaryOp?_of_word {t : Token} {op : UnaryOp} (h : t.word = op.word) :
    Reader.unaryOp? (some t) = some op := by
  cases op <;> simp only [Reader.unaryOp?, Token.kind_of_symbol h]

/-- A unary operator in front of an operand. -/
theorem unaryExpr {span : Span} {op : UnaryOp} {arg : Expr} (h : Reread arg)
    (hbegin : ∃ w ws, arg.wordsAt 7 = w :: ws ∧ w.beginsExpr = true) :
    Reread (.unary span op arg) := by
  refine of_unary rfl ?_
  intro c rest Q hrest hc hQ fuel
  rw [Expr.words, ← Expr.wordsAt, List.cons_append] at hc
  cases fuel with
  | zero => exact rfl
  | succ fuel =>
      obtain ⟨t, ts, ht, hw⟩ := hc.token
      -- The operand does not begin with the number that would make the minus a part of it.
      have hleast : ¬Reader.AtLeast c := by
        rintro ⟨minus, number, us, hts, -, hn⟩
        obtain ⟨w, ws, hws, hexpr⟩ := hbegin
        have hnext := hc.advance.words
        rw [Cursor.words, Cursor.advance_tokens hts, hws] at hnext
        have hword : number.word = w := (List.cons.inj hnext).1
        rw [← hword, Token.word, hn] at hexpr
        exact absurd hexpr (by simp [Word.beginsExpr, Word.beginsOperand])
      refine (ends_congr (Reader.unary_plain hleast)).mpr ?_
      rw [Reader.unaryPlain, ht, List.head?_cons, unaryOp?_of_word hw]
      simp only [ends_bind, Reader.ends_advance, ends_pure]
      refine h.unary hrest hc.advance (fun e' d he hd => hQ _ _ ?_ hd) fuel
      rw [Expr.bare, Expr.bare, he]

/-- A binary expression: its left operand is what has been read when the operator is met. -/
theorem binaryExpr {span : Span} {op : BinaryOp} {left right : Expr} (hl : Reread left)
    (hr : Reread right) : Reread (.binary span op left right) := by
  have hprec := op.precedence_le
  refine of_plain (Nat.lt_succ_of_le hprec) ?_
  intro c rest Q level m hlm hme hm hrest hc hx
  have hop : m ≤ op.precedence := hme
  rw [Expr.words, ← Expr.wordsAt, ← Expr.wordsAt, List.append_assoc, List.cons_append] at hc
  -- The left operand is read by the same loop, which then meets the operator.
  refine hl.binary (Nat.le_trans hlm hop) (by omega) (stopsAt_operator op _) hc ?_
  intro fuel l d hleft hd
  refine Reader.ends_binaryRest_more hd (Nat.le_trans hlm hop) ?_ fuel
  refine hr.binary (Nat.le_refl _) (by omega) (hrest.mono (by omega)) hd.advance ?_
  intro fuel r d' hright hd'
  refine Reader.ends_binaryRest_stop hd' (fun op' hop' => ?_) ?_ fuel
  -- The right operand ends before any operator that binds no tighter than this one.
  · have hle := hrest.operator op' hop'
    omega
  · intro fuel span'
    exact hx fuel _ d' (by rw [Expr.bare, Expr.bare, hleft, hright]) hd'

theorem field {span : Span} {object : Expr} {name : Ident} (h : Reread object)
    (hbegin : ∃ w ws, (Expr.field span object name).words = w :: ws ∧ w.beginsOperand = true) :
    Reread (.field span object name) := by
  refine of_operand rfl hbegin ?_
  intro c rest Q hrest hc hx
  rw [Expr.words, ← Expr.wordsAt, List.append_assoc] at hc
  refine h.operand ⟨by simp, by simp⟩ hc ?_
  intro fuel o d ho hd
  refine Reader.ends_fields_more hd hrest.lparen (fun fuel span' nameSpan => ?_) fuel
  refine hx fuel _ _ ?_ hd.advance.advance
  rw [Expr.bare, Expr.bare, ho]
  rfl

/-! ## Calls and struct literals -/

/-- Behind an argument stands a comma or the closing parenthesis. -/
theorem stopsAt_moreArguments (es : List Expr) (rest : List Word) :
    StopsAt 0 (moreArgumentWords es ++ .symbol .rparen :: rest) := by
  cases es with
  | nil => exact stopsAt_mark (.inl rfl) 0 _
  | cons e es => exact stopsAt_mark (.inr (.inr (.inl rfl))) 0 _

theorem argumentsRest {es : List Expr} (h : ∀ e ∈ es, Reread e) :
    ∀ {c : Cursor} {rest : List Word} {Q : List Expr → Cursor → Prop},
      c.Faces (moreArgumentWords es ++ .symbol .rparen :: rest) →
      (∀ es' d, exprsBare es' = exprsBare es → d.Faces (.symbol .rparen :: rest) → Q es' d) →
      ∀ fuel, Ends (Reader.argumentsRest fuel) c Q OnlyFuel := by
  induction es with
  | nil =>
      intro c rest Q hc hQ fuel
      cases fuel with
      | zero => exact rfl
      | succ fuel =>
          rw [Reader.argumentsRest, ends_bind]
          exact Reader.ends_accept_not hc (by simp [moreArgumentWords]) (hQ [] c rfl hc)
  | cons e es ih =>
      intro c rest Q hc hQ fuel
      have hmem : ∀ x ∈ es, Reread x := fun x hx => h x (List.mem_cons_of_mem e hx)
      rw [moreArgumentWords, List.cons_append, List.cons_append, List.append_assoc] at hc
      cases fuel with
      | zero => exact rfl
      | succ fuel =>
          rw [Reader.argumentsRest, ends_bind]
          refine Reader.ends_accept_here hc ?_
          simp only [Bool.not_true, Bool.false_eq_true, if_false, ends_bind]
          refine (h e List.mem_cons_self).whole (stopsAt_moreArguments es rest) hc.advance ?_ fuel
          intro e' d he hd
          refine ih hmem hd (fun es' d' hes' hd' => ?_) fuel
          exact hQ _ d' (by rw [exprsBare, exprsBare, he, hes']) hd'

/-- Arguments are read back in front of a closing parenthesis. -/
theorem arguments {es : List Expr} (hwf : exprsWellFormed es = true) (h : ∀ e ∈ es, Reread e)
    {Q : List Expr → Cursor → Prop} (hc : c.Faces (argumentWords es ++ .symbol .rparen :: rest))
    (hQ : ∀ es' d, exprsBare es' = exprsBare es → d.Faces (.symbol .rparen :: rest) → Q es' d)
    (fuel : Nat) : Ends (Reader.arguments fuel) c Q OnlyFuel := by
  cases fuel with
  | zero => exact rfl
  | succ fuel =>
      rw [Reader.arguments, ends_bind, Reader.ends_atSymbol, hc.atSymbol .rparen]
      cases es with
      | nil => exact hQ [] c rfl hc
      | cons e es =>
          rw [exprsWellFormed, Bool.and_eq_true] at hwf
          obtain ⟨w, ws, hws, hbegin, -⟩ := e.words_begin hwf.1
          -- The first argument is not taken for the end of the list.
          have hne : (argumentWords (e :: es) ++ .symbol .rparen :: rest).head? ≠
              some (.symbol .rparen) := by
            rw [argumentWords, hws]
            rintro hw
            cases Option.some.inj hw
            cases hbegin
          rw [decide_eq_false hne]
          rw [argumentWords, List.append_assoc] at hc
          simp only [Bool.false_eq_true, if_false, ends_bind]
          refine (h e List.mem_cons_self).whole (stopsAt_moreArguments es rest) hc ?_ fuel
          intro e' d he hd
          refine argumentsRest (fun x hx => h x (List.mem_cons_of_mem e hx)) hd ?_ fuel
          intro es' d' hes' hd'
          exact hQ _ d' (by rw [exprsBare, exprsBare, he, hes']) hd'

theorem moreMemberWords_cons (m : Ident × Expr) (ms : List (Ident × Expr)) :
    moreMemberWords (m :: ms) = .symbol .comma :: memberWords (m :: ms) := rfl

/-- Behind the value of a field stands a comma or the closing brace. -/
theorem stopsAt_moreMembers (ms : List (Ident × Expr)) (rest : List Word) :
    StopsAt 0 (moreMemberWords ms ++ .symbol .rbrace :: rest) := by
  cases ms with
  | nil => exact stopsAt_mark (.inr (.inl rfl)) 0 _
  | cons m ms => exact stopsAt_mark (.inr (.inr (.inl rfl))) 0 _

/-- Fields are read back in front of a closing brace. -/
theorem structFields (typeName : Ident) {ms : List (Ident × Expr)} (h : ∀ m ∈ ms, Reread m.2) :
    ∀ {c : Cursor} {rest : List Word} {Q : List (Ident × Expr) → Cursor → Prop},
      c.Faces (memberWords ms ++ .symbol .rbrace :: rest) →
      (∀ ms' d, membersBare ms' = membersBare ms → d.Faces (.symbol .rbrace :: rest) → Q ms' d) →
      ∀ fuel, Ends (Reader.structFields fuel typeName) c Q OnlyFuel := by
  induction ms with
  | nil =>
      intro c rest Q hc hQ fuel
      cases fuel with
      | zero => exact rfl
      | succ fuel =>
          rw [Reader.structFields, ends_bind, Reader.ends_atSymbol, hc.atSymbol .rbrace]
          exact hQ [] c rfl hc
  | cons m ms ih =>
      intro c rest Q hc hQ fuel
      obtain ⟨name, e⟩ := m
      have hmem : ∀ x ∈ ms, Reread x.2 := fun x hx => h x (List.mem_cons_of_mem _ hx)
      simp only [memberWords, List.cons_append, List.append_assoc] at hc
      cases fuel with
      | zero => exact rfl
      | succ fuel =>
          rw [Reader.structFields, ends_bind, Reader.ends_atSymbol, hc.atSymbol .rbrace,
            decide_eq_false (by simp)]
          simp only [Bool.false_eq_true, if_false, ends_bind]
          refine Reader.ends_expectName_here hc fun span => ?_
          refine Reader.ends_expectMark_here hc.advance ?_
          refine (h (name, e) List.mem_cons_self).whole (stopsAt_moreMembers ms rest)
            hc.advance.advance ?_ fuel
          intro e' d he hd
          -- Behind the last field no comma is written, although one may be read there.
          cases ms with
          | nil =>
              refine Reader.ends_accept_not hd (by simp [moreMemberWords]) ?_
              exact hQ _ d (by rw [membersBare, membersBare, he]; rfl) hd
          | cons m ms =>
              rw [moreMemberWords_cons, List.cons_append] at hd
              refine Reader.ends_accept_here hd ?_
              simp only [if_true, ends_bind]
              refine ih hmem hd.advance (fun ms' d' hms' hd' => ?_) fuel
              refine hQ _ d' ?_ hd'
              rw [membersBare, membersBare, he, hms']
              rfl

theorem call {span : Span} {callee : Ident} {args : List Expr}
    (hwf : exprsWellFormed args = true) (h : ∀ e ∈ args, Reread e) :
    Reread (.call span callee args) := by
  refine of_operand rfl ⟨_, _, rfl, rfl⟩ ?_
  intro c rest Q _ hc hx fuel
  simp only [Expr.words, List.cons_append, List.append_assoc, List.nil_append] at hc
  rw [ends_bind]
  cases fuel with
  | zero => exact rfl
  | succ fuel =>
      obtain ⟨t, ts, ht, hw⟩ := hc.token
      obtain ⟨hk, hlex⟩ := Token.kind_of_name hw
      have hparen : (c.kindAt 1 == some (.symbol .lparen)) = true := by
        rw [hc.kindAt 1]
        rfl
      rw [Reader.primary, ends_bind, ends_get, ht]
      simp only [hk, hparen, if_true, ends_bind, Reader.ends_advance]
      refine arguments hwf h hc.advance.advance (fun args' d hargs hd => ?_) fuel
      refine Reader.ends_expectClose_here hd ?_
      rw [Reader.ends_spanFrom]
      refine hx _ _ d.advance ?_ hd.advance
      rw [Expr.bare, Expr.bare, hargs, Ident.bare, Ident.bare, hlex]

/-- Two words behind its name give a struct literal away. -/
theorem looksLikeStruct_of_faces {name : Text} {ms : List (Ident × Expr)}
    (hupper : name.units.head?.any isUpperUnit = true)
    (hc : c.Faces (.name name :: .symbol .lbrace :: (memberWords ms ++ .symbol .rbrace :: rest))) :
    Reader.looksLikeStruct c name = true := by
  rw [Reader.looksLikeStruct, hupper, hc.kindAt 1, hc.kindAt 2, hc.kindAt 3]
  cases ms with
  | nil => rfl
  | cons m ms => rfl

theorem struct {span : Span} {name : Ident} {ms : List (Ident × Expr)}
    (hupper : name.name.units.head?.any isUpperUnit = true) (h : ∀ m ∈ ms, Reread m.2) :
    Reread (.struct span name ms) := by
  refine of_operand rfl ⟨_, _, rfl, rfl⟩ ?_
  intro c rest Q _ hc hx fuel
  simp only [Expr.words, List.cons_append, List.append_assoc, List.nil_append] at hc
  rw [ends_bind]
  cases fuel with
  | zero => exact rfl
  | succ fuel =>
      obtain ⟨t, ts, ht, hw⟩ := hc.token
      obtain ⟨hk, hlex⟩ := Token.kind_of_name hw
      have hparen : (c.kindAt 1 == some (.symbol .lparen)) = false :=
        hc.kindAt_one_ne (by simp)
      have hstruct : Reader.looksLikeStruct c t.lexeme = true := by
        rw [hlex]
        exact looksLikeStruct_of_faces hupper hc
      rw [Reader.primary, ends_bind, ends_get, ht]
      simp only [hk, hparen, hstruct, Bool.false_eq_true, if_false, if_true, ends_bind,
        Reader.ends_advance]
      refine structFields _ h hc.advance.advance (fun ms' d hms hd => ?_) fuel
      refine Reader.ends_expectClose_here hd ?_
      rw [Reader.ends_spanFrom]
      refine hx _ _ d.advance ?_ hd.advance
      rw [Expr.bare, Expr.bare, hms, Ident.bare, Ident.bare, hlex]

end Reread

mutual

/-- Every expression that can be written is read back from its words. -/
theorem Expr.reread : ∀ e : Expr, e.wellFormed = true → Reread e
  | .int span n raw, h => by
      rcases Expr.int_wellFormed h with ⟨hpos, hlt⟩ | ⟨rfl, hraw⟩
      · obtain ⟨k, rfl⟩ := Int.eq_ofNat_of_zero_le hpos
        exact .int (by omega)
      · exact .least hraw
  | .float span x raw, _ => .float span x raw
  | .bool span b, _ => .bool span b
  | .string span t, _ => .string span t
  | .self span, _ => .self span
  | .ident id, _ => .ident id
  | .field span object name, h => by
      obtain ⟨w, ws, hws, -, hoperand⟩ := (Expr.field span object name).words_begin h
      exact .field (object.reread h) ⟨w, ws, hws, hoperand rfl⟩
  | .call _ _ args, h => .call h (exprsReread args h)
  | .unary _ _ arg, h => by
      obtain ⟨w, ws, hws, hexpr, -⟩ := Expr.wordsAt_begin (m := 7) (arg.words_begin h)
      exact .unaryExpr (arg.reread h) ⟨w, ws, hws, hexpr⟩
  | .binary _ _ left right, h => by
      rw [Expr.wellFormed, Bool.and_eq_true] at h
      exact .binaryExpr (left.reread h.1) (right.reread h.2)
  | .struct _ _ fields, h => by
      rw [Expr.wellFormed, Bool.and_eq_true] at h
      exact .struct h.1 (membersReread fields h.2)

theorem exprsReread : ∀ es : List Expr, exprsWellFormed es = true → ∀ e ∈ es, Reread e
  | [], _ => fun _ he => absurd he List.not_mem_nil
  | e :: es, h => by
      rw [exprsWellFormed, Bool.and_eq_true] at h
      exact List.forall_mem_cons.mpr ⟨e.reread h.1, exprsReread es h.2⟩

theorem membersReread : ∀ ms : List (Ident × Expr), membersWellFormed ms = true →
    ∀ m ∈ ms, Reread m.2
  | [], _ => fun _ hm => absurd hm List.not_mem_nil
  | (_, e) :: ms, h => by
      rw [membersWellFormed, Bool.and_eq_true] at h
      exact List.forall_mem_cons.mpr ⟨e.reread h.1, membersReread ms h.2⟩

end

end SceneScript
