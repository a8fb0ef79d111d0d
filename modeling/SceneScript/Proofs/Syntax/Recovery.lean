import SceneScript.Proofs.Syntax.Parsed

/-!
# A broken item does not reach the next one

The tokens `fn`, `signal` and `@` begin a declaration and stand nowhere else. Whatever goes wrong
in front of such a token, reading goes on there: no function of the parser takes it as part of
something else, and synchronizing does not skip it. From there on the parser has forgotten what
came before. It has more fuel left than it needs and a list of errors that it only adds to.

* **`Boundary`** — the rest of a script from such a token on, or its end.
* **`Stays`** — a step does not cross a boundary, and does the same with more fuel and behind
  other errors; **`Stays.bind`** puts steps together.
* **`Reader.StaysExprs`**, **`Reader.StaysStmts`** — the functions of the parser.
* **`Reader.ends_declarations_reach`** — every boundary is reached between two declarations.
* **`parseTokens_append`** — what stands in front of a boundary leaves what is behind it alone.
-/

namespace SceneScript

variable {α β : Type}

/-! ## Boundaries -/

/-- The token begins a declaration that no statement can contain. -/
def Token.opens (t : Token) : Bool :=
  match t.kind with
  | .keyword .fnKey | .keyword .signalKey | .symbol .atSign => true
  | _ => false

/-- The rest of a script from a token that opens a declaration on, or its end. -/
structure Boundary where
  tokens : List Token
  opens  : ∀ t ∈ tokens.head?, t.opens = true

namespace Boundary

variable {B : Boundary} {t : Token} {rest : List Token}

/-- The end of every script. -/
def ending : Boundary := ⟨[], fun _ h => by cases h⟩

/-- A token that opens nothing stands in front of the boundary. -/
theorem suffix_tail (ht : t.opens = false) (h : B.tokens <:+ t :: rest) : B.tokens <:+ rest := by
  rcases List.suffix_cons_iff.mp h with heq | h
  · have hopens := B.opens t (by rw [heq]; rfl)
    rw [ht] at hopens
    cases hopens
  · exact h

end Boundary

theorem Token.opens_iff {t : Token} :
    t.opens = true ↔
      t.kind = .keyword .fnKey ∨ t.kind = .keyword .signalKey ∨ t.kind = .symbol .atSign := by
  rw [opens]
  split <;> simp_all

theorem Token.opens_symbol {t : Token} {s : Symbol} (h : t.kind = .symbol s) (hs : s ≠ .atSign) :
    t.opens = false := by
  rw [opens, h]
  cases s <;> first | rfl | exact absurd rfl hs

theorem Token.opens_keyword {t : Token} {k : Keyword} (h : t.kind = .keyword k)
    (hk : k ≠ .fnKey ∧ k ≠ .signalKey) : t.opens = false := by
  rw [opens, h]
  cases k <;> first | rfl | exact absurd rfl hk.1 | exact absurd rfl hk.2

theorem Token.opens_identifier {t : Token} (h : t.kind = .identifier) : t.opens = false := by
  rw [opens, h]

/-! ## Earlier errors -/

namespace Cursor

variable {pre : List Diagnostic} {c : Cursor} {B : Boundary}

/-- The cursor behind other errors. -/
def behind (pre : List Diagnostic) (c : Cursor) : Cursor := { c with errors := pre ++ c.errors }

@[simp] theorem behind_tokens : (c.behind pre).tokens = c.tokens := rfl

@[simp] theorem behind_kindAt (n : Nat) : (c.behind pre).kindAt n = c.kindAt n := rfl

@[simp] theorem behind_here : (c.behind pre).here = c.here := rfl

@[simp] theorem behind_last : (c.behind pre).last = c.last := rfl

@[simp] theorem behind_atSymbol (s : Symbol) : (c.behind pre).atSymbol s = c.atSymbol s := rfl

@[simp] theorem behind_atDeclaration : (c.behind pre).atDeclaration = c.atDeclaration := rfl

theorem behind_advance : (c.behind pre).advance = c.advance.behind pre := by
  rw [advance, advance, behind_tokens]
  cases c.tokens <;> rfl

theorem behind_record (e : SyntaxError) (span : Span) :
    (c.behind pre).record e span = (c.record e span).behind pre := by
  simp [record, behind]

theorem behind_skip (n : Nat) : ∀ c : Cursor, (c.behind pre).skip n = (c.skip n).behind pre := by
  induction n with
  | zero => exact fun c => rfl
  | succ n ih =>
      intro c
      rw [skip, skip, behind_advance, ih]

theorem behind_synchronize (level : Level) :
    (c.behind pre).synchronize level = (c.synchronize level).behind pre :=
  behind_skip _ c

/-! ## Synchronizing -/

theorem skip_tokens (n : Nat) : ∀ c : Cursor, (c.skip n).tokens = c.tokens.drop n := by
  induction n with
  | zero => exact fun c => rfl
  | succ n ih =>
      intro c
      rw [skip, ih, advance]
      cases h : c.tokens <;> simp [h]

/-- Skipping ends in front of the next token that opens a declaration, at every depth. -/
theorem suffix_drop_skipCount (level : Level) (tokens : List Token) :
    ∀ depth, B.tokens <:+ tokens → B.tokens <:+ tokens.drop (skipCount level depth tokens) := by
  induction tokens with
  | nil => exact fun _ h => h
  | cons t rest ih =>
      intro depth h
      cases ho : t.opens with
      | true =>
          have hzero : skipCount level depth (t :: rest) = 0 := by
            rw [skipCount]
            rcases Token.opens_iff.mp ho with hk | hk | hk <;> simp only [hk]
          rw [hzero]
          exact h
      | false =>
          have hrest := Boundary.suffix_tail ho h
          rw [skipCount]
          repeat' split
          all_goals first | exact h | exact hrest | exact ih _ hrest

theorem suffix_synchronize (level : Level) (h : B.tokens <:+ c.tokens) :
    B.tokens <:+ (c.synchronize level).tokens := by
  rw [synchronize, skip_tokens]
  exact suffix_drop_skipCount level c.tokens 0 h

end Cursor

/-! ## Steps in front of a boundary -/

/-- In front of the boundary `B`, the step `x` does not cross it, and `y` does the same behind
    the errors `pre`, unless `x` runs out of fuel. -/
def Stays (B : Boundary) (pre : List Diagnostic) (x y : Reader α) (c : Cursor) : Prop :=
  B.tokens <:+ c.tokens →
    Ends x c (fun a d => B.tokens <:+ d.tokens ∧ y (c.behind pre) = .ok a (d.behind pre))
      (fun stop d => stop = .panic →
        B.tokens <:+ d.tokens ∧ y (c.behind pre) = .error .panic (d.behind pre))

namespace Stays

variable {B : Boundary} {pre : List Diagnostic} {c : Cursor} {x y : Reader α}

theorem congr {x' y' : Reader α} (hx : x c = x' c) (hy : y (c.behind pre) = y' (c.behind pre))
    (h : Stays B pre x' y' c) : Stays B pre x y c := by
  intro hB
  rw [hy, ends_congr hx]
  exact h hB

/-- One step after another. -/
theorem bind {f g : α → Reader β} (h : Stays B pre x y c)
    (hf : ∀ a d, Stays B pre (f a) (g a) d) : Stays B pre (x >>= f) (y >>= g) c := by
  intro hB
  refine ends_bind.mpr (Ends.mono (h hB) (fun a d ha => ?_) fun stop d he hp => ?_)
  · obtain ⟨hd, hy⟩ := ha
    rw [bind_of_ok hy]
    exact hf a d hd
  · obtain ⟨hd, hy⟩ := he hp
    exact ⟨hd, bind_of_error hy⟩

theorem map {f : α → β} (h : Stays B pre x y c) : Stays B pre (f <$> x) (f <$> y) c := by
  rw [map_eq_pure_bind, map_eq_pure_bind]
  exact h.bind fun a d hd => ⟨hd, rfl⟩

end Stays

namespace Reader

variable {B : Boundary} {pre : List Diagnostic} {c : Cursor}

theorem stays_pure {a : α} : Stays B pre (pure a) (pure a) c := fun hB => ⟨hB, rfl⟩

theorem stays_outOfFuel {y : Reader α} : Stays B pre (throw .outOfFuel) y c :=
  fun _ h => Stop.noConfusion h

theorem stays_failAt (span : Span) (e : SyntaxError) :
    Stays B pre (failAt span e : Reader α) (failAt span e) c := by
  intro hB _
  refine ⟨hB, ?_⟩
  rw [← Cursor.behind_record]
  rfl

theorem stays_fail {e : SyntaxError} : Stays B pre (fail e : Reader α) (fail e) c :=
  stays_failAt c.here e

/-- What stands behind a step that gives up is not reached. -/
theorem stays_failAt_bind {span : Span} {e : SyntaxError} {f g : α → Reader β} :
    Stays B pre (failAt span e >>= f) (failAt span e >>= g) c :=
  show Stays B pre (failAt span e : Reader β) (failAt span e) c from stays_failAt span e

theorem stays_fail_bind {e : SyntaxError} {f g : α → Reader β} :
    Stays B pre (fail e >>= f) (fail e >>= g) c :=
  show Stays B pre (fail e : Reader β) (fail e) c from stays_fail

theorem stays_record {e : SyntaxError} {span : Span} :
    Stays B pre (modify fun c => c.record e span) (modify fun c => c.record e span) c := by
  intro hB
  refine ⟨hB, ?_⟩
  rw [← Cursor.behind_record]
  rfl

theorem stays_set_record {e : SyntaxError} {span : Span} :
    Stays B pre (set (c.record e span)) (set ((c.behind pre).record e span)) c := by
  intro hB
  refine ⟨hB, ?_⟩
  rw [Cursor.behind_record]
  rfl

/-! ## Steps that look and do not move -/

theorem stays_get {f g : Cursor → Reader α} :
    Stays B pre (get >>= f) (get >>= g) c ↔ Stays B pre (f c) (g (c.behind pre)) c := Iff.rfl

theorem stays_peek {f g : Option Token → Reader α} :
    Stays B pre (peek >>= f) (peek >>= g) c ↔
      Stays B pre (f c.tokens.head?) (g c.tokens.head?) c := Iff.rfl

theorem stays_atSymbol {s : Symbol} {f g : Bool → Reader α} :
    Stays B pre (atSymbol s >>= f) (atSymbol s >>= g) c ↔
      Stays B pre (f (c.atSymbol s)) (g (c.atSymbol s)) c := Iff.rfl

theorem stays_atKeyword {k : Keyword} {f g : Bool → Reader α} :
    Stays B pre (atKeyword k >>= f) (atKeyword k >>= g) c ↔
      Stays B pre (f (c.atKeyword k)) (g (c.atKeyword k)) c := Iff.rfl

theorem stays_spanFrom {p : Position} {f g : Span → Reader α} :
    Stays B pre (spanFrom p >>= f) (spanFrom p >>= g) c ↔
      Stays B pre (f ⟨p, c.last⟩) (g ⟨p, c.last⟩) c := Iff.rfl

theorem stays_start {f g : Position → Reader α} :
    Stays B pre (start >>= f) (start >>= g) c ↔
      Stays B pre (f c.here.start) (g c.here.start) c := Iff.rfl

/-! ## Steps that move by one token -/

/-- The next token may be taken when the boundary lies behind it. -/
theorem stays_advance {t : Token} {rest : List Token} {f g : Unit → Reader α}
    (ht : c.tokens = t :: rest) (hpast : B.tokens <:+ c.tokens → B.tokens <:+ rest)
    (h : Stays B pre (f ()) (g ()) c.advance) : Stays B pre (advance >>= f) (advance >>= g) c := by
  intro hB
  have hy : (advance >>= g) (c.behind pre) = g () (c.advance.behind pre) := by
    rw [← Cursor.behind_advance]
    rfl
  rw [hy]
  exact h (by rw [Cursor.advance_tokens ht]; exact hpast hB)

/-- A token that opens nothing may be taken. -/
theorem stays_advance_closed {t : Token} {rest : List Token} {f g : Unit → Reader α}
    (ht : c.tokens = t :: rest) (ho : t.opens = false)
    (h : Stays B pre (f ()) (g ()) c.advance) : Stays B pre (advance >>= f) (advance >>= g) c :=
  stays_advance ht (fun hB => Boundary.suffix_tail ho (ht ▸ hB)) h

theorem stays_advance_symbol {s : Symbol} {f g : Unit → Reader α} (hat : c.atSymbol s = true)
    (hs : s ≠ .atSign) (h : Stays B pre (f ()) (g ()) c.advance) :
    Stays B pre (advance >>= f) (advance >>= g) c := by
  obtain ⟨t, rest, ht, hk⟩ := Cursor.atSymbol_iff.mp hat
  exact stays_advance_closed ht (Token.opens_symbol hk hs) h

theorem stays_advance_keyword {k : Keyword} {f g : Unit → Reader α} (hat : c.atKeyword k = true)
    (hk : k ≠ .fnKey ∧ k ≠ .signalKey) (h : Stays B pre (f ()) (g ()) c.advance) :
    Stays B pre (advance >>= f) (advance >>= g) c := by
  obtain ⟨t, rest, ht, hkind⟩ := Cursor.atKeyword_iff.mp hat
  exact stays_advance_closed ht (Token.opens_keyword hkind hk) h

theorem stays_accept {s : Symbol} (hs : s ≠ .atSign) (c : Cursor) :
    Stays B pre (accept s) (accept s) c := by
  rw [accept, stays_atSymbol]
  split
  · next hat => exact stays_advance_symbol hat hs stays_pure
  · exact stays_pure

theorem stays_acceptKeyword {k : Keyword} (hk : k ≠ .fnKey ∧ k ≠ .signalKey) (c : Cursor) :
    Stays B pre (acceptKeyword k) (acceptKeyword k) c := by
  rw [acceptKeyword, stays_atKeyword]
  split
  · next hat => exact stays_advance_keyword hat hk stays_pure
  · exact stays_pure

theorem stays_expectName (expected : Expected) (c : Cursor) :
    Stays B pre (expectName expected) (expectName expected) c := by
  rw [expectName, stays_peek]
  cases ht : c.tokens with
  | nil => exact stays_fail
  | cons t rest =>
      by_cases hk : t.kind = .identifier
      · simp only [List.head?_cons, hk, if_true]
        exact stays_advance_closed ht (Token.opens_identifier hk) stays_pure
      · simp only [List.head?_cons, hk, if_false]
        exact stays_fail

theorem stays_typeRef (c : Cursor) : Stays B pre typeRef typeRef c := by
  rw [typeRef, stays_peek]
  cases ht : c.tokens with
  | nil => exact stays_fail
  | cons t rest =>
      by_cases hk : t.kind = .identifier
      · simp only [List.head?_cons, hk, if_true]
        exact stays_advance_closed ht (Token.opens_identifier hk) stays_pure
      · simp only [List.head?_cons, hk, if_false]
        exact stays_fail

theorem stays_expectMark {s : Symbol} (hs : s ≠ .atSign) (mark : Mark) (c : Cursor) :
    Stays B pre (expectMark s mark) (expectMark s mark) c := by
  rw [expectMark]
  refine (stays_accept hs c).bind fun found d => ?_
  cases found with
  | true => exact stays_pure
  | false => exact stays_peek.mpr stays_fail

theorem stays_expectClose {s : Symbol} (hs : s ≠ .atSign) (enclosed : Enclosed) (c : Cursor) :
    Stays B pre (expectClose s enclosed) (expectClose s enclosed) c := by
  rw [expectClose]
  refine (stays_accept hs c).bind fun found d => ?_
  cases found with
  | true => exact stays_pure
  | false => exact stays_peek.mpr stays_fail

theorem stays_rejectAssign (c : Cursor) : Stays B pre rejectAssign rejectAssign c := by
  rw [rejectAssign, stays_peek]
  split
  · exact stays_fail
  · exact stays_pure

theorem stays_expectSemicolon (ended : Ended) (c : Cursor) :
    Stays B pre (expectSemicolon ended) (expectSemicolon ended) c := by
  rw [expectSemicolon]
  refine (stays_accept (by decide) c).bind fun found d => ?_
  cases found with
  | true => exact stays_pure
  | false =>
      refine (stays_rejectAssign d).bind fun _ d' => ?_
      rw [stays_get]
      exact stays_peek.mpr (stays_failAt _ _)

/-! ## Expressions -/

/-- The functions that read expressions, at two amounts of fuel. -/
structure StaysExprs (B : Boundary) (pre : List Diagnostic) (k fuel : Nat) : Prop where
  binary        : ∀ level c, Stays B pre (binary fuel level) (binary (k + fuel) level) c
  binaryRest    : ∀ level left c,
    Stays B pre (binaryRest fuel level left) (binaryRest (k + fuel) level left) c
  unary         : ∀ c, Stays B pre (unary fuel) (unary (k + fuel)) c
  fields        : ∀ object c, Stays B pre (fields fuel object) (fields (k + fuel) object) c
  primary       : ∀ c, Stays B pre (primary fuel) (primary (k + fuel)) c
  arguments     : ∀ c, Stays B pre (arguments fuel) (arguments (k + fuel)) c
  argumentsRest : ∀ c, Stays B pre (argumentsRest fuel) (argumentsRest (k + fuel)) c
  structFields  : ∀ typeName c,
    Stays B pre (structFields fuel typeName) (structFields (k + fuel) typeName) c

namespace StaysExprs

variable {k fuel : Nat}

theorem binary_succ (ih : StaysExprs B pre k fuel) (level : Nat) (c : Cursor) :
    Stays B pre (Reader.binary (fuel + 1) level) (Reader.binary (k + fuel + 1) level) c := by
  rw [Reader.binary, Reader.binary]
  exact (ih.unary c).bind fun left d => ih.binaryRest level left d

theorem binaryRest_succ (ih : StaysExprs B pre k fuel) (level : Nat) (left : Expr) (c : Cursor) :
    Stays B pre (Reader.binaryRest (fuel + 1) level left)
      (Reader.binaryRest (k + fuel + 1) level left) c := by
  rw [Reader.binaryRest, Reader.binaryRest, stays_peek]
  cases hop : binaryOp? c.tokens.head? with
  | none => exact stays_pure
  | some op =>
      by_cases hlow : op.precedence < level
      · simp only [hlow, if_true]
        exact stays_pure
      · simp only [hlow, if_false]
        obtain ⟨t, ht, hword⟩ := binaryOp?_word hop
        obtain ⟨rest, ht⟩ := head?_cons ht
        have hclosed : t.opens = false := by
          cases op <;> exact Token.opens_symbol (Token.kind_of_symbol hword) (by decide)
        refine stays_advance_closed ht hclosed ?_
        exact (ih.binary _ _).bind fun right d => ih.binaryRest level _ d

theorem unaryPlain (ih : StaysExprs B pre k fuel) (c : Cursor) :
    Stays B pre (Reader.unaryPlain fuel c) (Reader.unaryPlain (k + fuel) c) c := by
  rw [Reader.unaryPlain, Reader.unaryPlain]
  cases hop : unaryOp? c.tokens.head? with
  | some op =>
      obtain ⟨t, ht, hword⟩ := unaryOp?_word hop
      obtain ⟨rest, ht⟩ := head?_cons ht
      have hclosed : t.opens = false := by
        cases op <;> exact Token.opens_symbol (Token.kind_of_symbol hword) (by decide)
      exact stays_advance_closed ht hclosed ((ih.unary _).bind fun arg d => stays_pure)
  | none => exact (ih.primary c).bind fun object d => ih.fields object d

theorem unary_succ (ih : StaysExprs B pre k fuel) (c : Cursor) :
    Stays B pre (Reader.unary (fuel + 1)) (Reader.unary (k + fuel + 1)) c := by
  by_cases hleast : AtLeast c
  · obtain ⟨minus, number, rest, ht, hm, hn⟩ := hleast
    -- Both tokens of the literal are taken, and neither opens a declaration.
    have hnumber : number.opens = false := by rw [Token.opens, hn]
    have htake : ∀ e : Expr, Stays B pre (do advance; advance; return e)
        (do advance; advance; return e) c := fun e =>
      stays_advance_closed ht (Token.opens_symbol hm (by decide))
        (stays_advance_closed (Cursor.advance_tokens ht) hnumber stays_pure)
    exact (htake _).congr (unary_least ht hm hn) (unary_least (c := c.behind pre) ht hm hn)
  · exact (ih.unaryPlain c).congr (unary_plain hleast) (unary_plain (c := c.behind pre) hleast)

theorem fields_succ (ih : StaysExprs B pre k fuel) (object : Expr) (c : Cursor) :
    Stays B pre (Reader.fields (fuel + 1) object) (Reader.fields (k + fuel + 1) object) c := by
  rw [Reader.fields, Reader.fields]
  refine (stays_accept (by decide) c).bind fun dot d => ?_
  cases dot with
  | false => exact stays_pure
  | true =>
      refine (stays_expectName _ d).bind fun name d' => ?_
      rw [stays_atSymbol]
      split
      · exact stays_fail_bind
      · exact ih.fields _ d'

theorem arguments_succ (ih : StaysExprs B pre k fuel) (c : Cursor) :
    Stays B pre (Reader.arguments (fuel + 1)) (Reader.arguments (k + fuel + 1)) c := by
  rw [Reader.arguments, Reader.arguments, stays_atSymbol]
  split
  · exact stays_pure
  · refine (ih.binary 1 c).bind fun first d => ?_
    exact (ih.argumentsRest d).bind fun more d' => stays_pure

theorem argumentsRest_succ (ih : StaysExprs B pre k fuel) (c : Cursor) :
    Stays B pre (Reader.argumentsRest (fuel + 1)) (Reader.argumentsRest (k + fuel + 1)) c := by
  rw [Reader.argumentsRest, Reader.argumentsRest]
  refine (stays_accept (by decide) c).bind fun comma d => ?_
  cases comma with
  | false => exact stays_pure
  | true =>
      refine (ih.binary 1 d).bind fun next d₁ => ?_
      exact (ih.argumentsRest d₁).bind fun more d₂ => stays_pure

theorem structFields_succ (ih : StaysExprs B pre k fuel) (typeName : Ident) (c : Cursor) :
    Stays B pre (Reader.structFields (fuel + 1) typeName)
      (Reader.structFields (k + fuel + 1) typeName) c := by
  rw [Reader.structFields, Reader.structFields, stays_atSymbol]
  split
  · exact stays_pure
  · refine (stays_expectName _ c).bind fun name d₁ => ?_
    refine (stays_expectMark (by decide) _ d₁).bind fun _ d₂ => ?_
    refine (ih.binary 1 d₂).bind fun value d₃ => ?_
    refine (stays_accept (by decide) d₃).bind fun comma d₄ => ?_
    cases comma with
    | false => exact stays_pure
    | true => exact (ih.structFields typeName d₄).bind fun more d₅ => stays_pure

/-- The token behind a name that is followed by a mark. -/
theorem atSymbol_advance {t : Token} {rest : List Token} {s : Symbol} (ht : c.tokens = t :: rest)
    (h : (c.kindAt 1 == some (.symbol s)) = true) : c.advance.atSymbol s = true := by
  rw [Cursor.atSymbol, Cursor.kindAt, Cursor.advance_tokens ht]
  rw [Cursor.kindAt, ht] at h
  exact h

theorem named (ih : StaysExprs B pre k fuel) {t : Token} {rest : List Token}
    (ht : c.tokens = t :: rest) (hk : t.kind = .identifier) :
    Stays B pre (Reader.primary (fuel + 1)) (Reader.primary (k + fuel + 1)) c := by
  rw [Reader.primary, Reader.primary, stays_get]
  simp only [Cursor.behind_tokens, Cursor.behind_kindAt, ht, hk]
  refine stays_advance_closed ht (Token.opens_identifier hk) ?_
  by_cases hcall : (c.kindAt 1 == some (.symbol .lparen)) = true
  · simp only [hcall, if_true]
    refine stays_advance_symbol (atSymbol_advance ht hcall) (by decide) ?_
    refine (ih.arguments _).bind fun args d₁ => ?_
    refine (stays_expectClose (by decide) _ d₁).bind fun _ d₂ => ?_
    exact stays_spanFrom.mpr stays_pure
  · simp only [hcall]
    have hsame : looksLikeStruct (c.behind pre) t.lexeme = looksLikeStruct c t.lexeme := rfl
    rw [hsame]
    by_cases hstruct : looksLikeStruct c t.lexeme = true
    · have hbrace : (c.kindAt 1 == some (.symbol .lbrace)) = true := by
        simp only [looksLikeStruct, Bool.and_eq_true] at hstruct
        exact hstruct.1.2
      simp only [hstruct, if_true]
      refine stays_advance_symbol (atSymbol_advance ht hbrace) (by decide) ?_
      refine (ih.structFields _ _).bind fun members d₁ => ?_
      refine (stays_expectClose (by decide) _ d₁).bind fun _ d₂ => ?_
      exact stays_spanFrom.mpr stays_pure
    · simp only [hstruct]
      exact stays_pure

theorem primary_succ (ih : StaysExprs B pre k fuel) (c : Cursor) :
    Stays B pre (Reader.primary (fuel + 1)) (Reader.primary (k + fuel + 1)) c := by
  cases ht : c.tokens with
  | nil =>
      rw [Reader.primary, Reader.primary, stays_get]
      simp only [Cursor.behind_tokens, ht]
      exact stays_fail
  | cons t rest =>
      by_cases hid : t.kind = .identifier
      · exact ih.named ht hid
      -- A literal is one token, which opens nothing.
      have literal : t.opens = false → ∀ e : Expr,
          Stays B pre (do advance; return e) (do advance; return e) c := fun ho e =>
        stays_advance_closed ht ho stays_pure
      rw [Reader.primary, Reader.primary, stays_get]
      simp only [Cursor.behind_tokens, ht]
      split
      · next n hk =>
          refine stays_advance_closed ht (by rw [Token.opens, hk]) ?_
          split
          · exact stays_record.bind fun _ d => stays_pure
          · exact stays_pure
      · next hk => exact literal (by rw [Token.opens, hk]) _
      · next hk => exact literal (by rw [Token.opens, hk]) _
      · next hk => exact literal (by rw [Token.opens, hk]) _
      · next hk => exact literal (by rw [Token.opens, hk]) _
      · next hk => exact literal (by rw [Token.opens, hk]) _
      · next hk =>
          refine stays_advance_closed ht (by rw [Token.opens, hk]) ?_
          refine (ih.binary 1 _).bind fun inner d => ?_
          exact (stays_expectClose (by decide) _ d).bind fun _ d' => stays_pure
      · next hk => exact absurd hk hid
      · split
        · exact stays_fail
        · exact stays_fail

end StaysExprs

theorem staysExprs (B : Boundary) (pre : List Diagnostic) (k fuel : Nat) :
    StaysExprs B pre k fuel := by
  induction fuel with
  | zero =>
      exact
        { binary        := fun _ _ => stays_outOfFuel
          binaryRest    := fun _ _ _ => stays_outOfFuel
          unary         := fun _ => stays_outOfFuel
          fields        := fun _ _ => stays_outOfFuel
          primary       := fun _ => stays_outOfFuel
          arguments     := fun _ => stays_outOfFuel
          argumentsRest := fun _ => stays_outOfFuel
          structFields  := fun _ _ => stays_outOfFuel }
  | succ fuel ih =>
      exact
        { binary        := ih.binary_succ
          binaryRest    := ih.binaryRest_succ
          unary         := ih.unary_succ
          fields        := ih.fields_succ
          primary       := ih.primary_succ
          arguments     := ih.arguments_succ
          argumentsRest := ih.argumentsRest_succ
          structFields  := ih.structFields_succ }

theorem stays_expression (k fuel : Nat) (c : Cursor) :
    Stays B pre (expression fuel) (expression (k + fuel)) c :=
  (staysExprs B pre k fuel).binary 1 c

/-! ## Simple statements -/

variable {k fuel : Nat}

theorem stays_letRest (k fuel : Nat) (start : Position) (mutable : Bool) (name : Ident)
    (declared : Option TypeRef) (c : Cursor) :
    Stays B pre (letRest fuel start mutable name declared)
      (letRest (k + fuel) start mutable name declared) c := by
  rw [letRest, letRest]
  refine (stays_accept (by decide) c).bind fun found d => ?_
  cases found with
  | false => exact stays_peek.mpr stays_fail_bind
  | true =>
      refine (stays_expression k fuel d).bind fun init d₁ => ?_
      refine (stays_expectSemicolon _ d₁).bind fun _ d₂ => ?_
      exact stays_spanFrom.mpr stays_pure

theorem stays_letParts (k fuel : Nat) (hlet : c.atKeyword .letKey = true) :
    Stays B pre (letParts fuel) (letParts (k + fuel)) c := by
  rw [letParts_eq, letParts_eq, stays_start]
  refine stays_advance_keyword hlet (by decide) ?_
  refine (stays_acceptKeyword (by decide) _).bind fun mutable d₁ => ?_
  refine (stays_expectName _ d₁).bind fun name d₂ => ?_
  refine (stays_accept (by decide) d₂).bind fun colon d₃ => ?_
  cases colon with
  | true =>
      refine (stays_typeRef d₃).bind fun type d₄ => ?_
      exact stays_letRest k fuel _ mutable name (some type) d₄
  | false => exact stays_letRest k fuel _ mutable name none d₃

theorem stays_returnStmt (k fuel : Nat) (hret : c.atKeyword .returnKey = true) :
    Stays B pre (returnStmt fuel) (returnStmt (k + fuel)) c := by
  rw [returnStmt, returnStmt, stays_start]
  refine stays_advance_keyword hret (by decide) ?_
  rw [stays_atSymbol]
  split
  · refine (stays_expectSemicolon _ _).bind fun _ d => ?_
    exact stays_spanFrom.mpr stays_pure
  · refine (stays_expression k fuel _).map.bind fun value d => ?_
    refine (stays_expectSemicolon _ d).bind fun _ d' => ?_
    exact stays_spanFrom.mpr stays_pure

theorem stays_simpleStmt (k fuel : Nat) (c : Cursor) :
    Stays B pre (simpleStmt fuel) (simpleStmt (k + fuel)) c := by
  rw [simpleStmt, simpleStmt]
  refine (stays_expression k fuel c).bind fun e d => ?_
  rw [stays_peek]
  cases hop : assignOp? d.tokens.head? with
  | none =>
      refine (stays_expectSemicolon _ d).bind fun _ d' => ?_
      exact stays_spanFrom.mpr stays_pure
  | some op =>
      obtain ⟨t, ht, hword⟩ := assignOp?_word hop
      obtain ⟨rest, ht⟩ := head?_cons ht
      have hclosed : t.opens = false := by
        cases op <;> exact Token.opens_symbol (Token.kind_of_symbol hword) (by decide)
      cases hparts : targetParts e [] with
      | none =>
          simp only [assignTarget, hparts]
          exact stays_failAt_bind
      | some parts =>
          simp only [assignTarget, hparts, pure_bind]
          refine stays_advance_closed ht hclosed ?_
          refine (stays_expression k fuel _).bind fun value d₁ => ?_
          refine (stays_expectSemicolon _ d₁).bind fun _ d₂ => ?_
          exact stays_spanFrom.mpr stays_pure

/-! ## Statements -/

/-- Synchronizing stops in front of the boundary as well. -/
theorem stays_recover {x y : Reader α} (level : Cursor.Level) (h : Stays B pre x y c) :
    Stays B pre (recover level x) (recover level y) c := by
  intro hB
  refine ends_recover.mpr (Ends.mono (h hB) (fun a d ha => ?_) fun stop d he => ?_)
  · obtain ⟨hd, hy⟩ := ha
    exact ⟨hd, by rw [recover, hy]⟩
  · refine ⟨fun hp => ?_, fun _ hfuel => Stop.noConfusion hfuel⟩
    obtain ⟨hd, hy⟩ := he hp
    refine ⟨Cursor.suffix_synchronize level hd, ?_⟩
    rw [recover, hy, ← Cursor.behind_synchronize]

/-- The functions that read statements, at two amounts of fuel. -/
structure StaysStmts (B : Boundary) (pre : List Diagnostic) (k fuel : Nat) : Prop where
  block       : ∀ c, c.atSymbol .lbrace = true → Stays B pre (block fuel) (block (k + fuel)) c
  blockRest   : ∀ opening done c,
    Stays B pre (blockRest fuel opening done) (blockRest (k + fuel) opening done) c
  statement   : ∀ c, Stays B pre (statement fuel) (statement (k + fuel)) c
  conditional : ∀ c, c.atKeyword .ifKey = true →
    Stays B pre (conditional fuel) (conditional (k + fuel)) c
  expectBlock : ∀ head c, Stays B pre (expectBlock fuel head) (expectBlock (k + fuel) head) c

namespace StaysStmts

theorem block_succ (ih : StaysStmts B pre k fuel) (c : Cursor) (hc : c.atSymbol .lbrace = true) :
    Stays B pre (Reader.block (fuel + 1)) (Reader.block (k + fuel + 1)) c := by
  rw [Reader.block, Reader.block, stays_get]
  exact stays_advance_symbol hc (by decide) (ih.blockRest c.here [] _)

theorem blockRest_succ (ih : StaysStmts B pre k fuel) (opening : Span) (done : List (Stmt Unit))
    (c : Cursor) :
    Stays B pre (Reader.blockRest (fuel + 1) opening done)
      (Reader.blockRest (k + fuel + 1) opening done) c := by
  rw [Reader.blockRest, Reader.blockRest, stays_get]
  simp only [Cursor.behind_atSymbol, Cursor.behind_tokens, Cursor.behind_atDeclaration,
    Cursor.behind_here, Cursor.behind_last]
  by_cases hclose : c.atSymbol .rbrace = true
  · simp only [hclose, if_true]
    refine stays_advance_symbol hclose (by decide) ?_
    exact stays_spanFrom.mpr stays_pure
  by_cases hend : c.tokens.isEmpty = true
  · simp only [hclose, hend, if_true]
    exact stays_set_record.bind fun _ d => stays_pure
  by_cases hnext : c.atDeclaration = true
  · simp only [hclose, hend, hnext, if_true]
    exact stays_set_record.bind fun _ d => stays_pure
  simp only [hclose, hend, hnext]
  refine (stays_recover .statement (ih.statement c)).bind fun found d => ?_
  cases found with
  | none => exact ih.blockRest opening done d
  | some st => exact ih.blockRest opening (done ++ [st]) d

theorem expectBlock_succ (ih : StaysStmts B pre k fuel) (head : BlockHead) (c : Cursor) :
    Stays B pre (Reader.expectBlock (fuel + 1) head) (Reader.expectBlock (k + fuel + 1) head) c := by
  rw [Reader.expectBlock, Reader.expectBlock, stays_atSymbol]
  split
  · next hc => exact ih.block c hc
  · exact (stays_rejectAssign c).bind fun _ d => stays_peek.mpr stays_fail

theorem conditional_succ (ih : StaysStmts B pre k fuel) (c : Cursor)
    (hc : c.atKeyword .ifKey = true) :
    Stays B pre (Reader.conditional (fuel + 1)) (Reader.conditional (k + fuel + 1)) c := by
  rw [Reader.conditional, Reader.conditional, stays_start]
  refine stays_advance_keyword hc (by decide) ?_
  refine (stays_expression k fuel _).bind fun test d₁ => ?_
  refine (ih.expectBlock _ d₁).bind fun consequent d₂ => ?_
  refine (stays_acceptKeyword (by decide) d₂).bind fun found d₃ => ?_
  cases found with
  | false => exact stays_pure
  | true =>
      simp only [if_true, stays_atKeyword]
      split
      · next hif => exact (ih.conditional d₃ hif).bind fun inner d₄ => stays_pure
      · exact (ih.expectBlock _ d₃).bind fun b d₄ => stays_pure

theorem statement_succ (ih : StaysStmts B pre k fuel) (c : Cursor) :
    Stays B pre (Reader.statement (fuel + 1)) (Reader.statement (k + fuel + 1)) c := by
  rw [Reader.statement, Reader.statement, stays_get]
  simp only [Cursor.behind_kindAt]
  split
  · next hk =>
      have hlet : c.atKeyword .letKey = true := by simp [Cursor.atKeyword, hk]
      exact (stays_letParts k fuel hlet).bind fun d d' => stays_pure
  · next hk => exact (ih.conditional c (by simp [Cursor.atKeyword, hk])).map
  · next hk =>
      have hwhile : c.atKeyword .whileKey = true := by simp [Cursor.atKeyword, hk]
      rw [stays_start]
      refine stays_advance_keyword hwhile (by decide) ?_
      refine (stays_expression k fuel _).bind fun test d₁ => ?_
      exact (ih.expectBlock _ d₁).bind fun body d₂ => stays_pure
  · next hk => exact stays_returnStmt k fuel (by simp [Cursor.atKeyword, hk])
  · next hk => exact (ih.block c (by simp [Cursor.atSymbol, hk])).map
  · exact stays_fail
  · exact stays_simpleStmt k fuel c

end StaysStmts

theorem staysStmts (B : Boundary) (pre : List Diagnostic) (k fuel : Nat) :
    StaysStmts B pre k fuel := by
  induction fuel with
  | zero =>
      exact
        { block       := fun _ _ => stays_outOfFuel
          blockRest   := fun _ _ _ => stays_outOfFuel
          statement   := fun _ => stays_outOfFuel
          conditional := fun _ _ => stays_outOfFuel
          expectBlock := fun _ _ => stays_outOfFuel }
  | succ fuel ih =>
      exact
        { block       := ih.block_succ
          blockRest   := ih.blockRest_succ
          statement   := ih.statement_succ
          conditional := ih.conditional_succ
          expectBlock := ih.expectBlock_succ }

/-! ## Declarations -/

theorem stays_parametersRest (k fuel : Nat) :
    ∀ c, Stays B pre (parametersRest fuel) (parametersRest (k + fuel)) c := by
  induction fuel with
  | zero => exact fun c => stays_outOfFuel
  | succ fuel ih =>
      intro c
      rw [← Nat.add_assoc, parametersRest, parametersRest, stays_peek]
      cases ht : c.tokens with
      | nil => exact stays_fail
      | cons t rest =>
          by_cases hk : t.kind = .identifier
          · simp only [List.head?_cons, hk, if_true]
            refine stays_advance_closed ht (Token.opens_identifier hk) ?_
            refine (stays_accept (by decide) _).bind fun colon d₁ => ?_
            cases colon with
            | false => exact stays_failAt_bind
            | true =>
                refine (stays_typeRef d₁).bind fun declared d₂ => ?_
                refine (stays_accept (by decide) d₂).bind fun comma d₃ => ?_
                cases comma with
                | true => exact (ih d₃).bind fun more d₄ => stays_pure
                | false => exact (stays_expectClose (by decide) _ d₃).bind fun _ d₄ => stays_pure
          · simp only [List.head?_cons, hk, if_false]
            exact stays_fail

theorem stays_parameters (k fuel : Nat) (c : Cursor) :
    Stays B pre (parameters fuel) (parameters (k + fuel)) c := by
  rw [parameters, parameters]
  refine (stays_accept (by decide) c).bind fun close d => ?_
  cases close with
  | true => exact stays_pure
  | false => exact stays_parametersRest k fuel d

theorem stays_returnType (c : Cursor) : Stays B pre returnType returnType c := by
  rw [returnType]
  refine (stays_accept (by decide) c).bind fun arrow d => ?_
  cases arrow with
  | false => exact stays_pure
  | true =>
      simp only [if_true, stays_peek]
      cases ht : d.tokens with
      | nil => exact stays_fail
      | cons t rest =>
          by_cases hk : t.kind = .identifier
          · simp only [List.head?_cons, hk, if_true]
            exact stays_advance_closed ht (Token.opens_identifier hk) stays_pure
          · simp only [List.head?_cons, hk, if_false]
            exact stays_fail

theorem stays_globalDecl (k fuel : Nat) (exported : Option ExportMark)
    (hlet : c.atKeyword .letKey = true) :
    Stays B pre (globalDecl fuel exported) (globalDecl (k + fuel) exported) c := by
  rw [globalDecl, globalDecl]
  exact (stays_letParts k fuel hlet).bind fun parts d => stays_pure

/-- The boundary lies behind the next token, which may then open a declaration itself. -/
def Ahead (B : Boundary) (c : Cursor) : Prop :=
  ∃ t rest, c.tokens = t :: rest ∧ B.tokens <:+ rest

theorem stays_advance_ahead {f g : Unit → Reader α} (hahead : Ahead B c)
    (h : Stays B pre (f ()) (g ()) c.advance) : Stays B pre (advance >>= f) (advance >>= g) c := by
  obtain ⟨t, rest, ht, hrest⟩ := hahead
  exact stays_advance ht (fun _ => hrest) h

theorem stays_exportMark (k fuel : Nat) (hahead : Ahead B c) :
    Stays B pre (exportMark fuel) (exportMark (k + fuel)) c := by
  rw [exportMark, exportMark, stays_start]
  refine stays_advance_ahead hahead ?_
  refine (stays_expectName _ _).bind fun name d₁ => ?_
  by_cases hname : name.name = "export"
  · simp only [hname, ne_eq, not_true_eq_false, if_false]
    refine (stays_accept (by decide) d₁).bind fun paren d₂ => ?_
    cases paren with
    | false => exact stays_spanFrom.mpr stays_pure
    | true =>
        refine (stays_expectName _ d₂).bind fun hint d₃ => ?_
        refine (stays_expectMark (by decide) _ d₃).bind fun _ d₄ => ?_
        refine ((staysExprs B pre k fuel).arguments d₄).bind fun args d₅ => ?_
        refine (stays_expectClose (by decide) _ d₅).bind fun _ d₆ => ?_
        rw [stays_spanFrom]
        refine (stays_expectClose (by decide) _ d₆).bind fun _ d₇ => ?_
        exact stays_spanFrom.mpr stays_pure
  · simp only [hname, ne_eq, not_false_eq_true, if_true]
    exact stays_failAt_bind

theorem stays_functionDecl (k fuel : Nat) (hahead : Ahead B c) :
    Stays B pre (functionDecl fuel) (functionDecl (k + fuel)) c := by
  rw [functionDecl, functionDecl, stays_start]
  refine stays_advance_ahead hahead ?_
  refine (stays_expectName _ _).bind fun name d₁ => ?_
  refine (stays_accept (by decide) d₁).bind fun paren d₂ => ?_
  cases paren with
  | false => exact stays_peek.mpr stays_fail_bind
  | true =>
      refine (stays_parameters k fuel d₂).bind fun params d₃ => ?_
      refine (stays_returnType d₃).bind fun result d₄ => ?_
      rw [stays_atSymbol]
      by_cases hbrace : d₄.atSymbol .lbrace = true
      · simp only [hbrace, Bool.not_true, Bool.false_eq_true, if_false]
        exact ((staysStmts B pre k fuel).block d₄ hbrace).bind fun body d₅ => stays_pure
      · simp only [hbrace, Bool.not_false, if_true]
        exact stays_peek.mpr stays_fail_bind

theorem stays_signalDecl (k fuel : Nat) (hahead : Ahead B c) :
    Stays B pre (signalDecl fuel) (signalDecl (k + fuel)) c := by
  rw [signalDecl, signalDecl, stays_start]
  refine stays_advance_ahead hahead ?_
  refine (stays_expectName _ _).bind fun name d₁ => ?_
  refine (stays_expectMark (by decide) _ d₁).bind fun _ d₂ => ?_
  refine (stays_parameters k fuel d₂).bind fun params d₃ => ?_
  refine (stays_expectSemicolon _ d₃).bind fun _ d₄ => ?_
  exact stays_spanFrom.mpr stays_pure

theorem stays_declaration (k fuel : Nat) (hahead : Ahead B c) :
    Stays B pre (declaration fuel) (declaration (k + fuel)) c := by
  have ⟨t, rest, ht, _⟩ := hahead
  rw [declaration, declaration, stays_peek, ht]
  simp only [List.head?_cons, Option.map_some]
  split
  · refine (stays_exportMark k fuel hahead).bind fun mark d => ?_
    rw [stays_atKeyword]
    split
    · next hlet => exact (stays_globalDecl k fuel (some mark) hlet).map.map
    · exact stays_peek.mpr stays_fail
  · next hk =>
      have hlet : c.atKeyword .letKey = true :=
        Cursor.atKeyword_iff.mpr ⟨t, rest, ht, Option.some.inj hk⟩
      exact (stays_globalDecl k fuel none hlet).map.map
  · exact (stays_functionDecl k fuel hahead).map.map
  · exact (stays_signalDecl k fuel hahead).map.map
  · exact stays_advance_ahead hahead stays_pure
  · exact stays_fail

/-- A whole script is read alike with more fuel and behind other errors. -/
theorem stays_declarations (pre : List Diagnostic) (k fuel : Nat) :
    ∀ c, Stays .ending pre (declarations fuel) (declarations (k + fuel)) c := by
  induction fuel with
  | zero => exact fun c => stays_outOfFuel
  | succ fuel ih =>
      intro c
      rw [← Nat.add_assoc, declarations, declarations, stays_get, Cursor.behind_tokens]
      cases ht : c.tokens with
      | nil => exact stays_pure
      | cons t rest =>
          have hahead : Ahead .ending c := ⟨t, rest, ht, List.nil_suffix⟩
          refine (stays_recover _ (stays_declaration k fuel hahead)).bind fun found d => ?_
          exact (ih d).bind fun more d' => stays_pure

/-! ## From a boundary on -/

/-- The first step of a declaration that begins with an opening token takes that token, so where
    the last one ended is not looked at. -/
theorem declaration_last (fuel : Nat) {t : Token} {rest : List Token} (last : Position)
    (ht : c.tokens = t :: rest) (ho : t.opens = true) :
    declaration fuel { c with last := last } = declaration fuel c := by
  obtain ⟨tokens, last', finish, errors⟩ := c
  cases ht
  obtain ⟨kind, lexeme, span⟩ := t
  rcases Token.opens_iff.mp ho with hk | hk | hk <;> cases hk <;> rfl

/-- In front of a token, the next item is read and then the others. -/
theorem declarations_cons (fuel : Nat) {t : Token} {rest : List Token}
    (ht : c.tokens = t :: rest) :
    declarations (fuel + 1) c = (do
      let found ← recover .declaration (declaration fuel)
      let more ← declarations fuel
      return found.join.toList ++ more : Reader (List (Declaration Unit))) c := by
  rw [declarations]
  show (if c.tokens.isEmpty then _ else _ : Reader _) c = _
  rw [ht]
  rfl

theorem declarations_last (fuel : Nat) {t : Token} {rest : List Token} (last : Position)
    (ht : c.tokens = t :: rest) (ho : t.opens = true) :
    declarations (fuel + 1) { c with last := last } = declarations (fuel + 1) c := by
  have hitem : recover .declaration (declaration fuel) { c with last := last } =
      recover .declaration (declaration fuel) c := by
    rw [recover, recover, declaration_last fuel last ht ho]
  refine (declarations_cons (c := { c with last := last }) fuel ht).trans
    (.trans ?_ (declarations_cons fuel ht).symm)
  show EStateM.bind _ _ _ = EStateM.bind _ _ _
  rw [EStateM.bind, EStateM.bind, hitem]

/-- Every boundary is reached between two declarations: the last declarations of a script are
    those that are read from there on. -/
theorem ends_declarations_reach (hB : B.tokens ≠ []) (fuel : Nat) :
    ∀ c : Cursor, B.tokens <:+ c.tokens → Ends (declarations fuel) c
      (fun body d => ∃ fuel' c' front behind, c'.tokens = B.tokens ∧ c'.finish = c.finish ∧
        declarations fuel' c' = .ok behind d ∧ body = front ++ behind) (fun _ _ => True) := by
  induction fuel with
  | zero => exact fun c _ => trivial
  | succ fuel ih =>
      intro c hc
      by_cases hhere : c.tokens = B.tokens
      · cases hrun : declarations (fuel + 1) c with
        | error stop d => exact (ends_of_error hrun).mpr trivial
        | ok body d => exact (ends_of_ok hrun).mpr ⟨fuel + 1, c, [], body, hhere, rfl, hrun, rfl⟩
      cases ht : c.tokens with
      | nil => exact absurd (List.suffix_nil.mp (ht ▸ hc)) hB
      | cons t rest =>
          rw [ht] at hc hhere
          have hahead : Ahead B c :=
            ⟨t, rest, ht, (List.suffix_cons_iff.mp hc).resolve_left (Ne.symm hhere)⟩
          have hstays : Stays B [] (recover .declaration (declaration fuel))
              (recover .declaration (declaration (0 + fuel))) c :=
            stays_recover .declaration (stays_declaration 0 fuel hahead)
          rw [ends_congr (declarations_cons fuel ht), ends_bind]
          refine Ends.mono (Ends.and (hstays (ht ▸ hc))
            (reads_recover (reads_declaration .spelled fuel c)))
            (fun found d hd => ?_) fun _ _ _ => trivial
          rw [ends_bind]
          refine Ends.mono (ih d hd.1.1) (fun more d' hmore => ?_) fun _ _ _ => trivial
          obtain ⟨fuel', c', front, behind, htokens, hfinish, hrun, rfl⟩ := hmore
          exact ⟨fuel', c', found.join.toList ++ front, behind, htokens,
            hfinish.trans hd.2.1.finish, hrun, (List.append_assoc ..).symm⟩

/-- From an opening token on, neither the fuel nor what was read before matters. -/
theorem declarations_opening {fuel fuel' : Nat} {t : Token} {rest : List Token}
    {c c' d d' : Cursor} {body body' : List (Declaration Unit)} (ht : c.tokens = t :: rest)
    (ho : t.opens = true) (hfresh : c.errors = []) (htokens : c'.tokens = c.tokens)
    (hfinish : c'.finish = c.finish) (hrun : declarations fuel c = .ok body d)
    (hrun' : declarations fuel' c' = .ok body' d') :
    body' = body ∧ d'.errors = c'.errors ++ d.errors := by
  cases fuel' with
  | zero => cases hrun'
  | succ fuel' =>
      have hc' : c.behind c'.errors = { c' with last := c.last } := by
        rw [Cursor.behind, hfresh, htokens, hfinish, List.append_nil]
      have hlate : declarations (fuel' + 1) (c.behind c'.errors) = .ok body' d' := by
        rw [hc', declarations_last fuel' c.last (htokens.trans ht) ho, hrun']
      -- Both runs are compared with one that has the fuel of both.
      have hmore := (ends_of_ok hrun).mp
        (stays_declarations c'.errors (fuel' + 1) fuel c List.nil_suffix)
      have hmore' := (ends_of_ok hlate).mp
        (stays_declarations [] fuel (fuel' + 1) (c.behind c'.errors) List.nil_suffix)
      rw [Nat.add_comm fuel (fuel' + 1)] at hmore'
      injection hmore.2.symm.trans hmore'.2 with hbody hd
      exact ⟨hbody.symm, (congrArg Cursor.errors hd).symm⟩

end Reader

/-- Whatever stands in front of a token that opens a declaration, the declarations and the errors
    from there on are those of the rest alone. -/
theorem parseTokens_append (broken rest : List Token) (t : Token) (finish : Position)
    (ht : t.opens = true) :
    ∃ front errors,
      (parseTokens (broken ++ t :: rest) finish).program.body =
        front ++ (parseTokens (t :: rest) finish).program.body ∧
      (parseTokens (broken ++ t :: rest) finish).diagnostics =
        errors ++ (parseTokens (t :: rest) finish).diagnostics := by
  let B : Boundary := ⟨t :: rest, fun u hu => by cases hu; exact ht⟩
  obtain ⟨body, d, hrun, -, -⟩ := declarations_ok (t :: rest) finish
  obtain ⟨whole, d', hrun', -, -⟩ := declarations_ok (broken ++ t :: rest) finish
  obtain ⟨fuel, c, front, behind, htokens, hfinish, hlate, rfl⟩ := (ends_of_ok hrun').mp
    (Reader.ends_declarations_reach (B := B) (List.cons_ne_nil t rest) _ _
      (List.suffix_append broken (t :: rest)))
  obtain ⟨rfl, herrors⟩ := Reader.declarations_opening (c := ⟨t :: rest, .origin, finish, []⟩)
    rfl ht rfl htokens hfinish hrun hlate
  refine ⟨front, c.errors, ?_, ?_⟩
  · simp only [parseTokens, hrun, hrun']
  · simp only [parseTokens, hrun, hrun', herrors]

/-- A call that is not finished, in a block that is not closed. -/
def unfinishedCall : List Token := (tokenize "fn f() \x7b let x = g(1, if" false).tokens

/-- A function and a signal without parameters. -/
def unfinishedSignal : List Token := (tokenize "fn h() \x7b\x7d signal s" false).tokens

theorem parseTokens_append_unfinished : ∃ t rest, t :: rest = unfinishedSignal ∧
    t.opens = true ∧
    (parseTokens unfinishedCall .origin).diagnostics.length = 2 ∧
    (parseTokens unfinishedSignal .origin).diagnostics.length = 1 ∧
    ∃ front errors,
      (parseTokens (unfinishedCall ++ t :: rest) .origin).program.body =
        front ++ (parseTokens (t :: rest) .origin).program.body ∧
      (parseTokens (unfinishedCall ++ t :: rest) .origin).diagnostics =
        errors ++ (parseTokens (t :: rest) .origin).diagnostics := by
  refine ⟨unfinishedSignal.head (by decide +kernel), unfinishedSignal.tail, ?_, ?_, ?_, ?_, ?_⟩
  · decide +kernel
  · decide +kernel
  · decide +kernel
  · decide +kernel
  · exact parseTokens_append unfinishedCall _ _ .origin (by decide +kernel)

end SceneScript
