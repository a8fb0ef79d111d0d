import SceneScript.Proofs.Syntax.Faithful

/-!
# The parser never runs out of fuel

Every chain of calls that takes no token is short, and every round of a loop takes one: a
statement and a declaration take at least one token when they succeed, and where one gives up
without moving, synchronizing skips a token. So sixteen units of fuel per token, and a few more,
are enough for every function of the parser.

* **`Finishes x c n k`** — the step ends, with at most `n` tokens left when it succeeds and
  at most `k` when it gives up.
* **`Reader.ends_declarations`** — sixteen units per token are enough for a whole script.
-/

namespace SceneScript

variable {α β : Type}

/-- The number of tokens ahead. -/
def Cursor.left (c : Cursor) : Nat := c.tokens.length

/-- The step does not run out of fuel and leaves at most so many tokens. -/
def Finishes (x : Reader α) (c : Cursor) (n k : Nat) : Prop :=
  Ends x c (fun _ d => d.left ≤ n) (fun stop d => stop = .panic ∧ d.left ≤ k)

namespace Cursor

variable {c : Cursor} {t : Token} {rest : List Token}

theorem left_advance (h : c.tokens = t :: rest) : c.advance.left + 1 = c.left := by
  rw [left, left, advance_tokens h, h, List.length_cons]

theorem left_advance_le (c : Cursor) : c.advance.left ≤ c.left := c.extends_advance.length_le

theorem left_symbol {s : Symbol} (h : c.atSymbol s = true) : c.advance.left + 1 = c.left := by
  obtain ⟨t, rest, ht, -⟩ := atSymbol_iff.mp h
  exact left_advance ht

theorem left_keyword {k : Keyword} (h : c.atKeyword k = true) : c.advance.left + 1 = c.left := by
  obtain ⟨t, rest, ht, -⟩ := atKeyword_iff.mp h
  exact left_advance ht

@[simp] theorem left_record (c : Cursor) (e : SyntaxError) (span : Span) :
    (c.record e span).left = c.left := rfl

theorem left_skip (n : Nat) (c : Cursor) : (c.skip n).left ≤ c.left - n := by
  induction n generalizing c with
  | zero => exact Nat.le_refl c.left
  | succ n ih =>
      have hstep : c.advance.left ≤ c.left - 1 := by
        cases h : c.tokens with
        | nil =>
            have hzero : c.advance.left ≤ c.left := c.left_advance_le
            have hnil : c.left = 0 := by rw [left, h]; rfl
            omega
        | cons t rest =>
            have := left_advance h
            omega
      have hrest : (c.skip (n + 1)).left ≤ c.advance.left - n := ih c.advance
      omega

end Cursor

namespace Finishes

variable {c : Cursor} {x : Reader α} {f : α → Reader β} {n k n' k' : Nat}

theorem mono (h : Finishes x c n k) (hok : n ≤ n') (hbad : k ≤ k') :
    Finishes x c n' k' :=
  Ends.mono h (fun _ _ hd => Nat.le_trans hd hok) fun _ _ he => ⟨he.1, Nat.le_trans he.2 hbad⟩

theorem bind (hx : Finishes x c n k) (hf : ∀ a d, d.left ≤ n → Finishes (f a) d n' k) :
    Finishes (x >>= f) c n' k :=
  ends_bind.mpr (Ends.mono hx (fun a d hd => hf a d hd) fun _ _ he => he)

theorem map {g : α → β} (hx : Finishes x c n k) : Finishes (g <$> x) c n k :=
  ends_map.mpr hx

end Finishes

namespace Reader

variable {c : Cursor} {f : Unit → Reader α} {n k : Nat}

theorem finishes_pure {a : α} (h : c.left ≤ n) : Finishes (pure a) c n k := h

theorem finishes_fail {e : SyntaxError} (h : c.left ≤ k) :
    Finishes (fail e : Reader α) c n k := ⟨rfl, h⟩

theorem finishes_fail_bind {e : SyntaxError} {f : β → Reader α} (h : c.left ≤ k) :
    Finishes (fail e >>= f) c n k := ⟨rfl, h⟩

theorem finishes_failAt_bind {span : Span} {e : SyntaxError} {f : β → Reader α}
    (h : c.left ≤ k) : Finishes (failAt span e >>= f) c n k := ⟨rfl, h⟩

theorem finishes_record {e : SyntaxError} {span : Span} {f : PUnit → Reader α}
    (h : Finishes (f ⟨⟩) (c.record e span) n k) :
    Finishes (modify (fun c => c.record e span) >>= f) c n k := h

theorem finishes_get {f : Cursor → Reader α} :
    Finishes (get >>= f) c n k ↔ Finishes (f c) c n k := Iff.rfl

theorem finishes_peek {f : Option Token → Reader α} :
    Finishes (peek >>= f) c n k ↔ Finishes (f c.tokens.head?) c n k := Iff.rfl

theorem finishes_atSymbol {s : Symbol} {f : Bool → Reader α} :
    Finishes (atSymbol s >>= f) c n k ↔ Finishes (f (c.atSymbol s)) c n k := Iff.rfl

theorem finishes_atKeyword {key : Keyword} {f : Bool → Reader α} :
    Finishes (atKeyword key >>= f) c n k ↔ Finishes (f (c.atKeyword key)) c n k := Iff.rfl

theorem finishes_spanFrom {p : Position} {f : Span → Reader α} :
    Finishes (spanFrom p >>= f) c n k ↔ Finishes (f ⟨p, c.last⟩) c n k := Iff.rfl

theorem finishes_start {f : Position → Reader α} :
    Finishes (start >>= f) c n k ↔ Finishes (f c.here.start) c n k := Iff.rfl

theorem finishes_advance (h : Finishes (f ()) c.advance n k) :
    Finishes (advance >>= f) c n k := h

theorem finishes_accept {s : Symbol} {f : Bool → Reader α}
    (hyes : c.advance.left + 1 = c.left → Finishes (f true) c.advance n k)
    (hno : Finishes (f false) c n k) : Finishes (accept s >>= f) c n k :=
  ends_bind.mpr (ends_accept.mpr ⟨fun hs => hyes (Cursor.left_symbol hs), fun _ => hno⟩)

theorem finishes_acceptKeyword {key : Keyword} {f : Bool → Reader α}
    (hyes : c.advance.left + 1 = c.left → Finishes (f true) c.advance n k)
    (hno : Finishes (f false) c n k) : Finishes (acceptKeyword key >>= f) c n k :=
  ends_bind.mpr (ends_acceptKeyword.mpr ⟨fun hk => hyes (Cursor.left_keyword hk), fun _ => hno⟩)

theorem finishes_expectName {expected : Expected} {f : Ident → Reader α} (hbad : c.left ≤ k)
    (h : ∀ id, c.advance.left + 1 = c.left → Finishes (f id) c.advance n k) :
    Finishes (expectName expected >>= f) c n k :=
  ends_bind.mpr (ends_expectName (fun _ _ ht _ => h _ (Cursor.left_advance ht))
    fun _ => ⟨rfl, hbad⟩)

theorem finishes_typeRef {f : TypeRef → Reader α} (hbad : c.left ≤ k)
    (h : ∀ type, c.advance.left + 1 = c.left → Finishes (f type) c.advance n k) :
    Finishes (typeRef >>= f) c n k :=
  ends_bind.mpr (ends_typeRef (fun _ _ ht _ => h _ (Cursor.left_advance ht))
    fun _ => ⟨rfl, hbad⟩)

theorem finishes_expectMark {s : Symbol} {mark : Mark} (hbad : c.left ≤ k)
    (h : c.advance.left + 1 = c.left → Finishes (f ()) c.advance n k) :
    Finishes (expectMark s mark >>= f) c n k :=
  ends_bind.mpr (ends_expectMark (fun hs => h (Cursor.left_symbol hs)) fun _ => ⟨rfl, hbad⟩)

theorem finishes_expectClose {s : Symbol} {enclosed : Enclosed} (hbad : c.left ≤ k)
    (h : c.advance.left + 1 = c.left → Finishes (f ()) c.advance n k) :
    Finishes (expectClose s enclosed >>= f) c n k :=
  ends_bind.mpr (ends_expectClose (fun hs => h (Cursor.left_symbol hs)) fun _ => ⟨rfl, hbad⟩)

theorem finishes_expectSemicolon {ended : Ended} (hbad : c.left ≤ k)
    (h : c.advance.left + 1 = c.left → Finishes (f ()) c.advance n k) :
    Finishes (expectSemicolon ended >>= f) c n k :=
  ends_bind.mpr (ends_expectSemicolon (fun hs => h (Cursor.left_symbol hs))
    fun _ _ => ⟨rfl, hbad⟩)

/-! ## Expressions -/

/-- The functions that read expressions finish with enough fuel. Those that read an operand
    take at least one token. -/
structure FinishesExprs (fuel : Nat) : Prop where
  binary : ∀ {level c n k}, 16 * c.left + 3 ≤ fuel → c.left ≤ n + 1 → c.left ≤ k →
    Finishes (binary fuel level) c n k
  binaryRest : ∀ {level left c n k}, 16 * c.left + 1 ≤ fuel → c.left ≤ n → c.left ≤ k →
    Finishes (binaryRest fuel level left) c n k
  unary : ∀ {c n k}, 16 * c.left + 2 ≤ fuel → c.left ≤ n + 1 → c.left ≤ k →
    Finishes (unary fuel) c n k
  fields : ∀ {object c n k}, 16 * c.left + 1 ≤ fuel → c.left ≤ n → c.left ≤ k →
    Finishes (fields fuel object) c n k
  primary : ∀ {c n k}, 16 * c.left + 1 ≤ fuel → c.left ≤ n + 1 → c.left ≤ k →
    Finishes (primary fuel) c n k
  arguments : ∀ {c n k}, 16 * c.left + 4 ≤ fuel → c.left ≤ n → c.left ≤ k →
    Finishes (arguments fuel) c n k
  argumentsRest : ∀ {c n k}, 16 * c.left + 1 ≤ fuel → c.left ≤ n → c.left ≤ k →
    Finishes (argumentsRest fuel) c n k
  structFields : ∀ {typeName c n k}, 16 * c.left + 1 ≤ fuel → c.left ≤ n → c.left ≤ k →
    Finishes (structFields fuel typeName) c n k

namespace FinishesExprs

variable {fuel : Nat}

theorem binary_succ (ih : FinishesExprs fuel) {level : Nat} (hfuel : 16 * c.left + 3 ≤ fuel + 1)
    (hok : c.left ≤ n + 1) (hbad : c.left ≤ k) :
    Finishes (Reader.binary (fuel + 1) level) c n k := by
  rw [Reader.binary]
  refine (ih.unary (n := c.left - 1) (by omega) (by omega) hbad).bind fun left d hd => ?_
  exact ih.binaryRest (by omega) (by omega) (by omega)

theorem binaryRest_succ (ih : FinishesExprs fuel) {level : Nat} {left : Expr}
    (hfuel : 16 * c.left + 1 ≤ fuel + 1) (hok : c.left ≤ n) (hbad : c.left ≤ k) :
    Finishes (Reader.binaryRest (fuel + 1) level left) c n k := by
  rw [Reader.binaryRest, finishes_peek]
  cases hop : binaryOp? c.tokens.head? with
  | none => exact finishes_pure hok
  | some op =>
      by_cases hlow : op.precedence < level
      · simp only [hlow, if_true]
        exact finishes_pure hok
      · simp only [hlow, if_false]
        obtain ⟨t, ht, -⟩ := binaryOp?_word hop
        obtain ⟨rest, ht⟩ := head?_cons ht
        have hadv := Cursor.left_advance ht
        refine finishes_advance ?_
        refine (ih.binary (n := c.advance.left) (by omega) (by omega) (by omega)).bind
          fun right d hd => ?_
        exact ih.binaryRest (by omega) (by omega) (by omega)

theorem unaryPlain (ih : FinishesExprs fuel) (hfuel : 16 * c.left + 2 ≤ fuel + 1)
    (hok : c.left ≤ n + 1) (hbad : c.left ≤ k) :
    Finishes (Reader.unaryPlain fuel c) c n k := by
  rw [Reader.unaryPlain]
  cases hop : unaryOp? c.tokens.head? with
  | some op =>
      obtain ⟨t, ht, -⟩ := unaryOp?_word hop
      obtain ⟨rest, ht⟩ := head?_cons ht
      have hadv := Cursor.left_advance ht
      refine finishes_advance ?_
      refine (ih.unary (n := n) (by omega) (by omega) (by omega)).bind fun arg d hd => ?_
      exact finishes_pure hd
  | none =>
      refine (ih.primary (n := c.left - 1) (by omega) (by omega) hbad).bind fun object d hd => ?_
      exact ih.fields (by omega) (by omega) (by omega)

theorem unary_succ (ih : FinishesExprs fuel) (hfuel : 16 * c.left + 2 ≤ fuel + 1)
    (hok : c.left ≤ n + 1) (hbad : c.left ≤ k) :
    Finishes (Reader.unary (fuel + 1)) c n k := by
  by_cases hleast : AtLeast c
  · obtain ⟨minus, number, rest, ht, hm, hn⟩ := hleast
    have hadv := Cursor.left_advance ht
    have hadv' := c.advance.left_advance_le
    refine (ends_of_ok (unary_least ht hm hn)).mpr ?_
    omega
  · exact (ends_congr (unary_plain hleast)).mpr (ih.unaryPlain hfuel hok hbad)

theorem fields_succ (ih : FinishesExprs fuel) {object : Expr}
    (hfuel : 16 * c.left + 1 ≤ fuel + 1) (hok : c.left ≤ n) (hbad : c.left ≤ k) :
    Finishes (Reader.fields (fuel + 1) object) c n k := by
  rw [Reader.fields]
  refine finishes_accept (fun hdot => ?_) (finishes_pure hok)
  refine finishes_expectName (by omega) fun name hname => ?_
  rw [finishes_atSymbol]
  split
  · exact finishes_fail_bind (by omega)
  · exact ih.fields (by omega) (by omega) (by omega)

theorem arguments_succ (ih : FinishesExprs fuel) (hfuel : 16 * c.left + 4 ≤ fuel + 1)
    (hok : c.left ≤ n) (hbad : c.left ≤ k) :
    Finishes (Reader.arguments (fuel + 1)) c n k := by
  rw [Reader.arguments, finishes_atSymbol]
  split
  · exact finishes_pure hok
  · refine (ih.binary (n := c.left - 1) (by omega) (by omega) hbad).bind fun first d hd => ?_
    refine (ih.argumentsRest (n := n) (by omega) (by omega) (by omega)).bind fun more d' hd' => ?_
    exact finishes_pure hd'

theorem argumentsRest_succ (ih : FinishesExprs fuel) (hfuel : 16 * c.left + 1 ≤ fuel + 1)
    (hok : c.left ≤ n) (hbad : c.left ≤ k) :
    Finishes (Reader.argumentsRest (fuel + 1)) c n k := by
  rw [Reader.argumentsRest]
  refine finishes_accept (fun hcomma => ?_) (finishes_pure hok)
  refine (ih.binary (n := c.advance.left) (by omega) (by omega) (by omega)).bind
    fun next d hd => ?_
  refine (ih.argumentsRest (n := n) (by omega) (by omega) (by omega)).bind fun more d' hd' => ?_
  exact finishes_pure hd'

theorem structFields_succ (ih : FinishesExprs fuel) {typeName : Ident}
    (hfuel : 16 * c.left + 1 ≤ fuel + 1) (hok : c.left ≤ n) (hbad : c.left ≤ k) :
    Finishes (Reader.structFields (fuel + 1) typeName) c n k := by
  rw [Reader.structFields, finishes_atSymbol]
  split
  · exact finishes_pure hok
  · refine finishes_expectName hbad fun name hname => ?_
    refine finishes_expectMark (by omega) fun hcolon => ?_
    refine (ih.binary (n := c.advance.advance.left) (by omega) (by omega) (by omega)).bind
      fun value d hd => finishes_accept (fun hcomma => ?_) (finishes_pure (by omega))
    refine (ih.structFields (n := n) (by omega) (by omega) (by omega)).bind fun more d' hd' => ?_
    exact finishes_pure hd'

theorem named (ih : FinishesExprs fuel) {t : Token} {rest : List Token}
    (ht : c.tokens = t :: rest) (hk : t.kind = .identifier) (hfuel : 16 * c.left + 1 ≤ fuel + 1)
    (hok : c.left ≤ n + 1) (hbad : c.left ≤ k) :
    Finishes (Reader.primary (fuel + 1)) c n k := by
  have hadv := Cursor.left_advance ht
  have hadv' := c.advance.left_advance_le
  rw [Reader.primary, finishes_get]
  simp only [ht, hk]
  refine finishes_advance ?_
  split
  · refine finishes_advance ((ih.arguments (n := c.advance.left) (by omega) (by omega)
      (by omega)).bind fun args d hd => finishes_expectClose (by omega) fun hclose => ?_)
    rw [finishes_spanFrom]
    exact finishes_pure (by omega)
  · split
    · refine finishes_advance ((ih.structFields (n := c.advance.left) (by omega) (by omega)
        (by omega)).bind fun members d hd => finishes_expectClose (by omega) fun hclose => ?_)
      rw [finishes_spanFrom]
      exact finishes_pure (by omega)
    · exact finishes_pure (by omega)

theorem primary_succ (ih : FinishesExprs fuel) (hfuel : 16 * c.left + 1 ≤ fuel + 1)
    (hok : c.left ≤ n + 1) (hbad : c.left ≤ k) :
    Finishes (Reader.primary (fuel + 1)) c n k := by
  cases ht : c.tokens with
  | nil =>
      rw [Reader.primary, finishes_get]
      simp only [ht]
      exact finishes_fail hbad
  | cons t rest =>
      by_cases hid : t.kind = .identifier
      · exact ih.named ht hid hfuel hok hbad
      have hadv := Cursor.left_advance ht
      -- A literal is one token, and taking it needs no fuel.
      have literal : ∀ e : Expr, Finishes (do advance; return e) c n k := fun e =>
        finishes_advance (finishes_pure (by omega))
      rw [Reader.primary, finishes_get]
      simp only [ht]
      split
      · refine finishes_advance ?_
        split
        · exact finishes_record (finishes_pure (by rw [Cursor.left_record]; omega))
        · exact finishes_pure (by omega)
      · exact literal _
      · exact literal _
      · exact literal _
      · exact literal _
      · exact literal _
      · refine finishes_advance ((ih.binary (n := c.advance.left) (by omega) (by omega)
          (by omega)).bind fun inner d hd => finishes_expectClose (by omega) fun hclose => ?_)
        exact finishes_pure (by omega)
      · next hk => exact absurd hk hid
      · split
        · exact finishes_fail hbad
        · exact finishes_fail hbad

end FinishesExprs

theorem finishesExprs (fuel : Nat) : FinishesExprs fuel := by
  induction fuel with
  | zero =>
      exact
        { binary        := fun h => absurd h (by omega)
          binaryRest    := fun h => absurd h (by omega)
          unary         := fun h => absurd h (by omega)
          fields        := fun h => absurd h (by omega)
          primary       := fun h => absurd h (by omega)
          arguments     := fun h => absurd h (by omega)
          argumentsRest := fun h => absurd h (by omega)
          structFields  := fun h => absurd h (by omega) }
  | succ fuel ih =>
      exact
        { binary        := ih.binary_succ
          binaryRest    := ih.binaryRest_succ
          unary         := ih.unary_succ
          fields        := ih.fields_succ
          primary       := ih.primary_succ
          arguments     := ih.arguments_succ
          argumentsRest := ih.argumentsRest_succ
          structFields  := ih.structFields_succ }

/-- An expression takes at least one token. -/
theorem finishes_expression {fuel : Nat} (hfuel : 16 * c.left + 3 ≤ fuel) (hok : c.left ≤ n + 1)
    (hbad : c.left ≤ k) : Finishes (expression fuel) c n k :=
  (finishesExprs fuel).binary hfuel hok hbad

/-! ## Simple statements -/

variable {fuel : Nat}

theorem finishes_letRest {start : Position} {mutable : Bool} {name : Ident}
    {declared : Option TypeRef} (hfuel : 16 * c.left + 3 ≤ fuel) (hok : c.left ≤ n)
    (hbad : c.left ≤ k) : Finishes (letRest fuel start mutable name declared) c n k := by
  rw [letRest]
  refine finishes_accept (fun hassign => ?_) (finishes_peek.mpr (finishes_fail_bind hbad))
  refine (finishes_expression (n := c.left) (by omega) (by omega) (by omega)).bind
    fun init d hd => finishes_expectSemicolon (by omega) fun hsemi => ?_
  rw [finishes_spanFrom]
  exact finishes_pure (by omega)

/-- A variable declaration takes its `let` before anything can go wrong. -/
theorem finishes_letParts (hlet : c.atKeyword .letKey = true) (hfuel : 16 * c.left ≤ fuel)
    (hok : c.left ≤ n + 1) (hbad : c.left ≤ k + 1) : Finishes (letParts fuel) c n k := by
  have hadv := Cursor.left_keyword hlet
  have named : ∀ (mutable : Bool) (d : Cursor), d.left + 1 ≤ c.left → Finishes (do
      let name ← expectName .variableName
      if ← accept .colon then
        let type ← typeRef
        letRest fuel c.here.start mutable name (some type)
      else letRest fuel c.here.start mutable name none) d n k := by
    intro mutable d hd
    refine finishes_expectName (by omega) fun name hname => ?_
    refine finishes_accept (fun hcolon => ?_) (finishes_letRest (by omega) (by omega) (by omega))
    refine finishes_typeRef (by omega) fun type htype => ?_
    exact finishes_letRest (by omega) (by omega) (by omega)
  rw [letParts_eq, finishes_start]
  refine finishes_advance (finishes_acceptKeyword (fun hmut => ?_) (named false _ (by omega)))
  exact named true _ (by omega)

theorem finishes_returnStmt (hret : c.atKeyword .returnKey = true) (hfuel : 16 * c.left ≤ fuel)
    (hok : c.left ≤ n + 1) (hbad : c.left ≤ k) : Finishes (returnStmt fuel) c n k := by
  have hadv := Cursor.left_keyword hret
  rw [returnStmt, finishes_start]
  refine finishes_advance ?_
  rw [finishes_atSymbol]
  split
  · refine finishes_expectSemicolon (by omega) fun hsemi => ?_
    rw [finishes_spanFrom]
    exact finishes_pure (by omega)
  · refine (finishes_expression (n := c.advance.left) (by omega) (by omega) (by omega)).map.bind
      fun value d hd => finishes_expectSemicolon (by omega) fun hsemi => ?_
    rw [finishes_spanFrom]
    exact finishes_pure (by omega)

theorem finishes_simpleStmt (hfuel : 16 * c.left + 3 ≤ fuel) (hok : c.left ≤ n + 1)
    (hbad : c.left ≤ k) : Finishes (simpleStmt fuel) c n k := by
  rw [simpleStmt]
  refine (finishes_expression (n := c.left - 1) hfuel (by omega) hbad).bind fun e d hd => ?_
  rw [finishes_peek]
  cases hop : assignOp? d.tokens.head? with
  | none =>
      refine finishes_expectSemicolon (by omega) fun hsemi => ?_
      rw [finishes_spanFrom]
      exact finishes_pure (by omega)
  | some op =>
      cases hparts : targetParts e [] with
      | none =>
          simp only [assignTarget, hparts]
          exact finishes_failAt_bind (by omega)
      | some parts =>
          have hadv := d.left_advance_le
          simp only [assignTarget, hparts, pure_bind]
          refine finishes_advance ((finishes_expression (n := d.left) (by omega) (by omega)
            (by omega)).bind fun value d' hd' => finishes_expectSemicolon (by omega) fun hsemi => ?_)
          rw [finishes_spanFrom]
          exact finishes_pure (by omega)

/-! ## Recovery -/

/-- A step that gave up without moving is followed by a skip, if something is skipped here. No
    panic gets past this level. -/
theorem ends_recover_shorter {level : Cursor.Level} {step : Reader α} {S : α → List Word → Prop}
    (hread : Reads step c S) (hstep : Finishes step c (c.left - 1) c.left)
    (hskip : Finishes step c (c.left - 1) (c.left - 1) ∨
      0 < Cursor.skipCount level 0 c.tokens) :
    Ends (recover level step) c (fun _ d => d.left ≤ c.left - 1) (fun _ _ => False) := by
  have hmove : ∀ d : Cursor, (d.synchronize level).left ≤
      d.left - Cursor.skipCount level 0 d.tokens := fun d => Cursor.left_skip _ d
  rcases hskip with hstep' | hpos
  · refine ends_recover.mpr (Ends.mono hstep' (fun a d hd => hd) fun stop d he => ?_)
    obtain ⟨rfl, hd⟩ := he
    refine ⟨fun _ => ?_, Stop.noConfusion⟩
    have := hmove d
    omega
  · refine ends_recover.mpr
      (Ends.mono (Ends.and hread hstep) (fun a d hd => hd.2) fun stop d he => ?_)
    obtain ⟨⟨hext, -⟩, rfl, hd⟩ := he
    refine ⟨fun _ => ?_, Stop.noConfusion⟩
    have hsync := hmove d
    by_cases hsame : d.left = c.left
    · rw [hext.tokens.eq_of_length hsame] at hsync
      omega
    · omega

/-- A token that begins no item of its own is skipped. -/
theorem skipCount_pos {level : Cursor.Level} {t : Token} {rest : List Token}
    (hfn : t.kind ≠ .keyword .fnKey) (hsignal : t.kind ≠ .keyword .signalKey)
    (hat : t.kind ≠ .symbol .atSign) (hlet : t.kind ≠ .keyword .letKey)
    (hclose : t.kind = .symbol .rbrace → level = .declaration) :
    0 < Cursor.skipCount level 0 (t :: rest) := by
  rw [Cursor.skipCount]
  split
  · exact absurd ‹_› hfn
  · exact absurd ‹_› hsignal
  · exact absurd ‹_› hat
  · simp
  · exact absurd ‹_› hlet
  · exact Nat.succ_pos _
  · simp [hclose ‹_›]
  · exact Nat.succ_pos _

/-! ## Statements -/

/-- The functions that read statements finish with enough fuel. -/
structure FinishesStmts (fuel : Nat) : Prop where
  block : ∀ {c n k}, c.atSymbol .lbrace = true → 16 * c.left + 1 ≤ fuel → c.left ≤ n + 1 →
    c.left ≤ k → Finishes (block fuel) c n k
  blockRest : ∀ {opening done c n k}, 16 * c.left + 5 ≤ fuel → c.left ≤ n → c.left ≤ k →
    Finishes (blockRest fuel opening done) c n k
  statement : ∀ {c n k}, 16 * c.left + 4 ≤ fuel → c.left ≤ n + 1 →
    c.left ≤ k ∨ (c.atKeyword .letKey = true ∧ c.left ≤ k + 1) →
    Finishes (statement fuel) c n k
  conditional : ∀ {c n k}, c.atKeyword .ifKey = true → 16 * c.left + 1 ≤ fuel →
    c.left ≤ n + 1 → c.left ≤ k → Finishes (conditional fuel) c n k
  expectBlock : ∀ {head c n k}, 16 * c.left + 2 ≤ fuel → c.left ≤ n + 1 → c.left ≤ k →
    Finishes (expectBlock fuel head) c n k

namespace FinishesStmts

theorem block_succ (ih : FinishesStmts fuel) (hc : c.atSymbol .lbrace = true)
    (hfuel : 16 * c.left + 1 ≤ fuel + 1) (hok : c.left ≤ n + 1) (hbad : c.left ≤ k) :
    Finishes (Reader.block (fuel + 1)) c n k := by
  have hadv := Cursor.left_symbol hc
  rw [Reader.block, finishes_get]
  exact finishes_advance (ih.blockRest (by omega) (by omega) (by omega))

theorem expectBlock_succ (ih : FinishesStmts fuel) {head : BlockHead}
    (hfuel : 16 * c.left + 2 ≤ fuel + 1) (hok : c.left ≤ n + 1) (hbad : c.left ≤ k) :
    Finishes (Reader.expectBlock (fuel + 1) head) c n k := by
  rw [Reader.expectBlock, finishes_atSymbol]
  split
  · next hc => exact ih.block hc (by omega) hok hbad
  · refine ends_bind.mpr (ends_rejectAssign ?_ fun _ _ => ⟨rfl, hbad⟩)
    exact finishes_peek.mpr (finishes_fail hbad)

theorem conditional_succ (ih : FinishesStmts fuel) (hc : c.atKeyword .ifKey = true)
    (hfuel : 16 * c.left + 1 ≤ fuel + 1) (hok : c.left ≤ n + 1) (hbad : c.left ≤ k) :
    Finishes (Reader.conditional (fuel + 1)) c n k := by
  have hadv := Cursor.left_keyword hc
  rw [Reader.conditional, finishes_start]
  refine finishes_advance ((finishes_expression (n := c.advance.left) (by omega) (by omega)
    (by omega)).bind fun test d₁ hd₁ => ?_)
  refine (ih.expectBlock (n := c.advance.left) (by omega) (by omega) (by omega)).bind
    fun consequent d₂ hd₂ => finishes_acceptKeyword (fun helse => ?_) (finishes_pure (by omega))
  simp only [if_true, finishes_atKeyword]
  split
  · next hif =>
      refine (ih.conditional (n := n) hif (by omega) (by omega) (by omega)).bind
        fun inner d₃ hd₃ => finishes_pure hd₃
  · refine (ih.expectBlock (n := n) (by omega) (by omega) (by omega)).bind
      fun b d₃ hd₃ => finishes_pure hd₃

theorem statement_succ (ih : FinishesStmts fuel) (hfuel : 16 * c.left + 4 ≤ fuel + 1)
    (hok : c.left ≤ n + 1)
    (hbad : c.left ≤ k ∨ (c.atKeyword .letKey = true ∧ c.left ≤ k + 1)) :
    Finishes (Reader.statement (fuel + 1)) c n k := by
  -- Only a `let` may not give up before its first token is taken.
  have other : c.kindAt 0 ≠ some (.keyword .letKey) → c.left ≤ k := by
    intro hne
    rcases hbad with h | ⟨hlet, -⟩
    · exact h
    · exact absurd (beq_iff_eq.mp hlet) hne
  rw [Reader.statement, finishes_get]
  split
  · next hk =>
      have hlet : c.atKeyword .letKey = true := by simp [Cursor.atKeyword, hk]
      refine (finishes_letParts (n := n) hlet (by omega) hok (by omega)).bind
        fun d d' hd => finishes_pure hd
  · next hk =>
      have hif : c.atKeyword .ifKey = true := by simp [Cursor.atKeyword, hk]
      exact (ih.conditional hif (by omega) hok (other (by simp [hk]))).map
  · next hk =>
      have hwhile : c.atKeyword .whileKey = true := by simp [Cursor.atKeyword, hk]
      have hadv := Cursor.left_keyword hwhile
      have hbad := other (by simp [hk])
      rw [finishes_start]
      refine finishes_advance ((finishes_expression (n := c.advance.left) (by omega) (by omega)
        (by omega)).bind fun test d₁ hd₁ => ?_)
      refine (ih.expectBlock (n := n) (by omega) (by omega) (by omega)).bind
        fun body d₂ hd₂ => finishes_pure hd₂
  · next hk =>
      have hret : c.atKeyword .returnKey = true := by simp [Cursor.atKeyword, hk]
      exact finishes_returnStmt hret (by omega) hok (other (by simp [hk]))
  · next hk =>
      have hbrace : c.atSymbol .lbrace = true := by simp [Cursor.atSymbol, hk]
      exact (ih.block hbrace (by omega) hok (other (by simp [hk]))).map
  · next hk => exact finishes_fail (other (by simp [hk]))
  · next hlet _ _ _ _ _ => exact finishes_simpleStmt (by omega) hok (other hlet)

/-- A statement that begins neither with a brace nor like a declaration takes a token, or one is
    skipped. -/
theorem recovered (ih : FinishesStmts fuel) (hfuel : 16 * c.left + 4 ≤ fuel)
    (hclose : ¬c.atSymbol .rbrace = true) (hempty : ¬c.tokens.isEmpty = true)
    (hdecl : ¬c.atDeclaration = true) :
    Ends (recover .statement (Reader.statement fuel)) c (fun _ d => d.left ≤ c.left - 1)
      (fun _ _ => False) := by
  refine ends_recover_shorter ((readsStmts .spelled fuel).statement c)
    (ih.statement hfuel (by omega) (.inl (Nat.le_refl _))) ?_
  cases ht : c.tokens with
  | nil => simp [ht] at hempty
  | cons t rest =>
      have hpos : 1 ≤ c.left := by rw [Cursor.left, ht]; simp
      by_cases hlet : t.kind = .keyword .letKey
      · left
        have hat : c.atKeyword .letKey = true := Cursor.atKeyword_iff.mpr ⟨t, rest, ht, hlet⟩
        exact ih.statement hfuel (by omega) (.inr ⟨hat, by omega⟩)
      · right
        simp only [Cursor.atDeclaration, Cursor.atKeyword, Cursor.atSymbol, Cursor.kindAt_zero ht,
          Bool.or_eq_true, beq_iff_eq, Option.some.injEq, not_or] at hdecl hclose
        exact skipCount_pos hdecl.1.1 hdecl.1.2 hdecl.2 hlet fun h => absurd h hclose

theorem blockRest_succ (ih : FinishesStmts fuel) {opening : Span} {done : List (Stmt Unit)}
    (hfuel : 16 * c.left + 5 ≤ fuel + 1) (hok : c.left ≤ n) (hbad : c.left ≤ k) :
    Finishes (Reader.blockRest (fuel + 1) opening done) c n k := by
  rw [Reader.blockRest, finishes_get]
  split
  · have hadv := c.left_advance_le
    refine finishes_advance ?_
    rw [finishes_spanFrom]
    exact finishes_pure (by omega)
  · next hclose =>
      split
      · exact hok
      · next hempty =>
          split
          · exact hok
          · next hdecl =>
              have hpos : 1 ≤ c.left := by
                cases ht : c.tokens with
                | nil => simp [ht] at hempty
                | cons t rest => rw [Cursor.left, ht]; simp
              refine ends_bind.mpr (Ends.mono (ih.recovered (by omega) hclose hempty hdecl)
                (fun found d hd => ?_) fun _ _ h => h.elim)
              cases found with
              | none => exact ih.blockRest (by omega) (by omega) (by omega)
              | some st => exact ih.blockRest (by omega) (by omega) (by omega)

end FinishesStmts

theorem finishesStmts (fuel : Nat) : FinishesStmts fuel := by
  induction fuel with
  | zero =>
      exact
        { block       := fun _ h => absurd h (by omega)
          blockRest   := fun h => absurd h (by omega)
          statement   := fun h => absurd h (by omega)
          conditional := fun _ h => absurd h (by omega)
          expectBlock := fun h => absurd h (by omega) }
  | succ fuel ih =>
      exact
        { block       := ih.block_succ
          blockRest   := ih.blockRest_succ
          statement   := ih.statement_succ
          conditional := ih.conditional_succ
          expectBlock := ih.expectBlock_succ }

/-! ## Declarations -/

theorem finishes_parametersRest (fuel : Nat) : ∀ {c : Cursor} {n k : Nat},
    16 * c.left + 1 ≤ fuel → c.left ≤ n + 1 → c.left ≤ k →
    Finishes (parametersRest fuel) c n k := by
  induction fuel with
  | zero => exact fun h => absurd h (by omega)
  | succ fuel ih =>
      intro c n k hfuel hok hbad
      rw [parametersRest, finishes_peek]
      cases ht : c.tokens with
      | nil => exact finishes_fail hbad
      | cons t rest =>
          by_cases hk : t.kind = .identifier
          · have hadv := Cursor.left_advance ht
            simp only [List.head?_cons, hk, if_true]
            refine finishes_advance (finishes_accept (fun hcolon => ?_)
              (finishes_failAt_bind (by omega)))
            refine finishes_typeRef (by omega) fun type htype => finishes_accept (fun hcomma => ?_) ?_
            · refine (ih (n := n) (by omega) (by omega) (by omega)).bind fun more d hd => ?_
              exact finishes_pure hd
            · refine finishes_expectClose (by omega) fun hclose => ?_
              exact finishes_pure (by omega)
          · simp only [List.head?_cons, hk, if_false]
            exact finishes_fail hbad

theorem finishes_parameters (hfuel : 16 * c.left + 1 ≤ fuel) (hok : c.left ≤ n + 1)
    (hbad : c.left ≤ k) : Finishes (parameters fuel) c n k := by
  rw [parameters]
  refine finishes_accept (fun hclose => finishes_pure (by omega)) ?_
  exact finishes_parametersRest fuel hfuel hok hbad

theorem finishes_exportMark (hc : c.atSymbol .atSign = true) (hfuel : 16 * c.left ≤ fuel)
    (hok : c.left ≤ n + 1) (hbad : c.left ≤ k + 1) : Finishes (exportMark fuel) c n k := by
  have hadv := Cursor.left_symbol hc
  rw [exportMark, finishes_start]
  refine finishes_advance (finishes_expectName (by omega) fun name hname => ?_)
  by_cases hexport : name.name = "export"
  · simp only [hexport, ne_eq, not_true_eq_false, if_false]
    refine finishes_accept (fun hopen => ?_) ?_
    · refine finishes_expectName (by omega) fun hint hhint => ?_
      refine finishes_expectMark (by omega) fun hparen => ?_
      refine ((finishesExprs fuel).arguments (n := c.advance.left) (by omega) (by omega)
        (by omega)).bind fun args d hd => finishes_expectClose (by omega) fun hclose => ?_
      rw [finishes_spanFrom]
      refine finishes_expectClose (by omega) fun hclose' => ?_
      rw [finishes_spanFrom]
      exact finishes_pure (by omega)
    · simp only [Bool.false_eq_true, if_false, finishes_spanFrom]
      exact finishes_pure (by omega)
  · simp only [hexport, ne_eq, not_false_eq_true, if_true]
    exact finishes_failAt_bind (by omega)

theorem finishes_globalDecl {exported : Option ExportMark} (hc : c.atKeyword .letKey = true)
    (hfuel : 16 * c.left ≤ fuel) (hok : c.left ≤ n + 1) (hbad : c.left ≤ k + 1) :
    Finishes (globalDecl fuel exported) c n k := by
  rw [globalDecl]
  exact (finishes_letParts hc hfuel hok hbad).bind fun d d' hd => finishes_pure hd

theorem finishes_returnType (hok : c.left ≤ n) (hbad : c.left ≤ k) :
    Finishes returnType c n k := by
  rw [returnType]
  refine finishes_accept (fun harrow => ?_) (finishes_pure hok)
  simp only [if_true, finishes_peek]
  cases ht : c.advance.tokens with
  | nil => exact finishes_fail (by omega)
  | cons t rest =>
      have hadv := Cursor.left_advance ht
      by_cases hk : t.kind = .identifier
      · simp only [List.head?_cons, hk, if_true]
        exact finishes_advance (finishes_pure (by omega))
      · simp only [List.head?_cons, hk, if_false]
        exact finishes_fail (by omega)

theorem finishes_functionDecl (hc : c.atKeyword .fnKey = true) (hfuel : 16 * c.left ≤ fuel)
    (hok : c.left ≤ n + 1) (hbad : c.left ≤ k + 1) : Finishes (functionDecl fuel) c n k := by
  have hadv := Cursor.left_keyword hc
  rw [functionDecl, finishes_start]
  refine finishes_advance (finishes_expectName (by omega) fun name hname => ?_)
  refine finishes_accept (fun hopen => ?_) (finishes_peek.mpr (finishes_fail_bind (by omega)))
  refine (finishes_parameters (n := c.advance.left) (by omega) (by omega) (by omega)).bind
    fun params d₁ hd₁ => ?_
  refine (finishes_returnType (n := c.advance.left) (by omega) (by omega)).bind
    fun result d₂ hd₂ => ?_
  rw [finishes_atSymbol]
  by_cases hbrace : d₂.atSymbol .lbrace = true
  · simp only [hbrace, Bool.not_true, Bool.false_eq_true, if_false]
    refine ((finishesStmts fuel).block (n := n) hbrace (by omega) (by omega) (by omega)).bind
      fun body d₃ hd₃ => finishes_pure hd₃
  · simp only [hbrace, Bool.not_false, if_true]
    exact finishes_peek.mpr (finishes_fail_bind (by omega))

theorem finishes_signalDecl (hc : c.atKeyword .signalKey = true) (hfuel : 16 * c.left ≤ fuel)
    (hok : c.left ≤ n + 1) (hbad : c.left ≤ k + 1) : Finishes (signalDecl fuel) c n k := by
  have hadv := Cursor.left_keyword hc
  rw [signalDecl, finishes_start]
  refine finishes_advance (finishes_expectName (by omega) fun name hname => ?_)
  refine finishes_expectMark (by omega) fun hopen => ?_
  refine (finishes_parameters (n := c.advance.left) (by omega) (by omega) (by omega)).bind
    fun params d hd => finishes_expectSemicolon (by omega) fun hsemi => ?_
  rw [finishes_spanFrom]
  exact finishes_pure (by omega)

/-- The tokens that begin a declaration. -/
def Begins (t : Token) : Prop :=
  t.kind = .symbol .atSign ∨ t.kind = .keyword .letKey ∨ t.kind = .keyword .fnKey ∨
    t.kind = .keyword .signalKey

/-- A declaration takes a token, or it does not begin like one. -/
theorem finishes_declaration {t : Token} {rest : List Token} (ht : c.tokens = t :: rest)
    (hfuel : 16 * c.left ≤ fuel) (hok : c.left ≤ n + 1)
    (hbad : c.left ≤ k ∨ (Begins t ∧ c.left ≤ k + 1)) :
    Finishes (declaration fuel) c n k := by
  have hadv := Cursor.left_advance ht
  have hbad' : c.left ≤ k + 1 := by
    rcases hbad with h | ⟨-, h⟩ <;> omega
  have hkey : ∀ k, t.kind = .keyword k → c.atKeyword k = true := fun k hk =>
    Cursor.atKeyword_iff.mpr ⟨t, rest, ht, hk⟩
  rw [declaration, finishes_peek]
  simp only [ht, List.head?_cons, Option.map_some]
  split
  · next hk =>
      have hat : c.atSymbol .atSign = true :=
        Cursor.atSymbol_iff.mpr ⟨t, rest, ht, Option.some.inj hk⟩
      refine (finishes_exportMark (n := c.advance.left) hat hfuel (by omega) hbad').bind
        fun mark d hd => ?_
      rw [finishes_atKeyword]
      split
      · next hlet => exact (finishes_globalDecl hlet (by omega) (by omega) (by omega)).map.map
      · exact finishes_peek.mpr (finishes_fail (by omega))
  · next hk => exact (finishes_globalDecl (hkey _ (Option.some.inj hk)) hfuel hok hbad').map.map
  · next hk => exact (finishes_functionDecl (hkey _ (Option.some.inj hk)) hfuel hok hbad').map.map
  · next hk => exact (finishes_signalDecl (hkey _ (Option.some.inj hk)) hfuel hok hbad').map.map
  · exact finishes_advance (finishes_pure (by omega))
  -- No token is taken here, which is allowed only where no declaration begins.
  · next hat hlet hfn hsignal _ =>
      refine finishes_fail (hbad.resolve_right fun h => ?_)
      rcases h.1 with hk | hk | hk | hk
      · exact hat (congrArg some hk)
      · exact hlet (congrArg some hk)
      · exact hfn (congrArg some hk)
      · exact hsignal (congrArg some hk)

/-- A round on the level of declarations takes a token: the declaration itself does, or the
    recovery behind it. No panic gets out. -/
theorem ends_recover_declaration {t : Token} {rest : List Token} (ht : c.tokens = t :: rest)
    (hfuel : 16 * c.left ≤ fuel) :
    Ends (recover .declaration (declaration fuel)) c (fun _ d => d.left ≤ c.left - 1)
      (fun _ _ => False) := by
  have hadv := Cursor.left_advance ht
  have hskip : Finishes (declaration fuel) c (c.left - 1) (c.left - 1) ∨
      0 < Cursor.skipCount .declaration 0 c.tokens := by
    by_cases hb : Begins t
    · exact .inl (finishes_declaration ht hfuel (by omega) (.inr ⟨hb, by omega⟩))
    · simp only [Begins, not_or] at hb
      rw [ht]
      exact .inr (skipCount_pos hb.2.2.1 hb.2.2.2 hb.1 hb.2.1 fun _ => rfl)
  exact ends_recover_shorter (reads_declaration .spelled fuel c)
    (finishes_declaration ht hfuel (by omega) (.inl (Nat.le_refl _))) hskip

/-- Reading a script ends well, with no token left. -/
theorem ends_declarations (fuel : Nat) : ∀ {c : Cursor}, 16 * c.left + 1 ≤ fuel →
    Ends (declarations fuel) c (fun _ d => d.tokens = []) (fun _ _ => False) := by
  induction fuel with
  | zero => exact fun h => absurd h (by omega)
  | succ fuel ih =>
      intro c hfuel
      rw [declarations, ends_bind, ends_get]
      cases ht : c.tokens with
      | nil => exact ht
      | cons t rest =>
          have hadv := Cursor.left_advance ht
          simp only [List.isEmpty_cons, Bool.false_eq_true, if_false, ends_bind]
          refine Ends.mono (ends_recover_declaration ht (by omega)) (fun found d hd => ?_)
            fun _ _ h => h
          exact Ends.mono (ih (by omega)) (fun more d' hd' => hd') fun _ _ h => h

end Reader

end SceneScript
