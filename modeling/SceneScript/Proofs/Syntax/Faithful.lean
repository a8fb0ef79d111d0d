import SceneScript.Proofs.Syntax.Reading
import SceneScript.Proofs.Syntax.Spelling

/-!
# Reading loses nothing

Whatever a reading step does, it moves forward and keeps the errors that were there; when it
succeeds without a new error, its result and the words between the two cursors are related in every
way that the rules of writing respect, so the words are a spelling of the result. A step that gives
up has recorded an error, so the skipping that follows never goes unnoticed.

* **`Reads`** — a step of which this holds; **`Reads.bind`** puts steps together.
* **`Reader.ReadsExprs`**, **`Reader.ReadsStmts`** — the functions of the parser at one amount of
  fuel.
* **`Reader.reads_declarations`** — whole scripts.
-/

namespace SceneScript

variable {α β : Type}

/-- The step moves forward; without a new error it has read words that satisfy `S`, and it
    gives up only with a new error. -/
def Reads (x : Reader α) (c : Cursor) (S : α → List Word → Prop) : Prop :=
  Ends x c
    (fun a d => c.Extends d ∧ (d.errors = c.errors → ∃ ws, c.words = ws ++ d.words ∧ S a ws))
    (fun stop d => c.Extends d ∧ (stop = .panic → d.errors ≠ c.errors))

namespace Reads

variable {c : Cursor} {x : Reader α} {f : α → Reader β} {S S' : α → List Word → Prop}
  {T : β → List Word → Prop}

theorem mono (h : Reads x c S) (hS : ∀ a ws, S a ws → S' a ws) : Reads x c S' := by
  refine Ends.mono h (fun a d ha => ⟨ha.1, fun herr => ?_⟩) fun _ _ he => he
  obtain ⟨ws, hws, hs⟩ := ha.2 herr
  exact ⟨ws, hws, hS a ws hs⟩

/-- It moves forward, whatever it has read. -/
theorem any (h : Reads x c S) : Reads x c fun _ _ => True := h.mono fun _ _ _ => trivial

/-- One step after another: the words of the first come before those of the second. -/
theorem bind (hx : Reads x c S)
    (hf : ∀ a d, c.Extends d → Reads (f a) d fun b us => ∀ ws, S a ws → T b (ws ++ us)) :
    Reads (x >>= f) c T := by
  refine ends_bind.mpr (Ends.mono hx (fun a d ha => ?_) fun _ _ he => he)
  obtain ⟨hcd, hread⟩ := ha
  refine Ends.mono (hf a d hcd) (fun b e hb => ?_) fun stop e he => ?_
  · obtain ⟨hde, hread'⟩ := hb
    refine ⟨hcd.trans hde, fun herr => ?_⟩
    have hd := hcd.errors_eq hde herr
    obtain ⟨ws, hws, hS⟩ := hread hd
    obtain ⟨us, hus, hT⟩ := hread' (herr.trans hd.symm)
    exact ⟨ws ++ us, by rw [hws, hus, List.append_assoc], hT ws hS⟩
  · obtain ⟨hde, hpanic⟩ := he
    refine ⟨hcd.trans hde, fun hstop herr => hpanic hstop ?_⟩
    exact herr.trans (hcd.errors_eq hde herr).symm

theorem map {g : α → β} (hx : Reads x c S) (hg : ∀ a ws, S a ws → T (g a) ws) :
    Reads (g <$> x) c T := ends_map.mpr (hx.mono hg)

end Reads

namespace Reader

variable {c : Cursor} {S : α → List Word → Prop} {f : Unit → Reader α}

theorem reads_pure {a : α} (h : S a []) : Reads (pure a) c S :=
  ⟨.refl c, fun _ => ⟨[], rfl, h⟩⟩

theorem reads_outOfFuel : Reads (throw .outOfFuel) c S := ⟨.refl c, Stop.noConfusion⟩

theorem reads_fail {e : SyntaxError} : Reads (fail e) c S :=
  ⟨c.extends_record e c.here, fun _ => c.record_errors_ne e c.here⟩

theorem reads_failAt {span : Span} {e : SyntaxError} : Reads (failAt span e) c S :=
  ⟨c.extends_record e span, fun _ => c.record_errors_ne e span⟩

/-- What stands behind a step that gives up is not reached. -/
theorem reads_fail_bind {e : SyntaxError} {f : β → Reader α} : Reads (fail e >>= f) c S :=
  reads_fail (S := S)

theorem reads_failAt_bind {span : Span} {e : SyntaxError} {f : β → Reader α} :
    Reads (failAt span e >>= f) c S := reads_failAt (S := S)

/-- Behind a recorded error nothing has to be shown. -/
theorem reads_record {e : SyntaxError} {span : Span} :
    Reads (modify fun c => c.record e span) c fun _ _ => False :=
  ⟨c.extends_record e span, fun h => absurd h (c.record_errors_ne e span)⟩

/-! ## Steps that look and do not move -/

theorem reads_get {f : Cursor → Reader α} : Reads (get >>= f) c S ↔ Reads (f c) c S := Iff.rfl

theorem reads_peek {f : Option Token → Reader α} :
    Reads (peek >>= f) c S ↔ Reads (f c.tokens.head?) c S := Iff.rfl

theorem reads_atSymbol {s : Symbol} {f : Bool → Reader α} :
    Reads (atSymbol s >>= f) c S ↔ Reads (f (c.atSymbol s)) c S := Iff.rfl

theorem reads_atKeyword {k : Keyword} {f : Bool → Reader α} :
    Reads (atKeyword k >>= f) c S ↔ Reads (f (c.atKeyword k)) c S := Iff.rfl

theorem reads_spanFrom {p : Position} {f : Span → Reader α} :
    Reads (spanFrom p >>= f) c S ↔ Reads (f ⟨p, c.last⟩) c S := Iff.rfl

theorem reads_start {f : Position → Reader α} :
    Reads (start >>= f) c S ↔ Reads (f c.here.start) c S := Iff.rfl

/-! ## Steps that move by one token -/

theorem words_cons {t : Token} {rest : List Token} (h : c.tokens = t :: rest) :
    c.words = t.word :: c.advance.words := by
  rw [Cursor.words, Cursor.words, Cursor.advance_tokens h, h, List.map_cons]

theorem words_symbol {s : Symbol} (h : c.atSymbol s = true) :
    c.words = .symbol s :: c.advance.words := by
  obtain ⟨t, rest, ht, hk⟩ := Cursor.atSymbol_iff.mp h
  rw [words_cons ht, Token.word_of_symbol hk]

theorem words_keyword {k : Keyword} (h : c.atKeyword k = true) :
    c.words = .keyword k :: c.advance.words := by
  obtain ⟨t, rest, ht, hk⟩ := Cursor.atKeyword_iff.mp h
  rw [words_cons ht, Token.word_of_keyword hk]

/-- What is read behind the next token is read behind its word. -/
theorem reads_behind {x : Reader α} {u : Word} (hw : c.words = u :: c.advance.words)
    (h : Reads x c.advance fun a ws => S a (u :: ws)) :
    Ends x c.advance
      (fun a d => c.Extends d ∧ (d.errors = c.errors → ∃ ws, c.words = ws ++ d.words ∧ S a ws))
      (fun stop d => c.Extends d ∧ (stop = .panic → d.errors ≠ c.errors)) := by
  have hadv := c.extends_advance
  refine Ends.mono h (fun a d ha => ⟨hadv.trans ha.1, fun herr => ?_⟩) fun stop d he => ?_
  · obtain ⟨ws, hws, hS⟩ := ha.2 (herr.trans c.advance_errors.symm)
    exact ⟨u :: ws, by rw [hw, hws, List.cons_append], hS⟩
  · exact ⟨hadv.trans he.1, fun hp herr => he.2 hp (herr.trans c.advance_errors.symm)⟩

theorem reads_advance {t : Token} {rest : List Token} (ht : c.tokens = t :: rest)
    (h : Reads (f ()) c.advance fun a ws => S a (t.word :: ws)) : Reads (advance >>= f) c S :=
  reads_behind (words_cons ht) h

theorem reads_accept {s : Symbol} {f : Bool → Reader α}
    (hyes : Reads (f true) c.advance fun a ws => S a (.symbol s :: ws))
    (hno : Reads (f false) c S) : Reads (accept s >>= f) c S :=
  ends_bind.mpr (ends_accept.mpr ⟨fun hs => reads_behind (words_symbol hs) hyes, fun _ => hno⟩)

theorem reads_acceptKeyword {k : Keyword} {f : Bool → Reader α}
    (hyes : Reads (f true) c.advance fun a ws => S a (.keyword k :: ws))
    (hno : Reads (f false) c S) : Reads (acceptKeyword k >>= f) c S :=
  ends_bind.mpr
    (ends_acceptKeyword.mpr ⟨fun hk => reads_behind (words_keyword hk) hyes, fun _ => hno⟩)

theorem reads_expectName {expected : Expected} {f : Ident → Reader α}
    (h : ∀ id, Reads (f id) c.advance fun a ws => S a (.name id.name :: ws)) :
    Reads (expectName expected >>= f) c S := by
  refine ends_bind.mpr (ends_expectName (fun t rest ht hk => ?_) fun _ => reads_fail (S := S))
  have hw : c.words = .name t.lexeme :: c.advance.words := by
    rw [words_cons ht, Token.word_of_identifier hk]
  exact reads_behind hw (h ⟨t.lexeme, t.span⟩)

theorem reads_typeRef {f : TypeRef → Reader α}
    (h : ∀ type, Reads (f type) c.advance fun a ws => S a (.name type.name :: ws)) :
    Reads (typeRef >>= f) c S := by
  refine ends_bind.mpr (ends_typeRef (fun t rest ht hk => ?_) fun _ => reads_fail (S := S))
  have hw : c.words = .name t.lexeme :: c.advance.words := by
    rw [words_cons ht, Token.word_of_identifier hk]
  exact reads_behind hw (h ⟨t.lexeme, t.span⟩)

theorem reads_expectMark {s : Symbol} {mark : Mark}
    (h : Reads (f ()) c.advance fun a ws => S a (.symbol s :: ws)) :
    Reads (expectMark s mark >>= f) c S :=
  ends_bind.mpr (ends_expectMark (fun hs => reads_behind (words_symbol hs) h)
    fun _ => reads_fail (S := S))

theorem reads_expectClose {s : Symbol} {enclosed : Enclosed}
    (h : Reads (f ()) c.advance fun a ws => S a (.symbol s :: ws)) :
    Reads (expectClose s enclosed >>= f) c S :=
  ends_bind.mpr (ends_expectClose (fun hs => reads_behind (words_symbol hs) h)
    fun _ => reads_fail (S := S))

theorem reads_expectSemicolon {ended : Ended}
    (h : Reads (f ()) c.advance fun a ws => S a (.symbol .semicolon :: ws)) :
    Reads (expectSemicolon ended >>= f) c S :=
  ends_bind.mpr (ends_expectSemicolon (fun hs => reads_behind (words_symbol hs) h)
    fun _ _ => reads_failAt (S := S))

theorem reads_rejectAssign (h : Reads (f ()) c S) : Reads (rejectAssign >>= f) c S :=
  ends_bind.mpr (ends_rejectAssign h fun _ _ => reads_failAt (S := S))

/-! ## Operators -/

theorem head?_cons {t : Token} (h : c.tokens.head? = some t) :
    ∃ rest, c.tokens = t :: rest := by
  cases htokens : c.tokens with
  | nil => rw [htokens] at h; cases h
  | cons u rest => rw [htokens] at h; cases h; exact ⟨rest, rfl⟩

theorem binaryOp?_word {next : Option Token} {op : BinaryOp} (h : binaryOp? next = some op) :
    ∃ t, next = some t ∧ t.word = op.word := by
  cases next with
  | none => cases h
  | some t =>
      refine ⟨t, rfl, ?_⟩
      simp only [binaryOp?] at h
      rw [Token.word]
      split at h <;> cases h <;> rename_i hk <;> rw [hk] <;> rfl

theorem unaryOp?_word {next : Option Token} {op : UnaryOp} (h : unaryOp? next = some op) :
    ∃ t, next = some t ∧ t.word = op.word := by
  cases next with
  | none => cases h
  | some t =>
      refine ⟨t, rfl, ?_⟩
      simp only [unaryOp?] at h
      rw [Token.word]
      split at h <;> cases h <;> rename_i hk <;> rw [hk] <;> rfl

theorem assignOp?_word {next : Option Token} {op : AssignOp} (h : assignOp? next = some op) :
    ∃ t, next = some t ∧ t.word = op.word := by
  cases next with
  | none => cases h
  | some t =>
      refine ⟨t, rfl, ?_⟩
      simp only [assignOp?] at h
      rw [Token.word]
      split at h <;> cases h <;> rename_i hk <;> rw [hk] <;> rfl

/-! ## Expressions -/

variable {R : SpellingRules}

/-- The rest of an expression continues whatever words stand before it. -/
def Continues (R : SpellingRules) (before : Expr) (e : Expr) (us : List Word) : Prop :=
  ∀ ws, R.expr before ws → R.expr e (ws ++ us)

theorem continues_refl (e : Expr) : Continues R e e [] := by
  intro ws h
  rwa [List.append_nil]

/-- The functions that read expressions lose nothing, at one amount of fuel. -/
structure ReadsExprs (R : SpellingRules) (fuel : Nat) : Prop where
  binary        : ∀ level c, Reads (binary fuel level) c R.expr
  binaryRest    : ∀ level left c, Reads (binaryRest fuel level left) c (Continues R left)
  unary         : ∀ c, Reads (unary fuel) c R.expr
  fields        : ∀ object c, Reads (fields fuel object) c (Continues R object)
  primary       : ∀ c, Reads (primary fuel) c R.expr
  arguments     : ∀ c, Reads (arguments fuel) c R.args
  argumentsRest : ∀ c, Reads (argumentsRest fuel) c R.moreArgs
  structFields  : ∀ typeName c, Reads (structFields fuel typeName) c R.fields

namespace ReadsExprs

variable {fuel : Nat}

theorem binaryRest_succ (ih : ReadsExprs R fuel) (level : Nat) (left : Expr) (c : Cursor) :
    Reads (Reader.binaryRest (fuel + 1) level left) c (Continues R left) := by
  rw [Reader.binaryRest, reads_peek]
  cases hop : binaryOp? c.tokens.head? with
  | none => exact reads_pure (continues_refl left)
  | some op =>
      by_cases hlow : op.precedence < level
      · simp only [hlow, if_true]
        exact reads_pure (continues_refl left)
      · simp only [hlow, if_false]
        obtain ⟨t, ht, hword⟩ := binaryOp?_word hop
        obtain ⟨rest, ht⟩ := head?_cons ht
        refine reads_advance ht ((ih.binary _ _).bind fun right d _ => ?_)
        refine (ih.binaryRest level _ d).mono fun e us he rs hr ls hl => ?_
        have hboth := he _ (R.binary (left.span.through right.span) op left right ls rs hl hr)
        rw [hword]
        simpa using hboth

theorem binary_succ (ih : ReadsExprs R fuel) (level : Nat) (c : Cursor) :
    Reads (Reader.binary (fuel + 1) level) c R.expr := by
  rw [Reader.binary]
  exact (ih.unary c).bind fun left d _ => ih.binaryRest level left d

theorem unaryPlain (ih : ReadsExprs R fuel) (c : Cursor) :
    Reads (Reader.unaryPlain fuel c) c R.expr := by
  rw [Reader.unaryPlain]
  cases hop : unaryOp? c.tokens.head? with
  | some op =>
      obtain ⟨t, ht, hword⟩ := unaryOp?_word hop
      obtain ⟨rest, ht⟩ := head?_cons ht
      refine reads_advance ht ((ih.unary _).bind fun arg d _ => reads_pure fun ws hws => ?_)
      rw [hword, List.append_nil]
      exact R.unary (c.here.through arg.span) op arg ws hws
  | none => exact (ih.primary c).bind fun object d _ => ih.fields object d

theorem unary_succ (ih : ReadsExprs R fuel) (c : Cursor) :
    Reads (Reader.unary (fuel + 1)) c R.expr := by
  by_cases hleast : AtLeast c
  · obtain ⟨minus, number, rest, ht, hm, hn⟩ := hleast
    have hadv : c.advance.tokens = number :: rest := Cursor.advance_tokens ht
    refine (ends_of_ok (unary_least ht hm hn)).mpr
      ⟨c.extends_advance.trans c.advance.extends_advance, fun _ => ⟨_, ?_, R.least _ number.lexeme⟩⟩
    rw [words_cons ht, words_cons hadv, Token.word_of_symbol hm, Token.word, hn]
    rfl
  · exact (ends_congr (unary_plain hleast)).mpr (ih.unaryPlain c)

theorem fields_succ (ih : ReadsExprs R fuel) (object : Expr) (c : Cursor) :
    Reads (Reader.fields (fuel + 1) object) c (Continues R object) := by
  rw [Reader.fields]
  refine reads_accept ?_ (reads_pure (continues_refl object))
  refine reads_expectName fun name => ?_
  rw [reads_atSymbol]
  split
  · exact reads_fail
  · refine (ih.fields _ _).mono fun e us he ws hws => ?_
    simpa using he _ (R.field (object.span.through name.span) object name ws hws)

theorem arguments_succ (ih : ReadsExprs R fuel) (c : Cursor) :
    Reads (Reader.arguments (fuel + 1)) c R.args := by
  rw [Reader.arguments, reads_atSymbol]
  split
  · exact reads_pure R.argsNil
  · refine (ih.binary 1 c).bind fun first d _ => ?_
    refine (ih.argumentsRest d).bind fun more d' _ => reads_pure fun us hus ws hws => ?_
    rw [List.append_nil]
    exact R.argsCons first more ws us hws hus

theorem argumentsRest_succ (ih : ReadsExprs R fuel) (c : Cursor) :
    Reads (Reader.argumentsRest (fuel + 1)) c R.moreArgs := by
  rw [Reader.argumentsRest]
  refine reads_accept ?_ (reads_pure R.moreArgsNil)
  refine (ih.binary 1 _).bind fun next d _ => ?_
  refine (ih.argumentsRest d).bind fun more d' _ => reads_pure fun us hus ws hws => ?_
  rw [List.append_nil]
  exact R.moreArgsCons next more ws us hws hus

theorem structFields_succ (ih : ReadsExprs R fuel) (typeName : Ident) (c : Cursor) :
    Reads (Reader.structFields (fuel + 1) typeName) c R.fields := by
  rw [Reader.structFields, reads_atSymbol]
  split
  · exact reads_pure R.fieldsNil
  · refine reads_expectName fun name => reads_expectMark ?_
    refine (ih.binary 1 _).bind fun value d _ => reads_accept ?_ ?_
    · refine (ih.structFields typeName _).bind fun more d' _ => reads_pure fun us hus ws hws => ?_
      rw [List.append_nil]
      exact R.fieldsCons name value more ws us hws hus
    · refine reads_pure fun ws hws => ?_
      rw [List.append_nil]
      exact R.fieldsLast name value ws hws

/-- A name begins a call, a struct literal, or stands for itself. -/
theorem named (ih : ReadsExprs R fuel) {c : Cursor} {t : Token} {rest : List Token}
    (ht : c.tokens = t :: rest) (hk : t.kind = .identifier) :
    Reads (Reader.primary (fuel + 1)) c R.expr := by
  -- The reader looks one token ahead of the name before it takes the name.
  have hnext : ∀ {s : Symbol}, c.kindAt 1 = some (.symbol s) →
      ∃ u more, c.advance.tokens = u :: more ∧ u.word = .symbol s := by
    intro s hs
    rw [Cursor.advance_tokens ht]
    cases rest with
    | nil => simp [Cursor.kindAt, ht] at hs
    | cons u more =>
        refine ⟨u, more, rfl, Token.word_of_symbol ?_⟩
        simpa [Cursor.kindAt, ht] using hs
  rw [Reader.primary, reads_get]
  simp only [ht, hk]
  refine reads_advance ht ?_
  rw [Token.word_of_identifier hk]
  by_cases hcall : c.kindAt 1 = some (.symbol .lparen)
  · obtain ⟨u, more, hu, hword⟩ := hnext hcall
    simp only [hcall, beq_self_eq_true, if_true]
    refine reads_advance hu ?_
    rw [hword]
    refine (ih.arguments _).bind fun args d _ => reads_expectClose ?_
    rw [reads_spanFrom]
    exact reads_pure fun ws hws => R.call _ ⟨t.lexeme, t.span⟩ args ws hws
  · have hcall' : (c.kindAt 1 == some (.symbol .lparen)) = false := by simpa using hcall
    simp only [hcall', Bool.false_eq_true, if_false]
    by_cases hstruct : looksLikeStruct c t.lexeme = true
    · have hbrace : c.kindAt 1 = some (.symbol .lbrace) := by
        simp only [looksLikeStruct, Bool.and_eq_true, beq_iff_eq] at hstruct
        exact hstruct.1.2
      obtain ⟨u, more, hu, hword⟩ := hnext hbrace
      simp only [hstruct, if_true]
      refine reads_advance hu ?_
      rw [hword]
      refine (ih.structFields _ _).bind fun members d _ => reads_expectClose ?_
      rw [reads_spanFrom]
      exact reads_pure fun ws hws => R.struct _ ⟨t.lexeme, t.span⟩ members ws hws
    · simp only [hstruct]
      exact reads_pure (R.ident ⟨t.lexeme, t.span⟩)

theorem primary_succ (ih : ReadsExprs R fuel) (c : Cursor) :
    Reads (Reader.primary (fuel + 1)) c R.expr := by
  cases ht : c.tokens with
  | nil =>
      rw [Reader.primary, reads_get]
      simp only [ht]
      exact reads_fail
  | cons t rest =>
      by_cases hid : t.kind = .identifier
      · exact ih.named ht hid
      rw [Reader.primary, reads_get]
      simp only [ht]
      split
      · next n hk =>
          refine reads_advance ht ?_
          rw [Token.word, hk]
          split
          -- A number that is too large is read on, but it has left an error.
          · exact reads_record.bind fun _ d _ => reads_pure fun _ h => h.elim
          · next hfits => exact reads_pure (R.int t.span n t.lexeme (Nat.lt_of_not_le hfits))
      · next x hk =>
          refine reads_advance ht (reads_pure ?_)
          rw [Token.word, hk]
          exact R.float t.span x t.lexeme
      · next s hk =>
          refine reads_advance ht (reads_pure ?_)
          rw [Token.word, hk]
          exact R.string t.span s
      · next hk =>
          refine reads_advance ht (reads_pure ?_)
          rw [Token.word_of_keyword hk]
          exact R.bool t.span true
      · next hk =>
          refine reads_advance ht (reads_pure ?_)
          rw [Token.word_of_keyword hk]
          exact R.bool t.span false
      · next hk =>
          refine reads_advance ht (reads_pure ?_)
          rw [Token.word_of_keyword hk]
          exact R.self t.span
      · next hk =>
          refine reads_advance ht ?_
          rw [Token.word_of_symbol hk]
          refine (ih.binary 1 _).bind fun inner d _ => ?_
          exact reads_expectClose (reads_pure fun ws hws => R.group inner ws hws)
      · next hk => exact absurd hk hid
      · split
        · exact reads_fail
        · exact reads_fail

end ReadsExprs

variable (R)

theorem readsExprs (fuel : Nat) : ReadsExprs R fuel := by
  induction fuel with
  | zero =>
      exact
        { binary        := fun _ _ => reads_outOfFuel
          binaryRest    := fun _ _ _ => reads_outOfFuel
          unary         := fun _ => reads_outOfFuel
          fields        := fun _ _ => reads_outOfFuel
          primary       := fun _ => reads_outOfFuel
          arguments     := fun _ => reads_outOfFuel
          argumentsRest := fun _ => reads_outOfFuel
          structFields  := fun _ _ => reads_outOfFuel }
  | succ fuel ih =>
      exact
        { binary        := ih.binary_succ
          binaryRest    := ih.binaryRest_succ
          unary         := ih.unary_succ
          fields        := ih.fields_succ
          primary       := ih.primary_succ
          arguments     := ih.arguments_succ
          argumentsRest := ih.argumentsRest_succ
          structFields  := ih.structFields_succ }

/-- An expression is read with all its words. -/
theorem reads_expression (fuel : Nat) (c : Cursor) : Reads (expression fuel) c R.expr :=
  (readsExprs R fuel).binary 1 c

/-! ## Simple statements -/

/-- The words of a variable declaration. -/
def LetRead (R : SpellingRules) (d : LetParts) (ws : List Word) : Prop :=
  ∃ us, R.expr d.init us ∧
    ws = letHead d.mutable d.name d.declared ++ us ++ [.symbol .semicolon]

theorem reads_letRest (fuel : Nat) (start : Position) (mutable : Bool) (name : Ident)
    (declared : Option TypeRef) (c : Cursor) :
    Reads (letRest fuel start mutable name declared) c fun d ws =>
      d.mutable = mutable ∧ d.name = name ∧ d.declared = declared ∧
        ∃ us, R.expr d.init us ∧ ws = .symbol .assign :: us ++ [.symbol .semicolon] := by
  rw [letRest]
  refine reads_accept ?_ (reads_peek.mpr reads_fail_bind)
  refine (reads_expression R fuel _).bind fun init d _ => reads_expectSemicolon ?_
  rw [reads_spanFrom]
  exact reads_pure fun us hus => ⟨rfl, rfl, rfl, us, hus, rfl⟩

theorem reads_letParts (fuel : Nat) {c : Cursor} (hlet : c.atKeyword .letKey = true) :
    Reads (letParts fuel) c (LetRead R) := by
  obtain ⟨t, rest, ht, hk⟩ := Cursor.atKeyword_iff.mp hlet
  rw [letParts_eq, reads_start]
  refine reads_advance ht ?_
  rw [Token.word_of_keyword hk]
  -- What stands between `let` and the name is the word `mut` or nothing.
  have named : ∀ (mutable : Bool) (d : Cursor), Reads (do
      let name ← expectName .variableName
      if ← accept .colon then
        let type ← typeRef
        letRest fuel c.here.start mutable name (some type)
      else letRest fuel c.here.start mutable name none) d fun p ws =>
        LetRead R p
          (.keyword .letKey :: (if mutable then [.keyword .mutKey] else []) ++ ws) := by
    intro mutable d
    refine reads_expectName fun name => reads_accept (reads_typeRef fun type => ?_) ?_
    · refine (reads_letRest R fuel _ mutable name (some type) _).mono fun p ws h => ?_
      obtain ⟨rfl, rfl, hdecl, us, hus, rfl⟩ := h
      exact ⟨us, hus, by simp [letHead, annotationWords, hdecl]⟩
    · refine (reads_letRest R fuel _ mutable name none _).mono fun p ws h => ?_
      obtain ⟨rfl, rfl, hdecl, us, hus, rfl⟩ := h
      exact ⟨us, hus, by simp [letHead, annotationWords, hdecl]⟩
  exact reads_acceptKeyword (named true _) (named false _)

theorem reads_returnStmt (fuel : Nat) {c : Cursor} (hret : c.atKeyword .returnKey = true) :
    Reads (returnStmt fuel) c R.stmt := by
  obtain ⟨t, rest, ht, hk⟩ := Cursor.atKeyword_iff.mp hret
  rw [returnStmt, reads_start]
  refine reads_advance ht ?_
  rw [Token.word_of_keyword hk, reads_atSymbol]
  split
  · refine reads_expectSemicolon ?_
    rw [reads_spanFrom]
    exact reads_pure (R.leave _)
  · refine (reads_expression R fuel _).map (T := fun v ws => ∃ e, v = some e ∧ R.expr e ws)
      (fun e ws h => ⟨e, rfl, h⟩) |>.bind fun v d _ => reads_expectSemicolon ?_
    rw [reads_spanFrom]
    refine reads_pure fun ws h => ?_
    obtain ⟨e, rfl, he⟩ := h
    exact R.ret _ e ws he

theorem reads_simpleStmt (fuel : Nat) (c : Cursor) : Reads (simpleStmt fuel) c R.stmt := by
  rw [simpleStmt]
  refine (reads_expression R fuel c).bind fun e d _ => ?_
  rw [reads_peek]
  cases hop : assignOp? d.tokens.head? with
  | none =>
      refine reads_expectSemicolon ?_
      rw [reads_spanFrom]
      exact reads_pure fun ws hws => R.eval _ e ws hws
  | some op =>
      obtain ⟨t, ht, hword⟩ := assignOp?_word hop
      obtain ⟨rest, ht⟩ := head?_cons ht
      cases hparts : targetParts e [] with
      | none =>
          simp only [assignTarget, hparts]
          exact reads_failAt
      | some parts =>
          obtain ⟨root, path⟩ := parts
          simp only [assignTarget, hparts, pure_bind]
          refine reads_advance ht ((reads_expression R fuel _).bind fun value d' _ => ?_)
          refine reads_expectSemicolon ?_
          rw [reads_spanFrom]
          refine reads_pure fun us hus ws hws => ?_
          rw [hword]
          simpa using R.assign _ op e value root path ws us hws hparts hus

/-! ## Statements -/

/-- A step that gave up left an error, so without one it yielded its item. -/
theorem reads_recover {level : Cursor.Level} {step : Reader α} (h : Reads step c S) :
    Reads (recover level step) c fun found ws => ∃ a, found = some a ∧ S a ws := by
  refine ends_recover.mpr (Ends.mono h (fun a d ha => ⟨ha.1, fun herr => ?_⟩) fun stop d he => ?_)
  · obtain ⟨ws, hws, hS⟩ := ha.2 herr
    exact ⟨ws, hws, a, rfl, hS⟩
  · have hskip := Cursor.extends_skip (Cursor.skipCount level 0 d.tokens) d
    refine ⟨fun hp => ⟨he.1.trans hskip, fun herr => ?_⟩, fun _ => ⟨he.1, Stop.noConfusion⟩⟩
    exact absurd (he.1.errors_eq hskip herr) (he.2 hp)

theorem reads_set_record {e : SyntaxError} {span : Span} :
    Reads (set (c.record e span)) c fun _ _ => False :=
  ⟨c.extends_record e span, fun h => absurd h (c.record_errors_ne e span)⟩

/-- The words of a block behind its opening brace, `done` statements of which are read. -/
def BlockRestRead (R : SpellingRules) (done : List (Stmt Unit)) (b : Block Unit)
    (us : List Word) : Prop :=
  ∃ span more ws, b = .mk span (done ++ more) ∧ R.stmts more ws ∧
    us = ws ++ [.symbol .rbrace]

/-- The functions that read statements lose nothing, at one amount of fuel. -/
structure ReadsStmts (R : SpellingRules) (fuel : Nat) : Prop where
  block       : ∀ c, c.atSymbol .lbrace = true → Reads (block fuel) c R.block
  blockRest   : ∀ opening done c, Reads (blockRest fuel opening done) c (BlockRestRead R done)
  statement   : ∀ c, Reads (statement fuel) c R.stmt
  conditional : ∀ c, c.atKeyword .ifKey = true → Reads (conditional fuel) c R.cond
  expectBlock : ∀ head c, Reads (expectBlock fuel head) c R.block

namespace ReadsStmts

variable {R} {fuel : Nat}

theorem block_succ (ih : ReadsStmts R fuel) (c : Cursor) (hc : c.atSymbol .lbrace = true) :
    Reads (Reader.block (fuel + 1)) c R.block := by
  obtain ⟨t, rest, ht, hk⟩ := Cursor.atSymbol_iff.mp hc
  rw [Reader.block, reads_get]
  refine reads_advance ht ((ih.blockRest c.here [] _).mono fun b us h => ?_)
  obtain ⟨span, more, ws, rfl, hmore, rfl⟩ := h
  rw [Token.word_of_symbol hk]
  exact R.blockMk span more ws hmore

theorem blockRest_succ (ih : ReadsStmts R fuel) (opening : Span) (done : List (Stmt Unit))
    (c : Cursor) :
    Reads (Reader.blockRest (fuel + 1) opening done) c (BlockRestRead R done) := by
  rw [Reader.blockRest, reads_get]
  split
  · next hclose =>
      obtain ⟨t, rest, ht, hk⟩ := Cursor.atSymbol_iff.mp hclose
      refine reads_advance ht ?_
      rw [Token.word_of_symbol hk, reads_spanFrom]
      exact reads_pure ⟨_, [], [], by rw [List.append_nil], R.stmtsNil, rfl⟩
  · split
    · exact reads_set_record.bind fun _ _ _ => reads_pure fun _ h => h.elim
    · split
      · exact reads_set_record.bind fun _ _ _ => reads_pure fun _ h => h.elim
      · refine (reads_recover (ih.statement c)).bind fun found d _ => ?_
        cases found with
        | none =>
            refine (ih.blockRest opening done d).mono fun b us _ ws h => ?_
            obtain ⟨_, h, _⟩ := h
            cases h
        | some st =>
            refine (ih.blockRest opening (done ++ [st]) d).mono fun b us h ws hst => ?_
            obtain ⟨span, more, vs, rfl, hmore, rfl⟩ := h
            obtain ⟨_, h, hst⟩ := hst
            cases h
            refine ⟨span, st :: more, ws ++ vs, by simp, R.stmtsCons st more ws vs hst hmore, ?_⟩
            rw [List.append_assoc]

theorem expectBlock_succ (ih : ReadsStmts R fuel) (head : BlockHead) (c : Cursor) :
    Reads (Reader.expectBlock (fuel + 1) head) c R.block := by
  rw [Reader.expectBlock, reads_atSymbol]
  split
  · next hc => exact ih.block c hc
  · exact reads_rejectAssign (reads_peek.mpr reads_fail)

theorem conditional_succ (ih : ReadsStmts R fuel) (c : Cursor) (hc : c.atKeyword .ifKey = true) :
    Reads (Reader.conditional (fuel + 1)) c R.cond := by
  obtain ⟨t, rest, ht, hk⟩ := Cursor.atKeyword_iff.mp hc
  rw [Reader.conditional, reads_start]
  refine reads_advance ht ?_
  rw [Token.word_of_keyword hk]
  refine (reads_expression R fuel _).bind fun test d₁ _ => ?_
  refine (ih.expectBlock .ifCondition d₁).bind fun consequent d₂ _ => reads_acceptKeyword ?_ ?_
  · simp only [if_true, reads_atKeyword]
    split
    · next hif =>
        refine (ih.conditional _ hif).bind fun inner d₃ _ => reads_pure ?_
        intro vs hvs us hus ws hws
        simpa using R.condMk _ test consequent _ ws us _ hws hus (R.elseCond inner vs hvs)
    · refine (ih.expectBlock .elseWord _).bind fun b d₃ _ => reads_pure ?_
      intro vs hvs us hus ws hws
      simpa using R.condMk _ test consequent _ ws us _ hws hus (R.elseBlock b vs hvs)
  · refine reads_pure fun us hus ws hws => ?_
    simpa using R.condMk _ test consequent _ ws us _ hws hus R.noElse

theorem statement_succ (ih : ReadsStmts R fuel) (c : Cursor) :
    Reads (Reader.statement (fuel + 1)) c R.stmt := by
  rw [Reader.statement, reads_get]
  split
  · next hk =>
      refine (reads_letParts R fuel (by simp [Cursor.atKeyword, hk])).bind
        fun d _ _ => reads_pure ?_
      rintro ws ⟨us, hus, rfl⟩
      simpa using R.bind d.span d.name d.mutable d.declared d.init us hus
  · next hk =>
      exact (ih.conditional c (by simp [Cursor.atKeyword, hk])).map fun b ws h => R.condStmt b ws h
  · next hk =>
      obtain ⟨t, rest, ht, hw⟩ := Cursor.atKeyword_iff.mp
        (show c.atKeyword .whileKey = true by simp [Cursor.atKeyword, hk])
      rw [reads_start]
      refine reads_advance ht ?_
      rw [Token.word_of_keyword hw]
      refine (reads_expression R fuel _).bind fun test d₁ _ => ?_
      refine (ih.expectBlock .whileCondition d₁).bind fun body d₂ _ => reads_pure ?_
      intro us hus ws hws
      simpa using R.loop _ test body ws us hws hus
  · next hk => exact reads_returnStmt R fuel (by simp [Cursor.atKeyword, hk])
  · next hk =>
      exact (ih.block c (by simp [Cursor.atSymbol, hk])).map fun b ws h => R.blockStmt b ws h
  · exact reads_fail
  · exact reads_simpleStmt R fuel c

end ReadsStmts

theorem readsStmts (fuel : Nat) : ReadsStmts R fuel := by
  induction fuel with
  | zero =>
      exact
        { block       := fun _ _ => reads_outOfFuel
          blockRest   := fun _ _ _ => reads_outOfFuel
          statement   := fun _ => reads_outOfFuel
          conditional := fun _ _ => reads_outOfFuel
          expectBlock := fun _ _ => reads_outOfFuel }
  | succ fuel ih =>
      exact
        { block       := ih.block_succ
          blockRest   := ih.blockRest_succ
          statement   := ih.statement_succ
          conditional := ih.conditional_succ
          expectBlock := ih.expectBlock_succ }

/-! ## Declarations -/

theorem reads_parametersRest (fuel : Nat) : ∀ c, Reads (parametersRest fuel) c fun ps ws =>
    ps ≠ [] ∧ ws = paramWords ps ++ [.symbol .rparen] := by
  induction fuel with
  | zero => exact fun c => reads_outOfFuel
  | succ fuel ih =>
      intro c
      rw [parametersRest, reads_peek]
      cases ht : c.tokens with
      | nil => exact reads_fail
      | cons t rest =>
          by_cases hk : t.kind = .identifier
          · simp only [List.head?_cons, hk, if_true]
            refine reads_advance ht (reads_accept (reads_typeRef fun type => ?_) reads_failAt_bind)
            rw [Token.word_of_identifier hk]
            refine reads_accept ?_ ?_
            · refine (ih _).bind fun more d _ => reads_pure ?_
              rintro ws ⟨hne, rfl⟩
              obtain ⟨q, ps, rfl⟩ := List.exists_cons_of_ne_nil hne
              exact ⟨by simp, by simp [paramWords, Param.words]⟩
            · exact reads_expectClose (reads_pure ⟨by simp, by simp [paramWords, Param.words]⟩)
          · simp only [List.head?_cons, hk, if_false]
            exact reads_fail

theorem reads_parameters (fuel : Nat) (c : Cursor) :
    Reads (parameters fuel) c fun ps ws => ws = paramWords ps ++ [.symbol .rparen] := by
  rw [parameters]
  refine reads_accept (reads_pure rfl) ?_
  exact (reads_parametersRest fuel c).mono fun ps ws h => h.2

theorem reads_exportMark (fuel : Nat) {c : Cursor} (hc : c.atSymbol .atSign = true) :
    Reads (exportMark fuel) c fun mark ws => R.mark (some mark) ws := by
  obtain ⟨t, rest, ht, hk⟩ := Cursor.atSymbol_iff.mp hc
  rw [exportMark, reads_start]
  refine reads_advance ht (reads_expectName fun name => ?_)
  rw [Token.word_of_symbol hk]
  by_cases hname : name.name = "export"
  · simp only [hname, ne_eq, not_true_eq_false, if_false]
    refine reads_accept (reads_expectName fun hint => reads_expectMark ?_) ?_
    · refine ((readsExprs R fuel).arguments _).bind fun args d _ => reads_expectClose ?_
      rw [reads_spanFrom]
      refine reads_expectClose ?_
      rw [reads_spanFrom]
      exact reads_pure fun ws hws => R.hintMark _ _ hint args ws hws
    · simp only [Bool.false_eq_true, if_false, reads_spanFrom]
      exact reads_pure (R.plainMark _)
  · simp only [hname, ne_eq, not_false_eq_true, if_true]
    exact reads_failAt_bind

theorem reads_globalDecl (fuel : Nat) (exported : Option ExportMark) {c : Cursor}
    (hc : c.atKeyword .letKey = true) :
    Reads (globalDecl fuel exported) c fun g ws => ∀ ms, R.mark exported ms →
      R.decl (.global g) (ms ++ ws) := by
  rw [globalDecl]
  refine (reads_letParts R fuel hc).bind fun d _ _ => reads_pure ?_
  rintro ws ⟨us, hus, rfl⟩ ms hms
  rw [List.append_nil, ← List.append_assoc, ← List.append_assoc]
  exact R.global _ ms us hms hus

theorem reads_returnType (c : Cursor) :
    Reads returnType c fun result ws => ws = resultWords result := by
  rw [returnType]
  refine reads_accept ?_ (reads_pure rfl)
  simp only [if_true, reads_peek]
  cases ht : c.advance.tokens with
  | nil => exact reads_fail
  | cons t rest =>
      by_cases hk : t.kind = .identifier
      · simp only [List.head?_cons, hk, if_true]
        refine reads_advance ht (reads_pure ?_)
        rw [Token.word_of_identifier hk]
        rfl
      · simp only [List.head?_cons, hk, if_false]
        exact reads_fail

theorem reads_functionDecl (fuel : Nat) {c : Cursor} (hc : c.atKeyword .fnKey = true) :
    Reads (functionDecl fuel) c fun f ws => R.decl (.function f) ws := by
  obtain ⟨t, rest, ht, hk⟩ := Cursor.atKeyword_iff.mp hc
  rw [functionDecl, reads_start]
  refine reads_advance ht (reads_expectName fun name => reads_accept ?_
    (reads_peek.mpr reads_fail_bind))
  rw [Token.word_of_keyword hk]
  refine (reads_parameters fuel _).bind fun params d₁ _ => ?_
  refine (reads_returnType d₁).bind fun result d₂ _ => ?_
  rw [reads_atSymbol]
  by_cases hbrace : d₂.atSymbol .lbrace = true
  · simp only [hbrace, Bool.not_true, Bool.false_eq_true, if_false]
    refine ((readsStmts R fuel).block d₂ hbrace).bind fun body d₃ _ => reads_pure ?_
    rintro ws hws _ rfl _ rfl
    simpa using R.function
      ⟨⟨c.here.start, body.span.stop⟩, name, params, result, body⟩ ws hws
  · simp only [hbrace, Bool.not_false, if_true]
    exact reads_peek.mpr reads_fail_bind

theorem reads_signalDecl (fuel : Nat) {c : Cursor} (hc : c.atKeyword .signalKey = true) :
    Reads (signalDecl fuel) c fun s ws => R.decl (.signal s) ws := by
  obtain ⟨t, rest, ht, hk⟩ := Cursor.atKeyword_iff.mp hc
  rw [signalDecl, reads_start]
  refine reads_advance ht (reads_expectName fun name => reads_expectMark ?_)
  rw [Token.word_of_keyword hk]
  refine (reads_parameters fuel _).bind fun params d _ => reads_expectSemicolon ?_
  rw [reads_spanFrom]
  refine reads_pure ?_
  rintro _ rfl
  simpa using R.signal ⟨⟨c.here.start, _⟩, name, params⟩

/-- The words of what is read on the level of declarations. -/
def FoundRead (R : SpellingRules) : Option (Declaration Unit) → List Word → Prop
  | some d, ws => R.decl d ws
  | none, ws   => ws = [.symbol .semicolon]

theorem reads_declaration (fuel : Nat) (c : Cursor) :
    Reads (declaration fuel) c (FoundRead R) := by
  rw [declaration, reads_peek]
  cases ht : c.tokens with
  | nil => exact reads_fail
  | cons t rest =>
      have hkey : ∀ k, t.kind = .keyword k → c.atKeyword k = true := fun k hk =>
        Cursor.atKeyword_iff.mpr ⟨t, rest, ht, hk⟩
      simp only [List.head?_cons, Option.map_some]
      split
      · next hk =>
          -- The mark is read before it is known whether a global follows.
          have hat : c.atSymbol .atSign = true :=
            Cursor.atSymbol_iff.mpr ⟨t, rest, ht, Option.some.inj hk⟩
          refine (reads_exportMark R fuel hat).bind fun mark d _ => ?_
          rw [reads_atKeyword]
          split
          · next hlet =>
              refine Reads.map (Reads.map (reads_globalDecl R fuel (some mark) hlet)
                (T := fun d ws => ∀ ms, R.mark (some mark) ms →
                  R.decl d (ms ++ ws)) fun _ _ h => h) fun d ws h => ?_
              exact fun ms hms => h ms hms
          · exact reads_peek.mpr reads_fail
      · next hk =>
          refine Reads.map (Reads.map (reads_globalDecl R fuel none (hkey _ (Option.some.inj hk)))
            (T := fun d ws => R.decl d ws) fun g ws h => ?_) fun d ws h => h
          exact h [] R.unmarked
      · next hk =>
          exact Reads.map (Reads.map (reads_functionDecl R fuel (hkey _ (Option.some.inj hk)))
            (T := R.decl) fun _ _ h => h) fun _ _ h => h
      · next hk =>
          exact Reads.map (Reads.map (reads_signalDecl R fuel (hkey _ (Option.some.inj hk)))
            (T := R.decl) fun _ _ h => h) fun _ _ h => h
      · next hk =>
          refine reads_advance ht (reads_pure ?_)
          rw [Token.word_of_symbol (Option.some.inj hk)]
          rfl
      · exact reads_fail

/-- A script is read with all its words. -/
theorem reads_declarations (fuel : Nat) :
    ∀ c, Reads (declarations fuel) c R.decls := by
  induction fuel with
  | zero => exact fun c => reads_outOfFuel
  | succ fuel ih =>
      intro c
      rw [declarations, reads_get]
      split
      · exact reads_pure R.declsNil
      · refine (reads_recover (reads_declaration R fuel c)).bind fun found d _ => ?_
        refine (ih d).bind fun more d' _ => reads_pure ?_
        rintro us hus ws ⟨item, rfl, hitem⟩
        rw [List.append_nil]
        -- Nothing but a stray semicolon is read without an error and without an item.
        cases item with
        | none =>
            rw [show ws = [.symbol .semicolon] from hitem]
            exact R.declsStray more us hus
        | some decl => exact R.declsCons decl more ws us hitem hus

end Reader

end SceneScript
