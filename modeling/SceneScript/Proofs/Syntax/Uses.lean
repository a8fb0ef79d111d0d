import SceneScript.Proofs.Syntax.Parts
import SceneScript.Proofs.Syntax.Recovery
import SceneScript.Proofs.Token.Standing

/-!
# The names that a script uses

A name is used where it is an expression, or where it is assigned to. The parser takes such a name
from an identifier that does not stand directly behind a dot: what stands there is the name of a
field, and only that is read there. Reading may give up behind a dot, but it never goes on there.
So what holds of all identifiers that are not directly behind a dot holds of all names in use.

* **`Stmt.names`**, **`Program.names`** — the names in use.
* **`Meets`** — a step from where no dot has just been read to such a place, which meets such
  names only; `Meets.bind`.
* **`Reader.MeetsExprs`**, **`Reader.MeetsStmts`** — the functions of the parser at one amount of
  fuel.
* **`parseTokens_names`** — whole scripts.
-/

namespace SceneScript

variable {α β : Type} {N : Ident → Prop}

/-! ## Names in use -/

/-- The names among expressions. -/
def namesIn (parts : List Expr) : List Ident :=
  parts.filterMap fun
    | .ident id => some id
    | _         => none

/-- The names in an expression. -/
def Expr.names (e : Expr) : List Ident := namesIn e.parts

mutual

/-- The names that a statement uses or assigns to. -/
def Stmt.names : Stmt β → List Ident
  | .block b                 => b.names
  | .bind _ _ _ _ init _     => init.names
  | .assign _ target _ value => target.root.expr.names ++ value.names
  | .cond c                  => c.names
  | .loop _ test body        => test.names ++ body.names
  | .ret _ none              => []
  | .ret _ (some e)          => e.names
  | .eval _ e                => e.names

/-- The names that statements use or assign to. -/
def stmtsNames : List (Stmt β) → List Ident
  | []         => []
  | st :: rest => st.names ++ stmtsNames rest

/-- The names that a block uses or assigns to. -/
def Block.names : Block β → List Ident
  | .mk _ body => stmtsNames body

/-- The names that a conditional uses or assigns to. -/
def Cond.names : Cond β → List Ident
  | .mk _ test consequent alternate => test.names ++ consequent.names ++ alternate.names

/-- The names that are used or assigned to in what follows a consequent. -/
def Else.names : Else β → List Ident
  | .absent  => []
  | .block b => b.names
  | .cond c  => c.names

end

/-- The names that a declaration uses or assigns to. -/
def Declaration.names : Declaration β → List Ident
  | .global g   => g.init.names
  | .function f => f.body.names
  | .signal _   => []

/-- The names that a script uses or assigns to. -/
def Program.names (p : Program β) : List Ident := p.body.flatMap Declaration.names

@[simp] theorem namesIn_append (a b : List Expr) : namesIn (a ++ b) = namesIn a ++ namesIn b :=
  List.filterMap_append

namespace Expr

@[simp] theorem names_ident (id : Ident) : (Expr.ident id).names = [id] := rfl

@[simp] theorem names_self (s : Span) : (Expr.self s).names = [] := rfl

@[simp] theorem names_field (s : Span) (object : Expr) (name : Ident) :
    (Expr.field s object name).names = object.names := rfl

@[simp] theorem names_call (s : Span) (callee : Ident) (args : List Expr) :
    (Expr.call s callee args).names = namesIn (exprsParts args) := rfl

@[simp] theorem names_unary (s : Span) (op : UnaryOp) (arg : Expr) :
    (Expr.unary s op arg).names = arg.names := rfl

@[simp] theorem names_binary (s : Span) (op : BinaryOp) (l r : Expr) :
    (Expr.binary s op l r).names = l.names ++ r.names := namesIn_append _ _

@[simp] theorem names_struct (s : Span) (name : Ident) (fields : List (Ident × Expr)) :
    (Expr.struct s name fields).names = namesIn (fieldsParts fields) := rfl

end Expr

@[simp] theorem namesIn_exprsParts_cons (e : Expr) (es : List Expr) :
    namesIn (exprsParts (e :: es)) = e.names ++ namesIn (exprsParts es) := namesIn_append _ _

@[simp] theorem namesIn_fieldsParts_cons (field : Ident × Expr) (rest : List (Ident × Expr)) :
    namesIn (fieldsParts (field :: rest)) = field.2.names ++ namesIn (fieldsParts rest) :=
  namesIn_append _ _

theorem Block.names_body (b : Block β) : b.names = stmtsNames b.body := by
  cases b
  rfl

theorem stmtsNames_append (a b : List (Stmt β)) :
    stmtsNames (a ++ b) = stmtsNames a ++ stmtsNames b := by
  induction a with
  | nil => rfl
  | cons st rest ih => rw [List.cons_append, stmtsNames, stmtsNames, ih, List.append_assoc]

/-- An expression that can be assigned to uses the name of its root. -/
theorem targetParts_names {root : TargetRoot} {path' : List Ident} : ∀ (e : Expr)
    (path : List Ident), Reader.targetParts e path = some (root, path') → root.expr.names = e.names
  | .field _ object name, path, h => targetParts_names object (name :: path) h
  | .ident _, _, h => by
      obtain ⟨rfl, -⟩ := Prod.mk.inj (Option.some.inj h)
      rfl
  | .self _, _, h => by
      obtain ⟨rfl, -⟩ := Prod.mk.inj (Option.some.inj h)
      rfl
  | .int .., _, h | .float .., _, h | .bool .., _, h | .string .., _, h | .call .., _, h
  | .unary .., _, h | .binary .., _, h | .struct .., _, h => nomatch h

/-! ## Behind a dot -/

namespace FreeNames

variable {t : Token} {ts : List Token} {dotted : Bool}

/-- Behind a dot less is known. -/
theorem behind (h : FreeNames N dotted ts) : FreeNames N true ts := by
  cases ts with
  | nil => trivial
  | cons t ts => exact ⟨fun hdot => Bool.noConfusion hdot, h.2⟩

/-- A dot matters to a name only. -/
theorem of_head (hk : t.kind ≠ .identifier) (h : FreeNames N dotted (t :: ts)) :
    FreeNames N false (t :: ts) := ⟨fun _ hk' => absurd hk' hk, h.2⟩

theorem tail (hk : t.kind ≠ .symbol .dot) (h : FreeNames N dotted (t :: ts)) :
    FreeNames N false ts := by
  have hrest := h.2
  rwa [decide_eq_false hk] at hrest

/-- Skipping to the next item does not end behind a dot, though it may begin there. -/
theorem drop_skipCount (level : Cursor.Level) : ∀ (ts : List Token) (depth : Nat) (dotted : Bool),
    FreeNames N dotted ts → FreeNames N false (ts.drop (Cursor.skipCount level depth ts)) := by
  intro ts
  induction ts with
  | nil => exact fun _ _ _ => trivial
  | cons t rest ih =>
      intro depth dotted h
      have here : t.kind ≠ .identifier → FreeNames N false (t :: rest) := fun hk => h.of_head hk
      have next : t.kind ≠ .symbol .dot → FreeNames N false rest := fun hk => h.tail hk
      have later : ∀ depth, FreeNames N false (rest.drop (Cursor.skipCount level depth rest)) :=
        fun depth => ih depth _ h.2
      rw [Cursor.skipCount]
      split
      all_goals try split
      all_goals try split
      all_goals
        first
        | exact later _
        | exact here (by simp_all)
        | exact next (by simp_all)

end FreeNames

/-! ## Steps -/

/-- From a cursor behind a dot, or behind none, in front of which all free names are as `N` says,
    the step comes to one that is behind none, with a result as `Q` says. It may give up behind a
    dot. -/
def MeetsFrom (dotted : Bool) (N : Ident → Prop) (x : Reader α) (c : Cursor) (Q : α → Prop) :
    Prop :=
  FreeNames N dotted c.tokens →
    Ends x c (fun a d => FreeNames N false d.tokens ∧ Q a) fun _ d => FreeNames N true d.tokens

/-- The step comes from a cursor that is not behind a dot to such a cursor. -/
abbrev Meets (N : Ident → Prop) (x : Reader α) (c : Cursor) (Q : α → Prop) : Prop :=
  MeetsFrom false N x c Q

namespace Meets

variable {c : Cursor} {x : Reader α} {f : α → Reader β} {Q : α → Prop} {R : β → Prop}

theorem bind (hx : Meets N x c Q) (hf : ∀ a d, Q a → Meets N (f a) d R) : Meets N (x >>= f) c R :=
  fun hc => ends_bind.mpr
    (Ends.mono (hx hc) (fun a d ha => hf a d ha.2 ha.1) fun _ _ he => he)

theorem map {g : α → β} (hx : Meets N x c Q) (hg : ∀ a, Q a → R (g a)) : Meets N (g <$> x) c R :=
  fun hc => ends_map.mpr
    (Ends.mono (hx hc) (fun a _ ha => ⟨ha.1, hg a ha.2⟩) fun _ _ he => he)

end Meets

namespace Reader

variable {c : Cursor} {Q : α → Prop} {f : Unit → Reader α} {dotted : Bool}

theorem meets_pure {a : α} (h : Q a) : Meets N (pure a) c Q := fun hc => ⟨hc, h⟩

theorem meets_outOfFuel : Meets N (throw .outOfFuel) c Q := fun hc => hc.behind

theorem meets_failAt {span : Span} {e : SyntaxError} : MeetsFrom dotted N (failAt span e) c Q :=
  fun hc => hc.behind

theorem meets_fail {e : SyntaxError} : MeetsFrom dotted N (fail e) c Q := fun hc => hc.behind

/-- What stands behind a step that gives up is not reached. -/
theorem meets_fail_bind {e : SyntaxError} {f : β → Reader α} : Meets N (fail e >>= f) c Q :=
  meets_fail (Q := Q)

theorem meets_failAt_bind {span : Span} {e : SyntaxError} {f : β → Reader α} :
    Meets N (failAt span e >>= f) c Q := meets_failAt (Q := Q)

/-! ## Steps that look and do not move -/

theorem meets_get {f : Cursor → Reader α} : Meets N (get >>= f) c Q ↔ Meets N (f c) c Q := Iff.rfl

theorem meets_peek {f : Option Token → Reader α} :
    Meets N (peek >>= f) c Q ↔ Meets N (f c.tokens.head?) c Q := Iff.rfl

theorem meets_atSymbol {s : Symbol} {f : Bool → Reader α} :
    Meets N (atSymbol s >>= f) c Q ↔ Meets N (f (c.atSymbol s)) c Q := Iff.rfl

theorem meets_atKeyword {k : Keyword} {f : Bool → Reader α} :
    Meets N (atKeyword k >>= f) c Q ↔ Meets N (f (c.atKeyword k)) c Q := Iff.rfl

theorem meets_spanFrom {p : Position} {f : Span → Reader α} :
    Meets N (spanFrom p >>= f) c Q ↔ Meets N (f ⟨p, c.last⟩) c Q := Iff.rfl

theorem meets_start {f : Position → Reader α} :
    Meets N (start >>= f) c Q ↔ Meets N (f c.here.start) c Q := Iff.rfl

theorem meets_modify {g : Cursor → Cursor} (hg : ∀ c, (g c).tokens = c.tokens) :
    Meets N (modify g) c fun _ => True := by
  intro hc
  refine ⟨?_, trivial⟩
  show FreeNames N false (g c).tokens
  rwa [hg]

/-! ## Steps that move by one token -/

theorem free_advance {t : Token} {rest : List Token} (ht : c.tokens = t :: rest)
    (hk : t.kind ≠ .symbol .dot) (hc : FreeNames N dotted c.tokens) :
    FreeNames N false c.advance.tokens := by
  rw [Cursor.advance_tokens ht]
  rw [ht] at hc
  exact hc.tail hk

theorem meets_advance {t : Token} {rest : List Token} (ht : c.tokens = t :: rest)
    (hk : t.kind ≠ .symbol .dot) (h : Meets N (f ()) c.advance Q) :
    Meets N (advance >>= f) c Q := fun hc => h (free_advance ht hk hc)

/-- A name that is not behind a dot has the property. -/
theorem meets_name {t : Token} {rest : List Token} (ht : c.tokens = t :: rest)
    (hk : t.kind = .identifier) (h : N ⟨t.lexeme, t.span⟩ → Meets N (f ()) c.advance Q) :
    Meets N (advance >>= f) c Q := by
  intro hc
  have hname : N ⟨t.lexeme, t.span⟩ := by
    rw [ht] at hc
    exact hc.1 rfl hk
  exact h hname (free_advance ht (by rw [hk]; exact TokenKind.noConfusion) hc)

theorem free_advance_symbol {s : Symbol} (hs : c.atSymbol s = true) (hdot : s ≠ .dot)
    (hc : FreeNames N dotted c.tokens) : FreeNames N false c.advance.tokens := by
  obtain ⟨t, rest, ht, hk⟩ := Cursor.atSymbol_iff.mp hs
  exact free_advance ht (by rw [hk]; exact fun h => hdot (TokenKind.symbol.inj h)) hc

theorem meets_accept {s : Symbol} (hdot : s ≠ .dot) {f : Bool → Reader α}
    (hyes : Meets N (f true) c.advance Q) (hno : Meets N (f false) c Q) :
    Meets N (accept s >>= f) c Q := fun hc =>
  ends_bind.mpr (ends_accept.mpr
    ⟨fun hs => hyes (free_advance_symbol hs hdot hc), fun _ => hno hc⟩)

/-- Behind a dot that was read. -/
theorem meets_accept_dot {f : Bool → Reader α} (hyes : MeetsFrom true N (f true) c.advance Q)
    (hno : Meets N (f false) c Q) : Meets N (accept .dot >>= f) c Q := by
  refine fun hc => ends_bind.mpr (ends_accept.mpr ⟨fun hs => hyes ?_, fun _ => hno hc⟩)
  obtain ⟨t, rest, ht, -⟩ := Cursor.atSymbol_iff.mp hs
  rw [Cursor.advance_tokens ht]
  rw [ht] at hc
  exact hc.2.behind

theorem meets_acceptKeyword {k : Keyword} {f : Bool → Reader α}
    (hyes : Meets N (f true) c.advance Q) (hno : Meets N (f false) c Q) :
    Meets N (acceptKeyword k >>= f) c Q := by
  refine fun hc => ends_bind.mpr (ends_acceptKeyword.mpr ⟨fun hs => hyes ?_, fun _ => hno hc⟩)
  obtain ⟨t, rest, ht, hk⟩ := Cursor.atKeyword_iff.mp hs
  exact free_advance ht (by rw [hk]; exact TokenKind.noConfusion) hc

/-- A name is read behind a dot as well. -/
theorem meets_expectName {expected : Expected} {f : Ident → Reader α}
    (h : ∀ id, Meets N (f id) c.advance Q) : MeetsFrom dotted N (expectName expected >>= f) c Q :=
  fun hc => ends_bind.mpr (ends_expectName
    (fun _ _ ht hk => h _ (free_advance ht (by rw [hk]; exact TokenKind.noConfusion) hc))
    fun _ => hc.behind)

theorem meets_typeRef {f : TypeRef → Reader α} (h : ∀ type, Meets N (f type) c.advance Q) :
    Meets N (typeRef >>= f) c Q :=
  fun hc => ends_bind.mpr (ends_typeRef
    (fun _ _ ht hk => h _ (free_advance ht (by rw [hk]; exact TokenKind.noConfusion) hc))
    fun _ => hc.behind)

theorem meets_expectMark {s : Symbol} (hdot : s ≠ .dot) {mark : Mark}
    (h : Meets N (f ()) c.advance Q) : Meets N (expectMark s mark >>= f) c Q := fun hc =>
  ends_bind.mpr (ends_expectMark (fun hs => h (free_advance_symbol hs hdot hc)) fun _ => hc.behind)

theorem meets_expectClose {s : Symbol} (hdot : s ≠ .dot) {enclosed : Enclosed}
    (h : Meets N (f ()) c.advance Q) : Meets N (expectClose s enclosed >>= f) c Q := fun hc =>
  ends_bind.mpr (ends_expectClose (fun hs => h (free_advance_symbol hs hdot hc)) fun _ => hc.behind)

theorem meets_expectSemicolon {ended : Ended} (h : Meets N (f ()) c.advance Q) :
    Meets N (expectSemicolon ended >>= f) c Q := fun hc =>
  ends_bind.mpr (ends_expectSemicolon (fun hs => h (free_advance_symbol hs (by decide) hc))
    fun _ _ => hc.behind)

theorem meets_rejectAssign (h : Meets N (f ()) c Q) : Meets N (rejectAssign >>= f) c Q := fun hc =>
  ends_bind.mpr (ends_rejectAssign (h hc) fun _ _ => hc.behind)

/-- Wherever a step gave up, reading goes on behind no dot. -/
theorem meets_recover {level : Cursor.Level} {step : Reader α} (h : Meets N step c Q) :
    Meets N (recover level step) c fun found => ∀ a, found = some a → Q a := by
  refine fun hc => ends_recover.mpr (Ends.mono (h hc) (fun a d ha => ⟨ha.1, ?_⟩) fun _ d hd => ?_)
  · rintro _ ⟨⟩
    exact ha.2
  · refine ⟨fun _ => ⟨?_, fun _ hnone => nomatch hnone⟩, fun _ => hd⟩
    rw [Cursor.synchronize, Cursor.skip_tokens]
    exact hd.drop_skipCount level _ 0

/-! ## Operators -/

theorem binaryOp?_ne_dot {t : Token} {op : BinaryOp} (h : binaryOp? (some t) = some op) :
    t.kind ≠ .symbol .dot := by
  intro hk
  simp only [binaryOp?, hk] at h
  cases h

theorem unaryOp?_ne_dot {t : Token} {op : UnaryOp} (h : unaryOp? (some t) = some op) :
    t.kind ≠ .symbol .dot := by
  intro hk
  simp only [unaryOp?, hk] at h
  cases h

theorem assignOp?_ne_dot {t : Token} {op : AssignOp} (h : assignOp? (some t) = some op) :
    t.kind ≠ .symbol .dot := by
  intro hk
  simp only [assignOp?, hk] at h
  cases h

/-- An operator that was seen is taken. -/
theorem meets_operator {op? : Option Token → Option β} {op : β} (hop : op? c.tokens.head? = some op)
    (hnone : op? none = none)
    (hdot : ∀ t, op? (some t) = some op → t.kind ≠ .symbol .dot)
    (h : Meets N (f ()) c.advance Q) : Meets N (advance >>= f) c Q := by
  cases ht : c.tokens with
  | nil => rw [ht, List.head?_nil, hnone] at hop; cases hop
  | cons t rest => exact meets_advance ht (hdot t (by rw [ht] at hop; exact hop)) h

/-! ## Expressions -/

/-- The functions that read expressions take their names from where no dot stands in front, at one
    amount of fuel. -/
structure MeetsExprs (N : Ident → Prop) (fuel : Nat) : Prop where
  binary        : ∀ level c, Meets N (binary fuel level) c fun e => ∀ id ∈ e.names, N id
  binaryRest    : ∀ level left c, (∀ id ∈ left.names, N id) →
    Meets N (binaryRest fuel level left) c fun e => ∀ id ∈ e.names, N id
  unary         : ∀ c, Meets N (unary fuel) c fun e => ∀ id ∈ e.names, N id
  fields        : ∀ object c, (∀ id ∈ object.names, N id) →
    Meets N (fields fuel object) c fun e => ∀ id ∈ e.names, N id
  primary       : ∀ c, Meets N (primary fuel) c fun e => ∀ id ∈ e.names, N id
  arguments     : ∀ c, Meets N (arguments fuel) c fun es => ∀ id ∈ namesIn (exprsParts es), N id
  argumentsRest : ∀ c,
    Meets N (argumentsRest fuel) c fun es => ∀ id ∈ namesIn (exprsParts es), N id
  structFields  : ∀ typeName c,
    Meets N (structFields fuel typeName) c fun fs => ∀ id ∈ namesIn (fieldsParts fs), N id

namespace MeetsExprs

variable {fuel : Nat}

theorem binary_succ (ih : MeetsExprs N fuel) (level : Nat) (c : Cursor) :
    Meets N (Reader.binary (fuel + 1) level) c fun e => ∀ id ∈ e.names, N id := by
  rw [Reader.binary]
  exact (ih.unary c).bind fun left d hl => ih.binaryRest level left d hl

theorem binaryRest_succ (ih : MeetsExprs N fuel) (level : Nat) (left : Expr) (c : Cursor)
    (hl : ∀ id ∈ left.names, N id) :
    Meets N (Reader.binaryRest (fuel + 1) level left) c fun e => ∀ id ∈ e.names, N id := by
  rw [Reader.binaryRest, meets_peek]
  cases hop : binaryOp? c.tokens.head? with
  | none => exact meets_pure hl
  | some op =>
      by_cases hlow : op.precedence < level
      · simp only [hlow, if_true]
        exact meets_pure hl
      · simp only [hlow, if_false]
        refine meets_operator hop rfl (fun t => binaryOp?_ne_dot) ?_
        refine (ih.binary _ _).bind fun right d hr => ih.binaryRest level _ d ?_
        rw [Expr.names_binary]
        exact List.forall_mem_append.mpr ⟨hl, hr⟩

theorem unaryPlain (ih : MeetsExprs N fuel) (c : Cursor) :
    Meets N (Reader.unaryPlain fuel c) c fun e => ∀ id ∈ e.names, N id := by
  rw [Reader.unaryPlain]
  cases hop : unaryOp? c.tokens.head? with
  | some op =>
      refine meets_operator hop rfl (fun t => unaryOp?_ne_dot) ?_
      exact (ih.unary _).bind fun arg d ha => meets_pure ha
  | none => exact (ih.primary c).bind fun object d ho => ih.fields object d ho

theorem unary_succ (ih : MeetsExprs N fuel) (c : Cursor) :
    Meets N (Reader.unary (fuel + 1)) c fun e => ∀ id ∈ e.names, N id := by
  intro hc
  by_cases hleast : AtLeast c
  · obtain ⟨minus, number, rest, ht, hm, hn⟩ := hleast
    have hfirst := free_advance ht (by rw [hm]; decide) hc
    have hsecond := free_advance (Cursor.advance_tokens ht)
      (by rw [hn]; exact TokenKind.noConfusion) hfirst
    refine (ends_of_ok (unary_least ht hm hn)).mpr ⟨hsecond, fun _ hid => ?_⟩
    exact absurd hid List.not_mem_nil
  · exact (ends_congr (unary_plain hleast)).mpr (ih.unaryPlain c hc)

theorem fields_succ (ih : MeetsExprs N fuel) (object : Expr) (c : Cursor)
    (ho : ∀ id ∈ object.names, N id) :
    Meets N (Reader.fields (fuel + 1) object) c fun e => ∀ id ∈ e.names, N id := by
  rw [Reader.fields]
  refine meets_accept_dot (meets_expectName fun name => ?_) (meets_pure ho)
  rw [meets_atSymbol]
  split
  · exact meets_fail
  · exact ih.fields _ _ ho

theorem arguments_succ (ih : MeetsExprs N fuel) (c : Cursor) :
    Meets N (Reader.arguments (fuel + 1)) c fun es => ∀ id ∈ namesIn (exprsParts es), N id := by
  rw [Reader.arguments, meets_atSymbol]
  split
  · exact meets_pure fun _ hid => absurd hid List.not_mem_nil
  · refine (ih.binary 1 c).bind fun first d hf => (ih.argumentsRest d).bind fun more d' hm => ?_
    refine meets_pure ?_
    rw [namesIn_exprsParts_cons]
    exact List.forall_mem_append.mpr ⟨hf, hm⟩

theorem argumentsRest_succ (ih : MeetsExprs N fuel) (c : Cursor) :
    Meets N (Reader.argumentsRest (fuel + 1)) c fun es => ∀ id ∈ namesIn (exprsParts es), N id := by
  rw [Reader.argumentsRest]
  refine meets_accept (by decide) ?_ (meets_pure fun _ hid => absurd hid List.not_mem_nil)
  refine (ih.binary 1 _).bind fun next d hn => (ih.argumentsRest d).bind fun more d' hm => ?_
  refine meets_pure ?_
  rw [namesIn_exprsParts_cons]
  exact List.forall_mem_append.mpr ⟨hn, hm⟩

theorem structFields_succ (ih : MeetsExprs N fuel) (typeName : Ident) (c : Cursor) :
    Meets N (Reader.structFields (fuel + 1) typeName) c
      fun fs => ∀ id ∈ namesIn (fieldsParts fs), N id := by
  rw [Reader.structFields, meets_atSymbol]
  split
  · exact meets_pure fun _ hid => absurd hid List.not_mem_nil
  · refine meets_expectName fun name => meets_expectMark (by decide) ?_
    refine (ih.binary 1 _).bind fun value d hvalue => meets_accept (by decide) ?_ ?_
    · refine (ih.structFields typeName _).bind fun more d' hmore => meets_pure ?_
      rw [namesIn_fieldsParts_cons]
      exact List.forall_mem_append.mpr ⟨hvalue, hmore⟩
    · refine meets_pure ?_
      rw [namesIn_fieldsParts_cons]
      exact List.forall_mem_append.mpr ⟨hvalue, fun _ hid => absurd hid List.not_mem_nil⟩

/-- A name begins a call or a struct literal, or it is in use itself. -/
theorem named (ih : MeetsExprs N fuel) {c : Cursor} {t : Token} {rest : List Token}
    (ht : c.tokens = t :: rest) (hk : t.kind = .identifier) :
    Meets N (Reader.primary (fuel + 1)) c fun e => ∀ id ∈ e.names, N id := by
  -- The reader looks one token ahead of the name before it takes the name.
  have hnext : ∀ {s : Symbol}, c.kindAt 1 = some (.symbol s) →
      ∃ u more, c.advance.tokens = u :: more ∧ u.kind = .symbol s := by
    intro s hs
    rw [Cursor.advance_tokens ht]
    cases rest with
    | nil => simp [Cursor.kindAt, ht] at hs
    | cons u more => exact ⟨u, more, rfl, by simpa [Cursor.kindAt, ht] using hs⟩
  rw [Reader.primary, meets_get]
  simp only [ht, hk]
  refine meets_name ht hk fun hname => ?_
  by_cases hcall : c.kindAt 1 = some (.symbol .lparen)
  · obtain ⟨u, more, hu, hparen⟩ := hnext hcall
    simp only [hcall, beq_self_eq_true, if_true]
    refine meets_advance hu (by rw [hparen]; decide) ((ih.arguments _).bind fun args d hargs => ?_)
    refine meets_expectClose (by decide) ?_
    rw [meets_spanFrom]
    exact meets_pure hargs
  · have hcall' : (c.kindAt 1 == some (.symbol .lparen)) = false := by simpa using hcall
    simp only [hcall', Bool.false_eq_true, if_false]
    by_cases hstruct : looksLikeStruct c t.lexeme = true
    · have hbrace : c.kindAt 1 = some (.symbol .lbrace) := by
        simp only [looksLikeStruct, Bool.and_eq_true, beq_iff_eq] at hstruct
        exact hstruct.1.2
      obtain ⟨u, more, hu, hbrace⟩ := hnext hbrace
      simp only [hstruct, if_true]
      refine meets_advance hu (by rw [hbrace]; decide) ?_
      refine (ih.structFields _ _).bind fun members d hmembers => meets_expectClose (by decide) ?_
      rw [meets_spanFrom]
      exact meets_pure hmembers
    · simp only [hstruct]
      exact meets_pure (List.forall_mem_singleton.mpr hname)

theorem primary_succ (ih : MeetsExprs N fuel) (c : Cursor) :
    Meets N (Reader.primary (fuel + 1)) c fun e => ∀ id ∈ e.names, N id := by
  cases ht : c.tokens with
  | nil =>
      rw [Reader.primary, meets_get]
      simp only [ht]
      exact meets_fail
  | cons t rest =>
      by_cases hid : t.kind = .identifier
      · exact ih.named ht hid
      rw [Reader.primary, meets_get]
      simp only [ht]
      -- Literals use no names.
      have literal : ∀ e : Expr, e.names = [] → t.kind ≠ .symbol .dot →
          Meets N (do advance; return e) c fun e => ∀ id ∈ e.names, N id := by
        intro e he hdot
        refine meets_advance ht hdot (meets_pure ?_)
        rw [he]
        exact fun _ hid => absurd hid List.not_mem_nil
      split
      · next n hk =>
          refine meets_advance ht (by rw [hk]; exact TokenKind.noConfusion) ?_
          have hint : ∀ d, Meets N (pure (.int t.span n t.lexeme) : Reader Expr) d
              fun e => ∀ id ∈ e.names, N id :=
            fun d => meets_pure fun _ hid => absurd hid List.not_mem_nil
          split
          · exact (meets_modify fun _ => rfl).bind fun _ d _ => hint d
          · exact hint _
      · next hk => exact literal _ rfl (by rw [hk]; exact TokenKind.noConfusion)
      · next hk => exact literal _ rfl (by rw [hk]; exact TokenKind.noConfusion)
      · next hk => exact literal _ rfl (by rw [hk]; exact TokenKind.noConfusion)
      · next hk => exact literal _ rfl (by rw [hk]; exact TokenKind.noConfusion)
      · next hk => exact literal _ rfl (by rw [hk]; exact TokenKind.noConfusion)
      · next hk =>
          refine meets_advance ht (by rw [hk]; decide) ?_
          refine (ih.binary 1 _).bind fun inner d hinner => ?_
          exact meets_expectClose (by decide) (meets_pure hinner)
      · next hk => exact absurd hk hid
      · split
        · exact meets_fail
        · exact meets_fail

end MeetsExprs

theorem meetsExprs (fuel : Nat) : MeetsExprs N fuel := by
  induction fuel with
  | zero =>
      exact
        { binary        := fun _ _ => meets_outOfFuel
          binaryRest    := fun _ _ _ _ => meets_outOfFuel
          unary         := fun _ => meets_outOfFuel
          fields        := fun _ _ _ => meets_outOfFuel
          primary       := fun _ => meets_outOfFuel
          arguments     := fun _ => meets_outOfFuel
          argumentsRest := fun _ => meets_outOfFuel
          structFields  := fun _ _ => meets_outOfFuel }
  | succ fuel ih =>
      exact
        { binary        := ih.binary_succ
          binaryRest    := ih.binaryRest_succ
          unary         := ih.unary_succ
          fields        := ih.fields_succ
          primary       := ih.primary_succ
          arguments     := ih.arguments_succ
          argumentsRest := ih.argumentsRest_succ
          structFields  := ih.structFields_succ }

theorem meets_expression (fuel : Nat) (c : Cursor) :
    Meets N (expression fuel) c fun e => ∀ id ∈ e.names, N id := (meetsExprs fuel).binary 1 c

/-! ## Simple statements -/

theorem meets_keyword {k : Keyword} (hk : c.atKeyword k = true)
    (h : Meets N (f ()) c.advance Q) : Meets N (advance >>= f) c Q := by
  obtain ⟨t, rest, ht, hkind⟩ := Cursor.atKeyword_iff.mp hk
  exact meets_advance ht (by rw [hkind]; exact TokenKind.noConfusion) h

theorem meets_symbol {s : Symbol} (hs : c.atSymbol s = true) (hdot : s ≠ .dot)
    (h : Meets N (f ()) c.advance Q) : Meets N (advance >>= f) c Q :=
  fun hc => h (free_advance_symbol hs hdot hc)

theorem meets_letRest (fuel : Nat) (start : Position) (mutable : Bool) (name : Ident)
    (declared : Option TypeRef) (c : Cursor) :
    Meets N (letRest fuel start mutable name declared) c fun d => ∀ id ∈ d.init.names, N id := by
  rw [letRest]
  refine meets_accept (by decide) ?_ (meets_peek.mpr meets_fail_bind)
  refine (meets_expression fuel _).bind fun init d hinit => meets_expectSemicolon ?_
  rw [meets_spanFrom]
  exact meets_pure hinit

theorem meets_letParts (fuel : Nat) (hlet : c.atKeyword .letKey = true) :
    Meets N (letParts fuel) c fun d => ∀ id ∈ d.init.names, N id := by
  rw [letParts_eq, meets_start]
  have named : ∀ (mutable : Bool) (d : Cursor), Meets N (do
      let name ← expectName .variableName
      if ← accept .colon then
        let type ← typeRef
        letRest fuel c.here.start mutable name (some type)
      else letRest fuel c.here.start mutable name none) d fun d => ∀ id ∈ d.init.names, N id := by
    intro mutable d
    refine meets_expectName fun name => meets_accept (by decide) (meets_typeRef fun type => ?_) ?_
    · exact meets_letRest fuel _ mutable name (some type) _
    · exact meets_letRest fuel _ mutable name none _
  exact meets_keyword hlet (meets_acceptKeyword (named true _) (named false _))

theorem meets_returnStmt (fuel : Nat) (hret : c.atKeyword .returnKey = true) :
    Meets N (returnStmt fuel) c fun st => ∀ id ∈ st.names, N id := by
  rw [returnStmt, meets_start]
  refine meets_keyword hret ?_
  rw [meets_atSymbol]
  split
  · refine meets_expectSemicolon ?_
    rw [meets_spanFrom]
    exact meets_pure fun _ hid => absurd hid List.not_mem_nil
  · refine ((meets_expression fuel _).map (R := fun v => ∃ e, v = some e ∧ ∀ id ∈ e.names, N id)
      fun e he => ⟨e, rfl, he⟩).bind fun v d hv => meets_expectSemicolon ?_
    rw [meets_spanFrom]
    obtain ⟨e, rfl, he⟩ := hv
    exact meets_pure he

theorem meets_simpleStmt (fuel : Nat) (c : Cursor) :
    Meets N (simpleStmt fuel) c fun st => ∀ id ∈ st.names, N id := by
  rw [simpleStmt]
  refine (meets_expression fuel c).bind fun e d he => ?_
  rw [meets_peek]
  cases hop : assignOp? d.tokens.head? with
  | none =>
      refine meets_expectSemicolon ?_
      rw [meets_spanFrom]
      exact meets_pure he
  | some op =>
      cases hparts : targetParts e [] with
      | none =>
          simp only [assignTarget, hparts]
          exact meets_failAt
      | some parts =>
          obtain ⟨root, path⟩ := parts
          simp only [assignTarget, hparts, pure_bind]
          refine meets_operator hop rfl (fun t => assignOp?_ne_dot) ?_
          refine (meets_expression fuel _).bind fun value d' hvalue => meets_expectSemicolon ?_
          rw [meets_spanFrom]
          refine meets_pure (List.forall_mem_append.mpr ⟨?_, hvalue⟩)
          rwa [targetParts_names e [] hparts]

/-! ## Statements -/

/-- The functions that read statements take their names from where no dot stands in front, at one
    amount of fuel. -/
structure MeetsStmts (N : Ident → Prop) (fuel : Nat) : Prop where
  block       : ∀ c, c.atSymbol .lbrace = true →
    Meets N (block fuel) c fun b => ∀ id ∈ b.names, N id
  blockRest   : ∀ opening done c, (∀ id ∈ stmtsNames done, N id) →
    Meets N (blockRest fuel opening done) c fun b => ∀ id ∈ b.names, N id
  statement   : ∀ c, Meets N (statement fuel) c fun st => ∀ id ∈ st.names, N id
  conditional : ∀ c, c.atKeyword .ifKey = true →
    Meets N (conditional fuel) c fun k => ∀ id ∈ k.names, N id
  expectBlock : ∀ head c, Meets N (expectBlock fuel head) c fun b => ∀ id ∈ b.names, N id

namespace MeetsStmts

variable {fuel : Nat}

theorem block_succ (ih : MeetsStmts N fuel) (c : Cursor) (hc : c.atSymbol .lbrace = true) :
    Meets N (Reader.block (fuel + 1)) c fun b => ∀ id ∈ b.names, N id := by
  rw [Reader.block, meets_get]
  refine meets_symbol hc (by decide) (ih.blockRest _ _ _ ?_)
  exact fun _ hid => absurd hid List.not_mem_nil

theorem blockRest_succ (ih : MeetsStmts N fuel) (opening : Span) (done : List (Stmt Unit))
    (c : Cursor) (hdone : ∀ id ∈ stmtsNames done, N id) :
    Meets N (Reader.blockRest (fuel + 1) opening done) c fun b => ∀ id ∈ b.names, N id := by
  rw [Reader.blockRest, meets_get]
  split
  · next hclose =>
      refine meets_symbol hclose (by decide) ?_
      rw [meets_spanFrom]
      exact meets_pure hdone
  · split
    · exact fun hc => ⟨hc, hdone⟩
    · split
      · exact fun hc => ⟨hc, hdone⟩
      · refine (meets_recover (ih.statement c)).bind fun found d hfound => ?_
        cases found with
        | none => exact ih.blockRest opening done d hdone
        | some st =>
            refine ih.blockRest opening (done ++ [st]) d ?_
            rw [stmtsNames_append]
            refine List.forall_mem_append.mpr ⟨hdone, ?_⟩
            rw [stmtsNames, stmtsNames, List.append_nil]
            exact hfound st rfl

theorem expectBlock_succ (ih : MeetsStmts N fuel) (head : BlockHead) (c : Cursor) :
    Meets N (Reader.expectBlock (fuel + 1) head) c fun b => ∀ id ∈ b.names, N id := by
  rw [Reader.expectBlock, meets_atSymbol]
  split
  · next hc => exact ih.block c hc
  · exact meets_rejectAssign (meets_peek.mpr meets_fail)

theorem conditional_succ (ih : MeetsStmts N fuel) (c : Cursor) (hc : c.atKeyword .ifKey = true) :
    Meets N (Reader.conditional (fuel + 1)) c fun k => ∀ id ∈ k.names, N id := by
  have whole : ∀ (span : Span) (test : Expr) (consequent : Block Unit) (alternate : Else Unit),
      (∀ id ∈ test.names, N id) → (∀ id ∈ consequent.names, N id) →
      (∀ id ∈ alternate.names, N id) →
      ∀ id ∈ (Cond.mk span test consequent alternate).names, N id :=
    fun _ _ _ _ htest hcons halt =>
      List.forall_mem_append.mpr ⟨List.forall_mem_append.mpr ⟨htest, hcons⟩, halt⟩
  rw [Reader.conditional, meets_start]
  refine meets_keyword hc ((meets_expression fuel _).bind fun test d₁ htest => ?_)
  refine (ih.expectBlock .ifCondition d₁).bind fun consequent d₂ hcons => meets_acceptKeyword ?_ ?_
  · simp only [if_true, meets_atKeyword]
    split
    · next hif =>
        refine (ih.conditional _ hif).bind fun inner d₃ hinner => meets_pure ?_
        exact whole _ test consequent _ htest hcons hinner
    · refine (ih.expectBlock .elseWord _).bind fun b d₃ hb => meets_pure ?_
      exact whole _ test consequent _ htest hcons hb
  · refine meets_pure (whole _ test consequent _ htest hcons ?_)
    exact fun _ hid => absurd hid List.not_mem_nil

theorem statement_succ (ih : MeetsStmts N fuel) (c : Cursor) :
    Meets N (Reader.statement (fuel + 1)) c fun st => ∀ id ∈ st.names, N id := by
  rw [Reader.statement, meets_get]
  split
  · next hk =>
      refine (meets_letParts fuel (by simp [Cursor.atKeyword, hk])).bind fun d _ hd => ?_
      exact meets_pure hd
  · next hk => exact (ih.conditional c (by simp [Cursor.atKeyword, hk])).map fun _ hk => hk
  · next hk =>
      rw [meets_start]
      refine meets_keyword (k := .whileKey) (by simp [Cursor.atKeyword, hk]) ?_
      refine (meets_expression fuel _).bind fun test d₁ htest => ?_
      refine (ih.expectBlock .whileCondition d₁).bind fun body d₂ hbody => meets_pure ?_
      exact List.forall_mem_append.mpr ⟨htest, hbody⟩
  · next hk => exact meets_returnStmt fuel (by simp [Cursor.atKeyword, hk])
  · next hk => exact (ih.block c (by simp [Cursor.atSymbol, hk])).map fun _ hb => hb
  · exact meets_fail
  · exact meets_simpleStmt fuel c

end MeetsStmts

theorem meetsStmts (fuel : Nat) : MeetsStmts N fuel := by
  induction fuel with
  | zero =>
      exact
        { block       := fun _ _ => meets_outOfFuel
          blockRest   := fun _ _ _ _ => meets_outOfFuel
          statement   := fun _ => meets_outOfFuel
          conditional := fun _ _ => meets_outOfFuel
          expectBlock := fun _ _ => meets_outOfFuel }
  | succ fuel ih =>
      exact
        { block       := ih.block_succ
          blockRest   := ih.blockRest_succ
          statement   := ih.statement_succ
          conditional := ih.conditional_succ
          expectBlock := ih.expectBlock_succ }

/-! ## Declarations -/

theorem meets_parametersRest (fuel : Nat) : ∀ c, Meets N (parametersRest fuel) c fun _ => True := by
  induction fuel with
  | zero => exact fun c => meets_outOfFuel
  | succ fuel ih =>
      intro c
      rw [parametersRest, meets_peek]
      cases ht : c.tokens with
      | nil => exact meets_fail
      | cons t rest =>
          by_cases hk : t.kind = .identifier
          · simp only [List.head?_cons, hk, if_true]
            refine meets_advance ht (by rw [hk]; exact TokenKind.noConfusion) ?_
            refine meets_accept (by decide) (meets_typeRef fun type => ?_) meets_failAt_bind
            refine meets_accept (by decide) ((ih _).bind fun _ _ _ => meets_pure trivial) ?_
            exact meets_expectClose (by decide) (meets_pure trivial)
          · simp only [List.head?_cons, hk, if_false]
            exact meets_fail

theorem meets_parameters (fuel : Nat) (c : Cursor) :
    Meets N (parameters fuel) c fun _ => True := by
  rw [parameters]
  exact meets_accept (by decide) (meets_pure trivial) (meets_parametersRest fuel c)

theorem meets_exportMark (fuel : Nat) (hc : c.atSymbol .atSign = true) :
    Meets N (exportMark fuel) c fun _ => True := by
  rw [exportMark, meets_start]
  refine meets_symbol hc (by decide) (meets_expectName fun name => ?_)
  by_cases hname : name.name = "export"
  · simp only [hname, ne_eq, not_true_eq_false, if_false]
    refine meets_accept (by decide) (meets_expectName fun hint => ?_) ?_
    · refine meets_expectMark (by decide) ?_
      refine ((meetsExprs fuel).arguments _).bind fun args d _ => ?_
      refine meets_expectClose (by decide) ?_
      rw [meets_spanFrom]
      refine meets_expectClose (by decide) ?_
      rw [meets_spanFrom]
      exact meets_pure trivial
    · simp only [Bool.false_eq_true, if_false, meets_spanFrom]
      exact meets_pure trivial
  · simp only [hname, ne_eq, not_false_eq_true, if_true]
    exact meets_failAt_bind

theorem meets_globalDecl (fuel : Nat) (exported : Option ExportMark)
    (hc : c.atKeyword .letKey = true) :
    Meets N (globalDecl fuel exported) c fun g => ∀ id ∈ g.init.names, N id := by
  rw [globalDecl]
  exact (meets_letParts fuel hc).bind fun d _ hd => meets_pure hd

theorem meets_returnType (c : Cursor) : Meets N returnType c fun _ => True := by
  rw [returnType]
  refine meets_accept (by decide) ?_ (meets_pure trivial)
  simp only [if_true, meets_peek]
  cases ht : c.advance.tokens with
  | nil => exact meets_fail
  | cons t rest =>
      by_cases hk : t.kind = .identifier
      · simp only [List.head?_cons, hk, if_true]
        exact meets_advance ht (by rw [hk]; exact TokenKind.noConfusion) (meets_pure trivial)
      · simp only [List.head?_cons, hk, if_false]
        exact meets_fail

theorem meets_functionDecl (fuel : Nat) (hc : c.atKeyword .fnKey = true) :
    Meets N (functionDecl fuel) c fun f => ∀ id ∈ f.body.names, N id := by
  rw [functionDecl, meets_start]
  refine meets_keyword hc (meets_expectName fun name => ?_)
  refine meets_accept (by decide) ?_ (meets_peek.mpr meets_fail_bind)
  refine (meets_parameters fuel _).bind fun params d₁ _ => ?_
  refine (meets_returnType d₁).bind fun result d₂ _ => ?_
  rw [meets_atSymbol]
  by_cases hbrace : d₂.atSymbol .lbrace = true
  · simp only [hbrace, Bool.not_true, Bool.false_eq_true, if_false]
    exact ((meetsStmts fuel).block d₂ hbrace).bind fun body d₃ hbody => meets_pure hbody
  · simp only [hbrace, Bool.not_false, if_true]
    exact meets_peek.mpr meets_fail_bind

theorem meets_signalDecl (fuel : Nat) (hc : c.atKeyword .signalKey = true) :
    Meets N (signalDecl fuel) c
      fun s => ∀ id ∈ (Declaration.signal s : Declaration Unit).names, N id := by
  rw [signalDecl, meets_start]
  refine meets_keyword hc (meets_expectName fun name => meets_expectMark (by decide) ?_)
  refine (meets_parameters fuel _).bind fun params d _ => meets_expectSemicolon ?_
  rw [meets_spanFrom]
  exact meets_pure fun _ hid => absurd hid List.not_mem_nil

theorem meets_declaration (fuel : Nat) (c : Cursor) :
    Meets N (declaration fuel) c
      fun found => ∀ d, found = some d → ∀ id ∈ d.names, N id := by
  have item : ∀ {γ : Type} {x : Reader γ} {mk : γ → Declaration Unit} {c : Cursor},
      Meets N x c (fun a => ∀ id ∈ (mk a).names, N id) →
      Meets N (some <$> mk <$> x) c fun found => ∀ d, found = some d → ∀ id ∈ d.names, N id := by
    intro γ x mk c h
    refine (h.map (R := fun d => ∀ id ∈ d.names, N id) fun _ hd => hd).map fun d hd => ?_
    rintro _ ⟨⟩
    exact hd
  rw [declaration, meets_peek]
  cases ht : c.tokens with
  | nil => exact meets_fail
  | cons t rest =>
      have hkey : ∀ k, t.kind = .keyword k → c.atKeyword k = true := fun k hk =>
        Cursor.atKeyword_iff.mpr ⟨t, rest, ht, hk⟩
      simp only [List.head?_cons, Option.map_some]
      split
      · next hk =>
          have hat : c.atSymbol .atSign = true :=
            Cursor.atSymbol_iff.mpr ⟨t, rest, ht, Option.some.inj hk⟩
          refine (meets_exportMark fuel hat).bind fun mark d _ => ?_
          rw [meets_atKeyword]
          split
          · next hlet => exact item (meets_globalDecl fuel (some mark) hlet)
          · exact meets_peek.mpr meets_fail
      · next hk => exact item (meets_globalDecl fuel none (hkey _ (Option.some.inj hk)))
      · next hk => exact item (meets_functionDecl fuel (hkey _ (Option.some.inj hk)))
      · next hk => exact item (meets_signalDecl fuel (hkey _ (Option.some.inj hk)))
      · next hk =>
          refine meets_advance ht (by rw [Option.some.inj hk]; decide) (meets_pure ?_)
          rintro _ ⟨⟩
      · exact meets_fail

theorem meets_declarations (fuel : Nat) : ∀ c, Meets N (declarations fuel) c
    fun body => ∀ id ∈ body.flatMap Declaration.names, N id := by
  induction fuel with
  | zero => exact fun c => meets_outOfFuel
  | succ fuel ih =>
      intro c
      rw [declarations, meets_get]
      split
      · exact meets_pure fun _ hid => absurd hid List.not_mem_nil
      · refine (meets_recover (meets_declaration fuel c)).bind fun found d hfound => ?_
        refine (ih d).bind fun more d' hmore => meets_pure ?_
        rw [List.flatMap_append]
        refine List.forall_mem_append.mpr ⟨?_, hmore⟩
        cases hjoin : found.join with
        | none => exact fun _ hid => absurd hid List.not_mem_nil
        | some item =>
            rw [Option.join_eq_some_iff] at hjoin
            simpa using hfound _ hjoin item rfl

end Reader

/-! ## Whole scripts -/

/-- What holds of all identifiers that do not stand directly behind a dot holds of the names that a
    script uses, whatever is wrong with its shape. -/
theorem parseTokens_names {tokens : List Token} (h : FreeNames N false tokens) (finish : Position) :
    ∀ id ∈ (parseTokens tokens finish).program.names, N id := by
  have hread := Reader.meets_declarations (N := N) (parserFuel tokens.length)
    ⟨tokens, .origin, finish, []⟩ h
  rw [Ends] at hread
  rw [parseTokens]
  split
  · next body c hrun =>
      rw [hrun] at hread
      exact hread.2
  · exact fun _ hid => absurd hid List.not_mem_nil

/-- The names that a script uses are whole words of its text, and no dot stands in front of one. -/
theorem parseSource_names (source : Text) :
    ∀ id ∈ (parseSource source).program.names, id.StandsIn source := by
  rw [parseSource]
  split
  · next hclean => exact parseTokens_names (tokenize_freeNames (by simpa using hclean)) _
  · exact fun _ hid => absurd hid List.not_mem_nil

end SceneScript
