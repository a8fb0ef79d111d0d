import SceneScript.Proofs.Syntax.Nesting
import SceneScript.Proofs.Syntax.Parsed

/-!
# The places of what is read

Every part of a program takes its place from the tokens it was read from, some of them from the
first token to the last, some from the place of one part to that of another, and a block that was
never closed from its brace to wherever reading stands. All of these lie between where reading
stood before and where it stands afterwards, whatever was skipped in between, so the tree of a
program is nested.

* **`Cursor.Ordered`** — the tokens ahead follow one another.
* **`Cursor.reach`** — how far reading has come: everything read so far ends there.
* **`Lays x c lo trees`** — what the step reads is laid from `lo` to where it ends up.
* **`Reader.LaysExprs`**, **`Reader.LaysStmts`** — the functions of the parser at one amount of
  fuel.
* **`Reader.lays_declarations`** — whole scripts.
-/

namespace SceneScript

variable {α β : Type}

/-! ## Where reading stands -/

namespace Cursor

/-- The tokens ahead follow one another from the end of the last one to the end of the script. -/
def Ordered (c : Cursor) : Prop :=
  InOrder c.last.offset (c.tokens.map Token.span) c.finish.offset

/-- How far reading has come: to the end of the last token, or of the script when none is left. -/
def reach (c : Cursor) : Nat :=
  match c.tokens with
  | []     => c.finish.offset
  | _ :: _ => c.last.offset

/-- The offset of what comes next. -/
def next (c : Cursor) : Nat := c.here.start.offset

variable {c d e : Cursor} {t : Token} {rest : List Token}

theorem Ordered.last_le_reach (h : c.Ordered) : c.last.offset ≤ c.reach := by
  rw [reach]
  split
  · exact h.le
  · exact Nat.le_refl _

theorem Ordered.reach_le_next (h : c.Ordered) : c.reach ≤ c.next := by
  rw [reach, next, here]
  cases ht : c.tokens with
  | nil => exact Nat.le_refl _
  | cons t rest =>
      rw [Ordered, ht, List.map_cons] at h
      cases h with
      | cons hlo _ _ => exact hlo

theorem Ordered.reach_le_finish (h : c.Ordered) : c.reach ≤ c.finish.offset := by
  rw [reach]
  split
  · exact Nat.le_refl _
  · exact h.le

/-- The second cursor stands further on, and its tokens are in order. -/
structure Onward (c d : Cursor) : Prop where
  ordered : d.Ordered
  reach   : c.reach ≤ d.reach
  next    : c.next ≤ d.next

theorem Onward.refl (h : c.Ordered) : c.Onward c := ⟨h, Nat.le_refl _, Nat.le_refl _⟩

theorem Onward.trans (hcd : c.Onward d) (hde : d.Onward e) : c.Onward e :=
  ⟨hde.ordered, Nat.le_trans hcd.reach hde.reach, Nat.le_trans hcd.next hde.next⟩

/-- The next token and where it stands. -/
structure Takes (c : Cursor) (t : Token) : Prop where
  start : c.reach ≤ t.span.start.offset
  next  : c.next = t.span.start.offset
  span  : t.span.start.offset ≤ t.span.stop.offset
  last  : c.advance.last = t.span.stop
  stop  : t.span.stop.offset ≤ c.advance.reach

theorem Ordered.ordered_advance (h : c.Ordered) (ht : c.tokens = t :: rest) :
    c.advance.Ordered := by
  rw [Ordered, ht, List.map_cons] at h
  cases h with
  | cons _ _ hrest =>
      rw [advance_cons ht]
      exact hrest

theorem Ordered.takes (h : c.Ordered) (ht : c.tokens = t :: rest) : c.Takes t := by
  have hstop := (h.ordered_advance ht).last_le_reach
  have hlast : c.advance.last = t.span.stop := by rw [advance_cons ht]
  have hnext : c.next = t.span.start.offset := by rw [next, here, ht]
  have hstart := h.reach_le_next
  rw [hnext] at hstart
  rw [hlast] at hstop
  rw [Ordered, ht, List.map_cons] at h
  cases h with
  | cons _ hspan _ => exact ⟨hstart, hnext, hspan, hlast, hstop⟩

theorem Takes.reach_le_last (h : c.Takes t) : c.reach ≤ c.advance.last.offset := by
  rw [h.last]
  exact Nat.le_trans h.start h.span

theorem Takes.reach_le (h : c.Takes t) : c.reach ≤ c.advance.reach :=
  Nat.le_trans (Nat.le_trans h.start h.span) h.stop

theorem Takes.leaf (h : c.Takes t) (k : NodeKind) :
    Laid c.reach [.node k t.span []] c.advance.reach := .leaf h.start h.span h.stop

/-- A name is laid like its token. -/
theorem Takes.name (h : c.Takes t) :
    Laid c.reach [(⟨t.lexeme, t.span⟩ : Ident).tree] c.advance.reach := h.leaf .identifier

theorem Ordered.next_le (h : c.Ordered) : c.next ≤ c.advance.reach := by
  cases ht : c.tokens with
  | nil => rw [show c.advance = c by rw [advance, ht], next, here, reach, ht]; exact Nat.le_refl _
  | cons t rest =>
      have htakes := h.takes ht
      rw [htakes.next]
      exact Nat.le_trans htakes.span htakes.stop

theorem Ordered.onward_advance (h : c.Ordered) : c.Onward c.advance := by
  cases ht : c.tokens with
  | nil =>
      rw [show c.advance = c by rw [advance, ht]]
      exact .refl h
  | cons t rest =>
      have hadv := h.ordered_advance ht
      exact ⟨hadv, (h.takes ht).reach_le, Nat.le_trans h.next_le hadv.reach_le_next⟩

theorem Ordered.onward_skip (h : c.Ordered) (n : Nat) : c.Onward (c.skip n) := by
  induction n generalizing c with
  | zero => exact .refl h
  | succ n ih => exact h.onward_advance.trans (ih h.onward_advance.ordered)

/-- Recording an error does not move the cursor. -/
theorem Ordered.onward_record (h : c.Ordered) (e : SyntaxError) (span : Span) :
    c.Onward (c.record e span) := ⟨h, Nat.le_refl _, Nat.le_refl _⟩

end Cursor

/-! ## Steps -/

/-- From a cursor whose tokens are in order, the step moves onward, and the trees of what it reads
    are laid from `lo` to where it ends up. -/
def Lays (x : Reader α) (c : Cursor) (lo : Nat) (trees : α → List Tree) : Prop :=
  c.Ordered → Ends x c (fun a d => c.Onward d ∧ Laid lo (trees a) d.reach) (fun _ d => c.Onward d)

namespace Lays

variable {c : Cursor} {x : Reader α} {f : α → Reader β} {lo lo' : Nat} {T : α → List Tree}
  {U : β → List Tree}

theorem lower (h : Lays x c lo T) (hle : c.Ordered → lo' ≤ lo) : Lays x c lo' T :=
  fun hc => Ends.mono (h hc) (fun _ _ ha => ⟨ha.1, ha.2.lower (hle hc)⟩) fun _ _ he => he

/-- One step after another. -/
theorem bind (hx : Lays x c lo T)
    (hf : ∀ a d, c.Onward d → Laid lo (T a) d.reach → Lays (f a) d lo' U) :
    Lays (x >>= f) c lo' U := by
  intro hc
  refine ends_bind.mpr (Ends.mono (hx hc) (fun a d ha => ?_) fun _ _ he => he)
  obtain ⟨hcd, hlaid⟩ := ha
  refine Ends.mono (hf a d hcd hlaid hcd.ordered) (fun b e hb => ?_) fun _ e he => hcd.trans he
  exact ⟨hcd.trans hb.1, hb.2⟩

theorem map {g : α → β} (h : Lays x c lo fun a => U (g a)) : Lays (g <$> x) c lo U :=
  fun hc => ends_map.mpr (h hc)

theorem congr {y : Reader α} (hxy : x c = y c) (h : Lays y c lo T) : Lays x c lo T :=
  fun hc => (ends_congr hxy).mpr (h hc)

end Lays

namespace Reader

variable {c : Cursor} {lo : Nat} {T : α → List Tree} {f : Unit → Reader α}

theorem lays_pure {a : α} (h : c.Ordered → Laid lo (T a) c.reach) : Lays (pure a) c lo T :=
  fun hc => ⟨.refl hc, h hc⟩

theorem lays_outOfFuel : Lays (throw .outOfFuel) c lo T := fun hc => Cursor.Onward.refl hc

theorem lays_failAt {span : Span} {e : SyntaxError} : Lays (failAt span e) c lo T :=
  fun hc => hc.onward_record e span

theorem lays_fail {e : SyntaxError} : Lays (fail e) c lo T :=
  fun hc => hc.onward_record e c.here

/-- What stands behind a step that gives up is not reached. -/
theorem lays_failAt_bind {span : Span} {e : SyntaxError} {f : β → Reader α} :
    Lays (failAt span e >>= f) c lo T := lays_failAt (T := T)

theorem lays_fail_bind {e : SyntaxError} {f : β → Reader α} : Lays (fail e >>= f) c lo T :=
  lays_fail (T := T)

/-! ## Steps that look and do not move -/

theorem lays_get {f : Cursor → Reader α} : Lays (get >>= f) c lo T ↔ Lays (f c) c lo T := Iff.rfl

theorem lays_peek {f : Option Token → Reader α} :
    Lays (peek >>= f) c lo T ↔ Lays (f c.tokens.head?) c lo T := Iff.rfl

theorem lays_atSymbol {s : Symbol} {f : Bool → Reader α} :
    Lays (atSymbol s >>= f) c lo T ↔ Lays (f (c.atSymbol s)) c lo T := Iff.rfl

theorem lays_atKeyword {k : Keyword} {f : Bool → Reader α} :
    Lays (atKeyword k >>= f) c lo T ↔ Lays (f (c.atKeyword k)) c lo T := Iff.rfl

theorem lays_spanFrom {p : Position} {f : Span → Reader α} :
    Lays (spanFrom p >>= f) c lo T ↔ Lays (f ⟨p, c.last⟩) c lo T := Iff.rfl

theorem lays_start {f : Position → Reader α} :
    Lays (start >>= f) c lo T ↔ Lays (f c.here.start) c lo T := Iff.rfl

/-! ## Steps that move by one token -/

/-- What is read behind the next token. -/
theorem lays_behind {x : Reader α} (h : Lays x c.advance lo T) (hc : c.Ordered) :
    Ends x c.advance (fun a d => c.Onward d ∧ Laid lo (T a) d.reach) (fun _ d => c.Onward d) := by
  have hadv := hc.onward_advance
  exact Ends.mono (h hadv.ordered) (fun a d ha => ⟨hadv.trans ha.1, ha.2⟩)
    fun _ d he => hadv.trans he

theorem lays_advance {t : Token} {rest : List Token} (ht : c.tokens = t :: rest)
    (h : c.Takes t → Lays (f ()) c.advance lo T) : Lays (advance >>= f) c lo T :=
  fun hc => lays_behind (h (hc.takes ht)) hc

theorem lays_onward (h : c.Ordered → Lays (f ()) c.advance lo T) :
    Lays (advance >>= f) c lo T := fun hc => lays_behind (h hc) hc

/-- What is read behind a symbol that is there. -/
theorem lays_symbol {s : Symbol} {x : Reader α} (hs : c.atSymbol s = true) (hc : c.Ordered)
    (h : ∀ t, c.Takes t → Lays x c.advance lo T) :
    Ends x c.advance (fun a d => c.Onward d ∧ Laid lo (T a) d.reach) (fun _ d => c.Onward d) := by
  obtain ⟨t, rest, ht, -⟩ := Cursor.atSymbol_iff.mp hs
  exact lays_behind (h t (hc.takes ht)) hc

theorem lays_accept {s : Symbol} {f : Bool → Reader α}
    (hyes : ∀ t, c.Takes t → Lays (f true) c.advance lo T) (hno : Lays (f false) c lo T) :
    Lays (accept s >>= f) c lo T :=
  fun hc => ends_bind.mpr
    (ends_accept.mpr ⟨fun hs => lays_symbol hs hc hyes, fun _ => hno hc⟩)

theorem lays_acceptKeyword {k : Keyword} {f : Bool → Reader α}
    (hyes : ∀ t, c.Takes t → Lays (f true) c.advance lo T) (hno : Lays (f false) c lo T) :
    Lays (acceptKeyword k >>= f) c lo T := by
  intro hc
  refine ends_bind.mpr (ends_acceptKeyword.mpr ⟨fun hk => ?_, fun _ => hno hc⟩)
  obtain ⟨t, rest, ht, -⟩ := Cursor.atKeyword_iff.mp hk
  exact lays_behind (hyes t (hc.takes ht)) hc

theorem lays_expectName {expected : Expected} {f : Ident → Reader α}
    (h : ∀ t, c.Takes t → Lays (f ⟨t.lexeme, t.span⟩) c.advance lo T) :
    Lays (expectName expected >>= f) c lo T :=
  fun hc => ends_bind.mpr (ends_expectName
    (fun t _ ht _ => lays_behind (h t (hc.takes ht)) hc) fun e => hc.onward_record e _)

theorem lays_typeRef {f : TypeRef → Reader α}
    (h : ∀ type, Laid c.reach [type.tree] c.advance.reach → Lays (f type) c.advance lo T) :
    Lays (typeRef >>= f) c lo T :=
  fun hc => ends_bind.mpr (ends_typeRef
    (fun _ _ ht _ => lays_behind (h _ ((hc.takes ht).leaf .typeRef)) hc)
    fun e => hc.onward_record e _)

theorem lays_expectMark {s : Symbol} {mark : Mark}
    (h : ∀ t, c.Takes t → Lays (f ()) c.advance lo T) :
    Lays (expectMark s mark >>= f) c lo T :=
  fun hc => ends_bind.mpr
    (ends_expectMark (fun hs => lays_symbol hs hc h) fun e => hc.onward_record e _)

theorem lays_expectClose {s : Symbol} {enclosed : Enclosed}
    (h : ∀ t, c.Takes t → Lays (f ()) c.advance lo T) :
    Lays (expectClose s enclosed >>= f) c lo T :=
  fun hc => ends_bind.mpr
    (ends_expectClose (fun hs => lays_symbol hs hc h) fun e => hc.onward_record e _)

theorem lays_expectSemicolon {ended : Ended}
    (h : ∀ t, c.Takes t → Lays (f ()) c.advance lo T) :
    Lays (expectSemicolon ended >>= f) c lo T :=
  fun hc => ends_bind.mpr
    (ends_expectSemicolon (fun hs => lays_symbol hs hc h) fun e _ => hc.onward_record e _)

theorem lays_rejectAssign (h : Lays (f ()) c lo T) : Lays (rejectAssign >>= f) c lo T :=
  fun hc => ends_bind.mpr (ends_rejectAssign (h hc) fun e _ => hc.onward_record e _)

/-- Trees under a new node that ends with the next token. -/
theorem laid_closed {t : Token} {p : Position} {k : NodeKind} {trees : List Tree}
    (htrees : Laid p.offset trees c.reach) (hlo : lo ≤ p.offset) (ht : c.Takes t)
    (hadv : c.advance.Ordered) : Laid lo [.node k ⟨p, c.advance.last⟩ trees] c.advance.reach :=
  (htrees.upper ht.reach_le_last).node hlo hadv.last_le_reach

/-- What ends with the next token is laid when its parts are. -/
theorem lays_spanned {t : Token} {mk : Span → α} {p : Position} {k : NodeKind} {trees : List Tree}
    (hmk : ∀ span, T (mk span) = [.node k span trees])
    (htrees : Laid p.offset trees c.reach) (hlo : lo ≤ p.offset) (ht : c.Takes t) :
    Lays (do return mk (← spanFrom p)) c.advance lo T := by
  rw [lays_spanFrom]
  refine lays_pure fun hadv => ?_
  rw [hmk]
  exact laid_closed htrees hlo ht hadv

theorem lays_closed {s : Symbol} {enclosed : Enclosed} {mk : Span → α} {p : Position}
    {k : NodeKind} {trees : List Tree} (hmk : ∀ span, T (mk span) = [.node k span trees])
    (htrees : Laid p.offset trees c.reach) (hlo : lo ≤ p.offset) :
    Lays (do expectClose s enclosed; return mk (← spanFrom p)) c lo T :=
  lays_expectClose fun _ hclose => lays_spanned hmk htrees hlo hclose

theorem lays_ended {ended : Ended} {mk : Span → α} {p : Position} {k : NodeKind}
    {trees : List Tree} (hmk : ∀ span, T (mk span) = [.node k span trees])
    (htrees : Laid p.offset trees c.reach) (hlo : lo ≤ p.offset) :
    Lays (do expectSemicolon ended; return mk (← spanFrom p)) c lo T :=
  lays_expectSemicolon fun _ hsemi => lays_spanned hmk htrees hlo hsemi

/-- An item that is given up leaves nothing but a gap. -/
theorem lays_recover {level : Cursor.Level} {step : Reader β} {f : Option β → Reader α}
    {lo' : Nat} {U : β → List Tree} (hstep : Lays step c lo' U)
    (hsome : ∀ b d, c.Onward d → Laid lo' (U b) d.reach → Lays (f (some b)) d lo T)
    (hnone : ∀ d, c.Onward d → Lays (f none) d lo T) :
    Lays (recover level step >>= f) c lo T := by
  have hfound : c.Ordered → Ends (recover level step) c
      (fun found d => c.Onward d ∧ ∀ b, found = some b → Laid lo' (U b) d.reach)
      (fun _ d => c.Onward d) := by
    intro hc
    refine ends_recover.mpr (Ends.mono (hstep hc) (fun b d hb => ⟨hb.1, ?_⟩) fun stop d he => ?_)
    · rintro _ ⟨⟩
      exact hb.2
    · have hskip := he.ordered.onward_skip (Cursor.skipCount level 0 d.tokens)
      exact ⟨fun _ => ⟨he.trans hskip, fun _ h => nomatch h⟩, fun _ => he⟩
  intro hc
  refine ends_bind.mpr (Ends.mono (hfound hc) (fun found d hd => ?_) fun _ _ he => he)
  obtain ⟨hcd, hlaid⟩ := hd
  have hrest : Lays (f found) d lo T := by
    cases found with
    | none => exact hnone d hcd
    | some b => exact hsome b d hcd (hlaid b rfl)
  exact Ends.mono (hrest hcd.ordered) (fun a e ha => ⟨hcd.trans ha.1, ha.2⟩)
    fun _ e he => hcd.trans he

/-! ## Expressions -/

theorem span_exprTree (e : Expr) : e.tree.span = e.span := by
  cases e <;> rfl

/-- Two expressions under an operator. -/
theorem laid_binary {left right : Expr} {m n hi : Nat} (op : BinaryOp)
    (hl : Laid lo [left.tree] m) (hle : m ≤ n) (hr : Laid n [right.tree] hi) :
    Laid lo [(Expr.binary (left.span.through right.span) op left right).tree] hi := by
  rw [Expr.tree, ← span_exprTree, ← span_exprTree]
  exact hl.pair hle hr

/-- A field of an expression. -/
theorem laid_field {object : Expr} {name : Ident} {m n hi : Nat} (ho : Laid lo [object.tree] m)
    (hle : m ≤ n) (hn : Laid n [name.tree] hi) :
    Laid lo [(Expr.field (object.span.through name.span) object name).tree] hi := by
  rw [Expr.tree, ← span_exprTree]
  exact ho.pair hle hn

/-- The functions that read expressions lay them, at one amount of fuel. Those that go on with an
    expression lay it from where it began. -/
structure LaysExprs (fuel : Nat) : Prop where
  binary        : ∀ level c, Lays (binary fuel level) c c.reach fun e => [e.tree]
  binaryRest    : ∀ level left c lo, Laid lo [left.tree] c.reach →
    Lays (binaryRest fuel level left) c lo fun e => [e.tree]
  unary         : ∀ c, Lays (unary fuel) c c.reach fun e => [e.tree]
  fields        : ∀ object c lo, Laid lo [object.tree] c.reach →
    Lays (fields fuel object) c lo fun e => [e.tree]
  primary       : ∀ c, Lays (primary fuel) c c.reach fun e => [e.tree]
  arguments     : ∀ c, Lays (arguments fuel) c c.reach exprTrees
  argumentsRest : ∀ c, Lays (argumentsRest fuel) c c.reach exprTrees
  structFields  : ∀ typeName c, Lays (structFields fuel typeName) c c.reach fieldTrees

namespace LaysExprs

variable {fuel : Nat}

theorem binary_succ (ih : LaysExprs fuel) (level : Nat) (c : Cursor) :
    Lays (Reader.binary (fuel + 1) level) c c.reach fun e => [e.tree] := by
  rw [Reader.binary]
  exact (ih.unary c).bind fun left d _ hl => ih.binaryRest level left d c.reach hl

theorem binaryRest_succ (ih : LaysExprs fuel) (level : Nat) (left : Expr) (c : Cursor) (lo : Nat)
    (h : Laid lo [left.tree] c.reach) :
    Lays (Reader.binaryRest (fuel + 1) level left) c lo fun e => [e.tree] := by
  rw [Reader.binaryRest, lays_peek]
  cases hop : binaryOp? c.tokens.head? with
  | none => exact lays_pure fun _ => h
  | some op =>
      by_cases hlow : op.precedence < level
      · simp only [hlow, if_true]
        exact lays_pure fun _ => h
      · simp only [hlow, if_false]
        obtain ⟨t, ht, -⟩ := binaryOp?_word hop
        obtain ⟨rest, ht⟩ := head?_cons ht
        refine lays_advance ht fun htakes => (ih.binary _ _).bind fun right d _ hr => ?_
        exact ih.binaryRest level _ d lo (laid_binary op h htakes.reach_le hr)

theorem unaryPlain (ih : LaysExprs fuel) (c : Cursor) :
    Lays (Reader.unaryPlain fuel c) c c.reach fun e => [e.tree] := by
  rw [Reader.unaryPlain]
  cases hop : unaryOp? c.tokens.head? with
  | some op =>
      obtain ⟨t, ht, -⟩ := unaryOp?_word hop
      obtain ⟨rest, ht⟩ := head?_cons ht
      refine lays_advance ht fun htakes => (ih.unary _).bind fun arg d _ ha => lays_pure fun _ => ?_
      have hhere : c.here = t.span := by rw [Cursor.here, ht]
      rw [Expr.tree, hhere, ← span_exprTree]
      exact .ending (.nil (Nat.le_trans htakes.span htakes.stop)) (Nat.le_refl _) ha htakes.start
  | none => exact (ih.primary c).bind fun object d _ ho => ih.fields object d c.reach ho

theorem unary_succ (ih : LaysExprs fuel) (c : Cursor) :
    Lays (Reader.unary (fuel + 1)) c c.reach fun e => [e.tree] := by
  by_cases hleast : AtLeast c
  · obtain ⟨minus, number, rest, ht, hm, hn⟩ := hleast
    have ht' : c.advance.tokens = number :: rest := Cursor.advance_tokens ht
    intro hc
    have hadv := hc.onward_advance
    have hminus := hc.takes ht
    have hnumber := hadv.ordered.takes ht'
    refine (ends_of_ok (unary_least ht hm hn)).mpr
      ⟨hadv.trans hadv.ordered.onward_advance, .leaf hminus.start ?_ hnumber.stop⟩
    have hbetween := Nat.le_trans hminus.stop hnumber.start
    exact Nat.le_trans (Nat.le_trans hminus.span hbetween) hnumber.span
  · exact .congr (unary_plain hleast) (ih.unaryPlain c)

theorem fields_succ (ih : LaysExprs fuel) (object : Expr) (c : Cursor) (lo : Nat)
    (h : Laid lo [object.tree] c.reach) :
    Lays (Reader.fields (fuel + 1) object) c lo fun e => [e.tree] := by
  rw [Reader.fields]
  refine lays_accept (fun dot hdot => lays_expectName fun name hn => ?_) (lays_pure fun _ => h)
  rw [lays_atSymbol]
  split
  · exact lays_fail_bind
  · exact ih.fields _ _ lo (laid_field h hdot.reach_le hn.name)

/-- The arguments behind the first one, which is laid already. -/
theorem lays_more (ih : LaysExprs fuel) {first : Expr} {c : Cursor} {lo : Nat}
    (h : Laid lo [first.tree] c.reach) :
    Lays (do return first :: (← Reader.argumentsRest fuel)) c lo exprTrees :=
  (ih.argumentsRest c).bind fun _ _ _ hm => lays_pure fun _ => h.append (Nat.le_refl _) hm

theorem arguments_succ (ih : LaysExprs fuel) (c : Cursor) :
    Lays (Reader.arguments (fuel + 1)) c c.reach exprTrees := by
  rw [Reader.arguments, lays_atSymbol]
  split
  · exact lays_pure fun _ => .nil (Nat.le_refl _)
  · exact (ih.binary 1 c).bind fun first d _ hf => ih.lays_more hf

theorem argumentsRest_succ (ih : LaysExprs fuel) (c : Cursor) :
    Lays (Reader.argumentsRest (fuel + 1)) c c.reach exprTrees := by
  rw [Reader.argumentsRest]
  refine lays_accept (fun comma hcomma => ?_) (lays_pure fun _ => .nil (Nat.le_refl _))
  refine (ih.binary 1 c.advance).bind fun next d _ hn => ?_
  exact ih.lays_more (hn.lower hcomma.reach_le)

theorem structFields_succ (ih : LaysExprs fuel) (typeName : Ident) (c : Cursor) :
    Lays (Reader.structFields (fuel + 1) typeName) c c.reach fieldTrees := by
  rw [Reader.structFields, lays_atSymbol]
  split
  · exact lays_pure fun _ => .nil (Nat.le_refl _)
  · refine lays_expectName fun name hname => lays_expectMark fun colon hcolon => ?_
    refine (ih.binary 1 _).bind fun value d _ hvalue => ?_
    have hfield : Laid c.reach (fieldTrees [(⟨name.lexeme, name.span⟩, value)]) d.reach := by
      rw [fieldTrees, fieldTrees, ← span_exprTree]
      exact hname.name.pair hcolon.reach_le hvalue
    refine lays_accept (fun comma hcomma => ?_) (lays_pure fun _ => hfield)
    refine (ih.structFields typeName d.advance).bind fun more e _ hmore => lays_pure fun _ => ?_
    exact hfield.append hcomma.reach_le hmore

/-- A name with what stands behind it in brackets, or alone. -/
theorem named (ih : LaysExprs fuel) {c : Cursor} {t : Token} {rest : List Token}
    (ht : c.tokens = t :: rest) (hk : t.kind = .identifier) :
    Lays (Reader.primary (fuel + 1)) c c.reach fun e => [e.tree] := by
  rw [Reader.primary, lays_get]
  simp only [ht, hk]
  refine lays_advance ht fun htakes => ?_
  have hname := htakes.name.begin
  split
  · refine lays_onward fun hadv => (ih.arguments _).bind fun args d _ hargs => ?_
    exact lays_closed (fun _ => rfl) (hname.append hadv.onward_advance.reach hargs) htakes.start
  · split
    · refine lays_onward fun hadv => (ih.structFields _ _).bind fun members d _ hmembers => ?_
      have hparts := hname.append hadv.onward_advance.reach hmembers
      exact lays_closed (fun _ => rfl) hparts htakes.start
    · exact lays_pure fun _ => hname.lower htakes.start

theorem primary_succ (ih : LaysExprs fuel) (c : Cursor) :
    Lays (Reader.primary (fuel + 1)) c c.reach fun e => [e.tree] := by
  cases ht : c.tokens with
  | nil =>
      rw [Reader.primary, lays_get]
      simp only [ht]
      exact lays_fail
  | cons t rest =>
      by_cases hid : t.kind = .identifier
      · exact ih.named ht hid
      -- A literal is one token, and so is its place.
      have literal : ∀ e k, Expr.tree e = .node k t.span [] →
          Lays (do advance; return e) c c.reach fun e => [e.tree] := by
        intro e k he
        refine lays_advance ht fun htakes => lays_pure fun _ => ?_
        rw [he]
        exact htakes.leaf k
      rw [Reader.primary, lays_get]
      simp only [ht]
      split
      · refine lays_advance ht fun htakes => ?_
        have hint : ∀ n lexeme, Laid c.reach [(Expr.int t.span n lexeme).tree] c.advance.reach :=
          fun _ _ => htakes.leaf .intLiteral
        split
        · exact fun hadv => ⟨hadv.onward_record _ _, hint _ _⟩
        · exact lays_pure fun _ => hint _ _
      · exact literal _ _ rfl
      · exact literal _ _ rfl
      · exact literal _ _ rfl
      · exact literal _ _ rfl
      · exact literal _ _ rfl
      · refine lays_advance ht fun htakes => (ih.binary 1 _).bind fun inner d _ hinner => ?_
        refine lays_expectClose fun close hclose => lays_pure fun _ => ?_
        exact (hinner.lower htakes.reach_le).upper hclose.reach_le
      · next hk => exact absurd hk hid
      · split
        · exact lays_fail
        · exact lays_fail

end LaysExprs

theorem laysExprs (fuel : Nat) : LaysExprs fuel := by
  induction fuel with
  | zero =>
      exact
        { binary        := fun _ _ => lays_outOfFuel
          binaryRest    := fun _ _ _ _ _ => lays_outOfFuel
          unary         := fun _ => lays_outOfFuel
          fields        := fun _ _ _ _ => lays_outOfFuel
          primary       := fun _ => lays_outOfFuel
          arguments     := fun _ => lays_outOfFuel
          argumentsRest := fun _ => lays_outOfFuel
          structFields  := fun _ _ => lays_outOfFuel }
  | succ fuel ih =>
      exact
        { binary        := ih.binary_succ
          binaryRest    := ih.binaryRest_succ
          unary         := ih.unary_succ
          fields        := ih.fields_succ
          primary       := ih.primary_succ
          arguments     := ih.arguments_succ
          argumentsRest := ih.argumentsRest_succ
          structFields  := ih.structFields_succ }

theorem lays_expression (fuel : Nat) (c : Cursor) :
    Lays (expression fuel) c c.reach fun e => [e.tree] := (laysExprs fuel).binary 1 c

/-! ## Simple statements -/

namespace LetParts

/-- What a variable declaration is made of. -/
def parts (d : LetParts) : List Tree :=
  [d.name.tree] ++ d.declared.toList.map TypeRef.tree ++ [d.init.tree]

/-- A variable declaration as a tree. -/
def tree (d : LetParts) : Tree := .node .letStatement d.span d.parts

end LetParts

variable {fuel : Nat}

theorem lays_letRest {p : Position} {mutable : Bool} {name : Ident} {declared : Option TypeRef}
    (h : Laid p.offset ([name.tree] ++ declared.toList.map TypeRef.tree) c.reach)
    (hlo : lo ≤ p.offset) :
    Lays (letRest fuel p mutable name declared) c lo fun d => [d.tree] := by
  rw [letRest]
  refine lays_accept (fun assign hassign => ?_) (lays_peek.mpr lays_fail_bind)
  refine (lays_expression fuel _).bind fun init d _ hinit => ?_
  exact lays_ended (fun _ => rfl) (h.append hassign.reach_le hinit) hlo

theorem lays_letParts (fuel : Nat) (c : Cursor) :
    Lays (letParts fuel) c c.next fun d => [d.tree] := by
  have named : ∀ (mutable : Bool) (d : Cursor), c.next ≤ d.reach → Lays (do
      let name ← expectName .variableName
      if ← accept .colon then
        let type ← typeRef
        letRest fuel c.here.start mutable name (some type)
      else letRest fuel c.here.start mutable name none) d c.next fun d => [d.tree] := by
    intro mutable d hd
    refine lays_expectName fun name hname => ?_
    replace hname := hname.name.lower hd
    refine lays_accept (fun colon hcolon => ?_) (lays_letRest hname (Nat.le_refl _))
    refine lays_typeRef fun type htype => ?_
    exact lays_letRest (hname.append hcolon.reach_le htype) (Nat.le_refl _)
  rw [letParts_eq, lays_start]
  refine lays_onward fun hc => lays_acceptKeyword (fun key hkey => ?_) (named false _ hc.next_le)
  exact named true _ (Nat.le_trans hc.next_le hkey.reach_le)

theorem lays_returnStmt (fuel : Nat) (c : Cursor) :
    Lays (returnStmt fuel) c c.next fun s => [s.tree] := by
  rw [returnStmt, lays_start]
  refine lays_onward fun hc => ?_
  rw [lays_atSymbol]
  split
  · exact lays_ended (fun _ => rfl) (.nil hc.next_le) (Nat.le_refl _)
  · refine (Lays.map (U := fun v => v.toList.map Expr.tree) (lays_expression fuel _)).bind
      fun value d _ hvalue => ?_
    exact lays_ended (fun _ => rfl) (hvalue.lower hc.next_le) (Nat.le_refl _)

/-- An expression that can be assigned to is laid like its root and its path. -/
theorem laid_targetParts {e : Expr} {path path' : List Ident} {root : TargetRoot} {m n hi : Nat}
    (h : targetParts e path = some (root, path')) (he : Laid lo [e.tree] m) (hle : m ≤ n)
    (hpath : Laid n (path.map Ident.tree) hi) :
    Laid lo (root.expr.tree :: path'.map Ident.tree) hi := by
  fun_induction targetParts e path generalizing m n with
  | case1 path s object name ih =>
      rw [Expr.tree] at he
      obtain ⟨hobject, hname⟩ := he.children.uncons
      have hstop := Nat.le_trans he.place.2 hle
      exact ih h (hobject.lower he.place.1) (Nat.le_refl _) (hname.append hstop hpath)
  | case2 path id =>
      obtain ⟨rfl, rfl⟩ := Prod.mk.inj (Option.some.inj h)
      exact he.append hle hpath
  | case3 path s =>
      obtain ⟨rfl, rfl⟩ := Prod.mk.inj (Option.some.inj h)
      exact he.append hle hpath
  | case4 => exact nomatch h

theorem laid_target {e : Expr} {root : TargetRoot} {path : List Ident} {hi : Nat}
    (h : targetParts e [] = some (root, path)) (he : Laid lo [e.tree] hi) :
    Laid lo [(⟨e.span, root, path⟩ : AssignTarget).tree] hi := by
  have hparts := laid_targetParts h he.tight (Nat.le_refl _) (.nil (Nat.le_refl _))
  rw [span_exprTree] at hparts
  obtain ⟨hlo, hhi⟩ := he.place
  rw [span_exprTree] at hlo hhi
  cases root with
  | self s => exact hparts.node hlo hhi
  | name id => exact hparts.node hlo hhi

theorem lays_simpleStmt (fuel : Nat) (c : Cursor) :
    Lays (simpleStmt fuel) c c.reach fun s => [s.tree] := by
  rw [simpleStmt]
  refine (lays_expression fuel c).bind fun e d _ he => ?_
  have hlo : c.reach ≤ e.span.start.offset := by
    rw [← span_exprTree]
    exact he.place.1
  rw [lays_peek]
  cases hop : assignOp? d.tokens.head? with
  | none =>
      have hbegin := he.begin
      rw [span_exprTree] at hbegin
      exact lays_ended (fun _ => rfl) hbegin hlo
  | some op =>
      cases hparts : targetParts e [] with
      | none =>
          simp only [assignTarget, hparts]
          exact lays_failAt_bind
      | some parts =>
          simp only [assignTarget, hparts, pure_bind]
          refine lays_onward fun hd => (lays_expression fuel _).bind fun value d' _ hvalue => ?_
          have htarget := (laid_target hparts he).begin
          exact lays_ended (fun _ => rfl) (htarget.append hd.onward_advance.reach hvalue) hlo

/-! ## Statements -/

theorem span_blockTree (b : Block β) : b.tree.span = b.span := by
  cases b
  rfl

theorem span_condTree (c : Cond β) : c.tree.span = c.span := by
  cases c
  rfl

theorem stmtTrees_append (a b : List (Stmt β)) :
    stmtTrees (a ++ b) = stmtTrees a ++ stmtTrees b := by
  induction a with
  | nil => rfl
  | cons s rest ih => rw [List.cons_append, stmtTrees, stmtTrees, ih, List.cons_append]

/-- The functions that read statements lay them, at one amount of fuel. -/
structure LaysStmts (fuel : Nat) : Prop where
  block       : ∀ c, Lays (block fuel) c c.reach fun b => [b.tree]
  blockRest   : ∀ opening done c lo, lo ≤ opening.start.offset →
    Laid opening.start.offset (stmtTrees done) c.reach →
    Lays (blockRest fuel opening done) c lo fun b => [b.tree]
  statement   : ∀ c, Lays (statement fuel) c c.reach fun s => [s.tree]
  conditional : ∀ c, Lays (conditional fuel) c c.reach fun c => [c.tree]
  expectBlock : ∀ head c, Lays (expectBlock fuel head) c c.reach fun b => [b.tree]

namespace LaysStmts

theorem block_succ (ih : LaysStmts fuel) (c : Cursor) :
    Lays (Reader.block (fuel + 1)) c c.reach fun b => [b.tree] := by
  rw [Reader.block, lays_get]
  exact lays_onward fun hc => ih.blockRest _ _ _ _ hc.reach_le_next (.nil hc.next_le)

theorem blockRest_succ (ih : LaysStmts fuel) (opening : Span) (done : List (Stmt Unit))
    (c : Cursor) (lo : Nat) (hlo : lo ≤ opening.start.offset)
    (h : Laid opening.start.offset (stmtTrees done) c.reach) :
    Lays (Reader.blockRest (fuel + 1) opening done) c lo fun b => [b.tree] := by
  rw [Reader.blockRest, lays_get]
  split
  · next hclose =>
      obtain ⟨t, rest, ht, -⟩ := Cursor.atSymbol_iff.mp hclose
      exact lays_advance ht fun htakes => lays_spanned (fun _ => rfl) h hlo htakes
  · split
    · next hempty =>
        -- The end of the script is as far as reading can come.
        have hstop : c.here.stop.offset = c.reach := by
          rw [Cursor.here, Cursor.reach, List.isEmpty_iff.mp hempty]
          rfl
        refine fun hc => ⟨hc.onward_record _ _, ?_⟩
        exact (h.upper (Nat.le_of_eq hstop.symm)).node hlo (Nat.le_of_eq hstop)
    · next hempty =>
        split
        · have hlast : c.last.offset = c.reach := by
            rw [Cursor.reach]
            split
            · next hnil => exact absurd (List.isEmpty_iff.mpr hnil) hempty
            · rfl
          refine fun hc => ⟨hc.onward_record _ _, ?_⟩
          exact (h.upper (Nat.le_of_eq hlast.symm)).node hlo (Nat.le_of_eq hlast)
        · refine lays_recover (ih.statement c) (fun s d hcd hs => ?_) fun d hcd => ?_
          · refine ih.blockRest _ _ _ _ hlo ?_
            rw [stmtTrees_append]
            exact h.append (Nat.le_refl _) hs
          · exact ih.blockRest _ _ _ _ hlo (h.upper hcd.reach)

theorem expectBlock_succ (ih : LaysStmts fuel) (head : BlockHead) (c : Cursor) :
    Lays (Reader.expectBlock (fuel + 1) head) c c.reach fun b => [b.tree] := by
  rw [Reader.expectBlock, lays_atSymbol]
  split
  · exact ih.block c
  · exact lays_rejectAssign (lays_peek.mpr lays_fail)

theorem conditional_succ (ih : LaysStmts fuel) (c : Cursor) :
    Lays (Reader.conditional (fuel + 1)) c c.reach fun c => [c.tree] := by
  rw [Reader.conditional, lays_start]
  refine lays_onward fun hc => (lays_expression fuel _).bind fun test d₁ _ htest => ?_
  replace htest := htest.lower hc.next_le
  refine (ih.expectBlock _ d₁).bind fun consequent d₂ _ hcons => ?_
  refine lays_acceptKeyword (fun key hkey => ?_) (lays_pure fun _ => ?_)
  · have hboth := (htest.append (Nat.le_refl _) hcons).upper hkey.reach_le
    simp only [if_true, lays_atKeyword]
    split
    · refine (ih.conditional _).bind fun inner d₃ _ hinner => lays_pure fun _ => ?_
      rw [Cond.tree, ← span_condTree]
      exact hboth.ending (Nat.le_refl _) hinner hc.reach_le_next
    · refine (ih.expectBlock _ _).bind fun b d₃ _ hb => lays_pure fun _ => ?_
      rw [Cond.tree, ← span_blockTree]
      exact hboth.ending (Nat.le_refl _) hb hc.reach_le_next
  · rw [Cond.tree, ← span_blockTree]
    exact htest.ending (Nat.le_refl _) hcons hc.reach_le_next

theorem statement_succ (ih : LaysStmts fuel) (c : Cursor) :
    Lays (Reader.statement (fuel + 1)) c c.reach fun s => [s.tree] := by
  rw [Reader.statement, lays_get]
  split
  · refine Lays.lower ?_ fun hc => hc.reach_le_next
    refine (lays_letParts fuel c).bind fun parts d _ hparts => lays_pure fun _ => ?_
    exact hparts.children.node hparts.place.1 hparts.place.2
  · exact (ih.conditional c).map
  · rw [lays_start]
    refine lays_onward fun hc => (lays_expression fuel _).bind fun test d₁ _ htest => ?_
    refine (ih.expectBlock _ d₁).bind fun body d₂ _ hbody => lays_pure fun _ => ?_
    rw [Stmt.tree, ← span_blockTree]
    exact (htest.lower hc.next_le).ending (Nat.le_refl _) hbody hc.reach_le_next
  · exact (lays_returnStmt fuel c).lower fun hc => hc.reach_le_next
  · exact (ih.block c).map
  · exact lays_fail
  · exact lays_simpleStmt fuel c

end LaysStmts

theorem laysStmts (fuel : Nat) : LaysStmts fuel := by
  induction fuel with
  | zero =>
      exact
        { block       := fun _ => lays_outOfFuel
          blockRest   := fun _ _ _ _ _ _ => lays_outOfFuel
          statement   := fun _ => lays_outOfFuel
          conditional := fun _ => lays_outOfFuel
          expectBlock := fun _ _ => lays_outOfFuel }
  | succ fuel ih =>
      exact
        { block       := ih.block_succ
          blockRest   := ih.blockRest_succ
          statement   := ih.statement_succ
          conditional := ih.conditional_succ
          expectBlock := ih.expectBlock_succ }

/-! ## Declarations -/

theorem lays_parametersRest (fuel : Nat) :
    ∀ c, Lays (parametersRest fuel) c c.reach fun ps => ps.map Param.tree := by
  induction fuel with
  | zero => exact fun _ => lays_outOfFuel
  | succ fuel ih =>
      intro c
      rw [parametersRest, lays_peek]
      cases ht : c.tokens with
      | nil => exact lays_fail
      | cons t rest =>
          by_cases hk : t.kind = .identifier
          · simp only [List.head?_cons, hk, if_true]
            refine lays_advance ht fun htakes => ?_
            refine lays_accept (fun colon hcolon => ?_) lays_failAt_bind
            refine lays_typeRef fun type htype => ?_
            have hparam := htakes.name.pair (k := .parameter) hcolon.reach_le htype
            refine lays_accept (fun comma hcomma => ?_) ?_
            · refine (ih _).bind fun more d _ hmore => lays_pure fun _ => ?_
              exact hparam.append hcomma.reach_le hmore
            · exact lays_expectClose fun close hclose =>
                lays_pure fun _ => hparam.upper hclose.reach_le
          · simp only [List.head?_cons, hk, if_false]
            exact lays_fail

theorem lays_parameters (fuel : Nat) (c : Cursor) :
    Lays (parameters fuel) c c.reach fun ps => ps.map Param.tree := by
  rw [parameters]
  refine lays_accept (fun close hclose => lays_pure fun _ => .nil hclose.reach_le) ?_
  exact lays_parametersRest fuel c

theorem lays_exportMark (fuel : Nat) (c : Cursor) :
    Lays (exportMark fuel) c c.next fun mark => [mark.tree] := by
  rw [exportMark, lays_start]
  refine lays_onward fun hc => lays_expectName fun name hname => ?_
  have hlo := Nat.le_trans hc.next_le hname.reach_le_last
  by_cases hexport : name.lexeme = "export"
  · simp only [hexport, ne_eq, not_true_eq_false, if_false]
    refine lays_accept (fun paren hopen => ?_) ?_
    · refine lays_expectName fun hint hhint => lays_expectMark fun mark hparen => ?_
      refine ((laysExprs fuel).arguments _).bind fun args d _ hargs => ?_
      refine lays_expectClose fun close hclose => ?_
      rw [lays_spanFrom]
      intro hd
      have hcall : Laid c.next [HintCall.tree
          ⟨⟨hint.span.start, d.advance.last⟩, ⟨hint.lexeme, hint.span⟩, args⟩] d.advance.reach := by
        refine laid_closed (hhint.name.begin.append hparen.reach_le hargs) ?_ hclose hd
        have hbefore := Nat.le_trans hname.reach_le hopen.reach_le
        exact Nat.le_trans hc.next_le (Nat.le_trans hbefore hhint.start)
      exact lays_closed (fun _ => rfl) hcall (Nat.le_refl _) hd
    · simp only [Bool.false_eq_true, if_false, lays_spanFrom]
      refine lays_pure fun hadv => ?_
      exact (Laid.nil hlo).node (Nat.le_refl _) hadv.last_le_reach
  · simp only [hexport, ne_eq, not_false_eq_true, if_true]
    exact lays_failAt_bind

/-- A global without an annotation takes the place of its declaration. -/
theorem lays_globalDecl (fuel : Nat) (c : Cursor) : Lays (globalDecl fuel none) c c.next
    fun g => [(Declaration.global g : Declaration Unit).tree] := by
  rw [globalDecl]
  refine (lays_letParts fuel c).bind fun parts d _ hparts => lays_pure fun _ => ?_
  exact hparts.children.node hparts.place.1 hparts.place.2

/-- A global with an annotation begins where the annotation does. -/
theorem lays_globalDecl_exported {mark : ExportMark} (h : Laid lo [mark.tree] c.reach) :
    Lays (globalDecl fuel (some mark)) c lo
      fun g => [(Declaration.global g : Declaration Unit).tree] := by
  rw [globalDecl]
  intro hc
  refine (lays_letParts fuel c).bind (fun parts d _ hparts => lays_pure fun _ => ?_) hc
  have hgap := Nat.le_trans (Nat.le_trans h.place.2 hc.reach_le_next) hparts.place.1
  exact (h.tight.append hgap hparts.children).node h.place.1 hparts.place.2

theorem lays_returnType (c : Cursor) :
    Lays returnType c c.reach fun type => type.toList.map TypeRef.tree := by
  rw [returnType]
  refine lays_accept (fun arrow harrow => ?_) (lays_pure fun _ => .nil (Nat.le_refl _))
  simp only [if_true, lays_peek]
  cases ht : c.advance.tokens with
  | nil => exact lays_fail
  | cons t rest =>
      by_cases hk : t.kind = .identifier
      · simp only [List.head?_cons, hk, if_true]
        refine lays_advance ht fun htakes => lays_pure fun _ => ?_
        exact (htakes.leaf .typeRef).lower harrow.reach_le
      · simp only [List.head?_cons, hk, if_false]
        exact lays_fail

theorem lays_functionDecl (fuel : Nat) (c : Cursor) : Lays (functionDecl fuel) c c.next
    fun f => [(Declaration.function f).tree] := by
  rw [functionDecl, lays_start]
  refine lays_onward fun hc => lays_expectName fun name hname => ?_
  refine lays_accept (fun paren hparen => ?_) (lays_peek.mpr lays_fail_bind)
  refine (lays_parameters fuel _).bind fun params d₁ _ hparams => ?_
  refine (lays_returnType d₁).bind fun result d₂ _ hresult => ?_
  rw [lays_atSymbol]
  split
  · exact lays_peek.mpr lays_fail_bind
  · refine ((laysStmts fuel).block d₂).bind fun body d₃ _ hbody => lays_pure fun _ => ?_
    have hhead := ((hname.name.lower hc.next_le).append hparen.reach_le hparams).append
      (Nat.le_refl _) hresult
    rw [Declaration.tree, ← span_blockTree]
    exact hhead.ending (Nat.le_refl _) hbody (Nat.le_refl _)

theorem lays_signalDecl (fuel : Nat) (c : Cursor) : Lays (signalDecl fuel) c c.next
    fun s => [(Declaration.signal s : Declaration Unit).tree] := by
  rw [signalDecl, lays_start]
  refine lays_onward fun hc => lays_expectName fun name hname => ?_
  refine lays_expectMark fun paren hparen => ?_
  refine (lays_parameters fuel _).bind fun params d _ hparams => ?_
  have hparts := (hname.name.lower hc.next_le).append hparen.reach_le hparams
  exact lays_ended (fun _ => rfl) hparts (Nat.le_refl _)

theorem lays_declaration (fuel : Nat) (c : Cursor) : Lays (declaration fuel) c c.next
    fun found => found.toList.map Declaration.tree := by
  rw [declaration, lays_peek]
  split
  · refine (lays_exportMark fuel c).bind fun mark d _ hmark => ?_
    rw [lays_atKeyword]
    split
    · exact (lays_globalDecl_exported hmark).map.map
    · exact lays_peek.mpr lays_fail
  · exact (lays_globalDecl fuel c).map.map
  · exact (lays_functionDecl fuel c).map.map
  · exact (lays_signalDecl fuel c).map.map
  · exact lays_onward fun hc => lays_pure fun _ => .nil hc.next_le
  · exact lays_fail

/-- The declarations of a script are laid from its first token on. -/
theorem lays_declarations (fuel : Nat) :
    ∀ c, Lays (declarations fuel) c c.next fun body => body.map Declaration.tree := by
  induction fuel with
  | zero => exact fun _ => lays_outOfFuel
  | succ fuel ih =>
      intro c
      rw [declarations, lays_get]
      split
      · next hempty =>
          have hend : c.next = c.reach := by
            rw [Cursor.next, Cursor.here, Cursor.reach, List.isEmpty_iff.mp hempty]
            rfl
          exact lays_pure fun _ => .nil (Nat.le_of_eq hend)
      · refine lays_recover (lays_declaration fuel c) (fun found d hcd hfound => ?_) fun d hcd => ?_
        · refine (ih d).bind fun more e _ hmore => lays_pure fun _ => ?_
          have hgap := hcd.ordered.reach_le_next
          rw [List.map_append]
          exact hfound.append hgap hmore
        · exact (ih d).bind fun more e _ hmore => lays_pure fun _ => hmore.lower hcd.next

end Reader

end SceneScript
