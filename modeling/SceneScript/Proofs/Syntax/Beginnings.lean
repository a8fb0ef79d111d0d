import SceneScript.Ast.Walk
import SceneScript.Proofs.Syntax.Reading

/-!
# Where things begin

The parser makes up no position at which something begins. Every node of a program, and everything
that is reported about its shape, begins where a token begins or ends, or at one of the two ends of
the script. So what holds of all these positions holds wherever something begins. The end of a node
is left aside: that of a missing semicolon is made up.

* **`Tree.Begins`** — every node of a tree begins at a position with a property.
* **`Cursor.Placed`** — so do all tokens ahead and all that was reported so far.
* **`Keeps`** — a step that keeps this, with what it says about its result; `Keeps.bind`.
* **`Reader.KeepsExprs`**, **`Reader.KeepsStmts`** — the functions of the parser at one amount of
  fuel.
* **`parseTokens_begins`** — whole scripts.
-/

namespace SceneScript

variable {α β : Type} {P : Position → Prop}

/-! ## Trees -/

/-- Every node of the tree begins at a position with the property. -/
inductive Tree.Begins (P : Position → Prop) : Tree → Prop where
  | node {k : NodeKind} {s : Span} {children : List Tree} :
      P s.start → (∀ t ∈ children, t.Begins P) → Begins P (.node k s children)

/-- Every node of the trees begins at a position with the property. -/
def TreesBegin (P : Position → Prop) (ts : List Tree) : Prop := ∀ t ∈ ts, t.Begins P

@[simp] theorem Tree.begins_node {k : NodeKind} {s : Span} {ts : List Tree} :
    (Tree.node k s ts).Begins P ↔ P s.start ∧ TreesBegin P ts :=
  ⟨fun | .node hs hts => ⟨hs, hts⟩, fun h => .node h.1 h.2⟩

@[simp] theorem treesBegin_nil : TreesBegin P [] := fun _ ht => absurd ht List.not_mem_nil

@[simp] theorem treesBegin_cons {t : Tree} {ts : List Tree} :
    TreesBegin P (t :: ts) ↔ t.Begins P ∧ TreesBegin P ts := List.forall_mem_cons

@[simp] theorem treesBegin_append {ts us : List Tree} :
    TreesBegin P (ts ++ us) ↔ TreesBegin P ts ∧ TreesBegin P us := List.forall_mem_append

theorem Tree.Begins.start {t : Tree} (h : t.Begins P) : P t.span.start := by
  cases h with
  | node hs _ => exact hs

theorem Tree.begins_anywhere (t : Tree) : t.Begins fun _ => True := by
  cases t with
  | node kind span children => exact .node trivial fun child _ => child.begins_anywhere

@[simp] theorem Ident.begins_tree {id : Ident} : id.tree.Begins P ↔ P id.span.start := by
  simp [Ident.tree]

@[simp] theorem TypeRef.begins_tree {t : TypeRef} : t.tree.Begins P ↔ P t.span.start := by
  simp [TypeRef.tree]

theorem Expr.begins_span {e : Expr} (h : e.tree.Begins P) : P e.span.start := by
  cases e <;> exact h.start

theorem Block.begins_span {b : Block β} (h : b.tree.Begins P) : P b.span.start := by
  cases b
  exact h.start

@[simp] theorem treesBegin_stmtTrees_append {a b : List (Stmt β)} :
    TreesBegin P (stmtTrees (a ++ b)) ↔
      TreesBegin P (stmtTrees a) ∧ TreesBegin P (stmtTrees b) := by
  induction a with
  | nil => simp [stmtTrees]
  | cons s rest ih => simp [stmtTrees, ih, and_assoc]

/-! ## Where reading stands -/

/-- The tokens ahead begin and end at positions with the property, the last one ended at one, the
    script ends at one, and all that was reported begins at one. -/
structure Cursor.Placed (P : Position → Prop) (c : Cursor) : Prop where
  tokens : ∀ t ∈ c.tokens, P t.span.start ∧ P t.span.stop
  last   : P c.last
  finish : P c.finish
  errors : ∀ d ∈ c.errors, P d.span.start

namespace Cursor.Placed

variable {c : Cursor}

theorem here (h : c.Placed P) : P c.here.start := by
  rw [Cursor.here]
  split
  · next t rest ht => exact (h.tokens t (ht ▸ List.mem_cons_self)).1
  · exact h.finish

theorem advance (h : c.Placed P) : c.advance.Placed P := by
  rw [Cursor.advance]
  split
  · next t rest ht =>
      have htokens := h.tokens
      rw [ht] at htokens
      obtain ⟨hself, hrest⟩ := List.forall_mem_cons.mp htokens
      exact ⟨hrest, hself.2, h.finish, h.errors⟩
  · exact h

theorem record (h : c.Placed P) {span : Span} (hspan : P span.start) (e : SyntaxError) :
    (c.record e span).Placed P := by
  refine ⟨h.tokens, h.last, h.finish, List.forall_mem_append.mpr ⟨h.errors, fun d hd => ?_⟩⟩
  rw [List.mem_singleton.mp hd]
  exact hspan

theorem skip (h : c.Placed P) (n : Nat) : (c.skip n).Placed P := by
  induction n generalizing c with
  | zero => exact h
  | succ n ih => exact ih h.advance

end Cursor.Placed

/-! ## Steps -/

/-- From a cursor that is placed the step comes to such a cursor, and what it reads is as `Q`
    says. -/
def Keeps (P : Position → Prop) (x : Reader α) (Q : α → Prop) : Prop :=
  ∀ c : Cursor, c.Placed P → Ends x c (fun a d => d.Placed P ∧ Q a) fun _ d => d.Placed P

namespace Keeps

variable {x : Reader α} {f : α → Reader β} {Q : α → Prop} {R : β → Prop}

theorem bind (hx : Keeps P x Q) (hf : ∀ a, Q a → Keeps P (f a) R) : Keeps P (x >>= f) R :=
  fun c hc => ends_bind.mpr
    (Ends.mono (hx c hc) (fun a d ha => hf a ha.2 d ha.1) fun _ _ he => he)

theorem map {g : α → β} (hx : Keeps P x Q) (hg : ∀ a, Q a → R (g a)) : Keeps P (g <$> x) R :=
  fun c hc => ends_map.mpr
    (Ends.mono (hx c hc) (fun a _ ha => ⟨ha.1, hg a ha.2⟩) fun _ _ he => he)

theorem pure {a : α} (h : Q a) : Keeps P (Pure.pure a) Q := fun _ hc => ⟨hc, h⟩

end Keeps

namespace Reader

variable {Q : α → Prop} {f : β → Reader α}

theorem keeps_outOfFuel : Keeps P (throw .outOfFuel) Q := fun _ hc => hc

theorem keeps_get : Keeps P get fun c => c.Placed P := fun _ hc => ⟨hc, hc⟩

theorem keeps_set {c : Cursor} (h : c.Placed P) : Keeps P (set c) fun _ => True :=
  fun _ _ => ⟨h, trivial⟩

theorem keeps_peek : Keeps P peek fun next => ∀ t, next = some t → P t.span.start :=
  fun _ hc => ⟨hc, fun t ht => (hc.tokens t (List.mem_of_mem_head? ht)).1⟩

theorem keeps_advance : Keeps P advance fun _ => True := fun _ hc => ⟨hc.advance, trivial⟩

theorem keeps_record {span : Span} (h : P span.start) (e : SyntaxError) :
    Keeps P (modify fun c => c.record e span) fun _ => True :=
  fun _ hc => ⟨hc.record h e, trivial⟩

theorem keeps_failAt {span : Span} (h : P span.start) (e : SyntaxError) :
    Keeps P (failAt span e) Q := fun _ hc => hc.record h e

theorem keeps_fail {e : SyntaxError} : Keeps P (fail e) Q := fun _ hc => hc.record hc.here e

/-- What stands behind a step that gives up is not reached. -/
theorem keeps_fail_bind {e : SyntaxError} : Keeps P (fail e >>= f) Q :=
  (keeps_fail (Q := fun _ => False)).bind fun _ h => h.elim

theorem keeps_atSymbol {s : Symbol} : Keeps P (atSymbol s) fun _ => True :=
  fun _ hc => ⟨hc, trivial⟩

theorem keeps_atKeyword {k : Keyword} : Keeps P (atKeyword k) fun _ => True :=
  fun _ hc => ⟨hc, trivial⟩

theorem keeps_accept {s : Symbol} : Keeps P (accept s) fun _ => True :=
  fun _ hc => ends_accept.mpr ⟨fun _ => ⟨hc.advance, trivial⟩, fun _ => ⟨hc, trivial⟩⟩

theorem keeps_acceptKeyword {k : Keyword} : Keeps P (acceptKeyword k) fun _ => True :=
  fun _ hc => ends_acceptKeyword.mpr ⟨fun _ => ⟨hc.advance, trivial⟩, fun _ => ⟨hc, trivial⟩⟩

theorem keeps_spanFrom {p : Position} (h : P p) : Keeps P (spanFrom p) fun s => P s.start :=
  fun _ hc => ⟨hc, h⟩

theorem keeps_start : Keeps P start P := fun _ hc => ⟨hc, hc.here⟩

theorem keeps_expectName {expected : Expected} :
    Keeps P (expectName expected) fun id => P id.span.start :=
  fun _ hc => ends_expectName
    (fun t _ ht _ => ⟨hc.advance, (hc.tokens t (ht ▸ List.mem_cons_self)).1⟩)
    fun e => hc.record hc.here e

theorem keeps_typeRef : Keeps P typeRef fun type => P type.span.start :=
  fun _ hc => ends_typeRef
    (fun t _ ht _ => ⟨hc.advance, (hc.tokens t (ht ▸ List.mem_cons_self)).1⟩)
    fun e => hc.record hc.here e

theorem keeps_expectMark {s : Symbol} {mark : Mark} : Keeps P (expectMark s mark) fun _ => True :=
  fun _ hc => ends_expectMark (fun _ => ⟨hc.advance, trivial⟩) fun e => hc.record hc.here e

theorem keeps_expectClose {s : Symbol} {enclosed : Enclosed} :
    Keeps P (expectClose s enclosed) fun _ => True :=
  fun _ hc => ends_expectClose (fun _ => ⟨hc.advance, trivial⟩) fun e => hc.record hc.here e

theorem keeps_rejectAssign : Keeps P rejectAssign fun _ => True := by
  rw [rejectAssign]
  refine keeps_peek.bind fun next _ => ?_
  split
  · exact keeps_fail
  · exact .pure trivial

/-- A missing semicolon is reported at the end of the last token. -/
theorem keeps_expectSemicolon {ended : Ended} :
    Keeps P (expectSemicolon ended) fun _ => True := by
  rw [expectSemicolon]
  refine keeps_accept.bind fun found _ => ?_
  split
  · exact .pure trivial
  · refine keeps_rejectAssign.bind fun _ _ => keeps_get.bind fun c hc => ?_
    exact keeps_peek.bind fun next _ => keeps_failAt hc.last _

theorem keeps_recover {level : Cursor.Level} {step : Reader α} (h : Keeps P step Q) :
    Keeps P (recover level step) fun found => ∀ a, found = some a → Q a := by
  refine fun c hc => ends_recover.mpr
    (Ends.mono (h c hc) (fun a d ha => ⟨ha.1, ?_⟩) fun _ d hd => ?_)
  · rintro _ ⟨⟩
    exact ha.2
  · exact ⟨fun _ => ⟨hd.skip _, fun _ hnone => nomatch hnone⟩, fun _ => hd⟩

/-- What ends with a mark and takes its place up to there. -/
theorem keeps_spanned {p : Position} (hp : P p) {mk : Span → α}
    (hmk : ∀ span : Span, P span.start → Q (mk span)) :
    Keeps P (do return mk (← spanFrom p)) Q :=
  (keeps_spanFrom hp).bind fun span hspan => .pure (hmk span hspan)

/-! ## Expressions -/

/-- The functions that read expressions keep the beginnings, at one amount of fuel. -/
structure KeepsExprs (P : Position → Prop) (fuel : Nat) : Prop where
  binary        : ∀ level, Keeps P (binary fuel level) fun e => e.tree.Begins P
  binaryRest    : ∀ level left, left.tree.Begins P →
    Keeps P (binaryRest fuel level left) fun e => e.tree.Begins P
  unary         : Keeps P (unary fuel) fun e => e.tree.Begins P
  fields        : ∀ object, object.tree.Begins P →
    Keeps P (fields fuel object) fun e => e.tree.Begins P
  primary       : Keeps P (primary fuel) fun e => e.tree.Begins P
  arguments     : Keeps P (arguments fuel) fun es => TreesBegin P (exprTrees es)
  argumentsRest : Keeps P (argumentsRest fuel) fun es => TreesBegin P (exprTrees es)
  structFields  : ∀ typeName, Keeps P (structFields fuel typeName) fun fs =>
    TreesBegin P (fieldTrees fs)

namespace KeepsExprs

variable {fuel : Nat}

theorem binary_succ (ih : KeepsExprs P fuel) (level : Nat) :
    Keeps P (Reader.binary (fuel + 1) level) fun e => e.tree.Begins P := by
  rw [Reader.binary]
  exact ih.unary.bind fun left hl => ih.binaryRest level left hl

theorem binaryRest_succ (ih : KeepsExprs P fuel) (level : Nat) (left : Expr)
    (hl : left.tree.Begins P) :
    Keeps P (Reader.binaryRest (fuel + 1) level left) fun e => e.tree.Begins P := by
  rw [Reader.binaryRest]
  refine keeps_peek.bind fun next _ => ?_
  split
  · split
    · exact .pure hl
    · refine keeps_advance.bind fun _ _ => (ih.binary _).bind fun right hr => ?_
      refine ih.binaryRest level _ ?_
      simp only [Expr.tree, Tree.begins_node, treesBegin_cons, treesBegin_nil, and_true]
      exact ⟨Expr.begins_span hl, hl, hr⟩
  · exact .pure hl

theorem unaryPlain (ih : KeepsExprs P fuel) {c : Cursor} (hc : c.Placed P) :
    Keeps P (Reader.unaryPlain fuel c) fun e => e.tree.Begins P := by
  rw [Reader.unaryPlain]
  split
  · refine keeps_advance.bind fun _ _ => ih.unary.bind fun arg ha => .pure ?_
    simp only [Expr.tree, Tree.begins_node, treesBegin_cons, treesBegin_nil, and_true]
    exact ⟨hc.here, ha⟩
  · exact ih.primary.bind fun object ho => ih.fields object ho

theorem unary_succ (ih : KeepsExprs P fuel) :
    Keeps P (Reader.unary (fuel + 1)) fun e => e.tree.Begins P := by
  intro c hc
  by_cases hleast : AtLeast c
  · obtain ⟨minus, number, rest, ht, hm, hn⟩ := hleast
    refine (ends_of_ok (unary_least ht hm hn)).mpr ⟨hc.advance.advance, ?_⟩
    simp only [Expr.tree, Tree.begins_node, treesBegin_nil, and_true]
    exact (hc.tokens minus (ht ▸ List.mem_cons_self)).1
  · exact (ends_congr (unary_plain hleast)).mpr (ih.unaryPlain hc c hc)

theorem fields_succ (ih : KeepsExprs P fuel) (object : Expr) (ho : object.tree.Begins P) :
    Keeps P (Reader.fields (fuel + 1) object) fun e => e.tree.Begins P := by
  rw [Reader.fields]
  refine keeps_accept.bind fun dot _ => ?_
  split
  · exact .pure ho
  · refine keeps_expectName.bind fun name hname => keeps_atSymbol.bind fun paren _ => ?_
    split
    · exact keeps_fail_bind
    · refine ih.fields _ ?_
      simp only [Expr.tree, Tree.begins_node, treesBegin_cons, treesBegin_nil, and_true,
        Ident.begins_tree]
      exact ⟨Expr.begins_span ho, ho, hname⟩

theorem arguments_succ (ih : KeepsExprs P fuel) :
    Keeps P (Reader.arguments (fuel + 1)) fun es => TreesBegin P (exprTrees es) := by
  rw [Reader.arguments]
  refine keeps_atSymbol.bind fun close _ => ?_
  split
  · exact .pure treesBegin_nil
  · refine (ih.binary 1).bind fun first hf => ih.argumentsRest.bind fun more hm => .pure ?_
    exact treesBegin_cons.mpr ⟨hf, hm⟩

theorem argumentsRest_succ (ih : KeepsExprs P fuel) :
    Keeps P (Reader.argumentsRest (fuel + 1)) fun es => TreesBegin P (exprTrees es) := by
  rw [Reader.argumentsRest]
  refine keeps_accept.bind fun comma _ => ?_
  split
  · exact .pure treesBegin_nil
  · refine (ih.binary 1).bind fun next hn => ih.argumentsRest.bind fun more hm => .pure ?_
    exact treesBegin_cons.mpr ⟨hn, hm⟩

theorem structFields_succ (ih : KeepsExprs P fuel) (typeName : Ident) :
    Keeps P (Reader.structFields (fuel + 1) typeName) fun fs => TreesBegin P (fieldTrees fs) := by
  rw [Reader.structFields]
  refine keeps_atSymbol.bind fun close _ => ?_
  split
  · exact .pure treesBegin_nil
  · refine keeps_expectName.bind fun name hname => keeps_expectMark.bind fun _ _ => ?_
    refine (ih.binary 1).bind fun value hvalue => keeps_accept.bind fun comma _ => ?_
    have hfield : ∀ more, TreesBegin P (fieldTrees more) →
        TreesBegin P (fieldTrees ((name, value) :: more)) := by
      intro more hmore
      simp only [fieldTrees, treesBegin_cons, Tree.begins_node, treesBegin_nil, and_true,
        Ident.begins_tree]
      exact ⟨⟨hname, hname, hvalue⟩, hmore⟩
    split
    · exact (ih.structFields typeName).bind fun more hmore => .pure (hfield more hmore)
    · exact .pure (hfield [] treesBegin_nil)

/-- A name with what stands behind it in brackets, or alone. -/
theorem named (ih : KeepsExprs P fuel) {t : Token} (ht : P t.span.start) {call struct : Bool} :
    Keeps P (do
      advance
      if call then
        advance
        let args ← Reader.arguments fuel
        expectClose .rparen (.callOf t.lexeme)
        return .call (← spanFrom t.span.start) ⟨t.lexeme, t.span⟩ args
      else if struct then
        advance
        let members ← Reader.structFields fuel ⟨t.lexeme, t.span⟩
        expectClose .rbrace (.structLiteral t.lexeme)
        return .struct (← spanFrom t.span.start) ⟨t.lexeme, t.span⟩ members
      else return .ident ⟨t.lexeme, t.span⟩ : Reader Expr) fun e => e.tree.Begins P := by
  refine keeps_advance.bind fun _ _ => ?_
  split
  · refine keeps_advance.bind fun _ _ => ih.arguments.bind fun args hargs => ?_
    refine keeps_expectClose.bind fun _ _ => keeps_spanned ht fun span hspan => ?_
    simp only [Expr.tree, Tree.begins_node, treesBegin_cons, Ident.begins_tree]
    exact ⟨hspan, ht, hargs⟩
  · split
    · refine keeps_advance.bind fun _ _ => (ih.structFields _).bind fun members hmembers => ?_
      refine keeps_expectClose.bind fun _ _ => keeps_spanned ht fun span hspan => ?_
      simp only [Expr.tree, Tree.begins_node, treesBegin_cons, Ident.begins_tree]
      exact ⟨hspan, ht, hmembers⟩
    · exact .pure (Ident.begins_tree.mpr ht)

theorem primary_succ (ih : KeepsExprs P fuel) :
    Keeps P (Reader.primary (fuel + 1)) fun e => e.tree.Begins P := by
  rw [Reader.primary]
  refine keeps_get.bind fun c hc => ?_
  split
  · exact keeps_fail
  · next t rest htokens =>
      have ht : P t.span.start := (hc.tokens t (htokens ▸ List.mem_cons_self)).1
      -- A literal is one token, and so is its place.
      have literal : ∀ e k, Expr.tree e = .node k t.span [] →
          Keeps P (do advance; return e) fun e => e.tree.Begins P := by
        intro e k he
        refine keeps_advance.bind fun _ _ => .pure ?_
        rw [he, Tree.begins_node]
        exact ⟨ht, treesBegin_nil⟩
      split
      · refine keeps_advance.bind fun _ _ => ?_
        have hint : ∀ n lexeme, (Expr.int t.span n lexeme).tree.Begins P := fun _ _ =>
          Tree.begins_node.mpr ⟨ht, treesBegin_nil⟩
        split
        · exact (keeps_record ht _).bind fun _ _ => .pure (hint _ _)
        · exact .pure (hint _ _)
      · exact literal _ _ rfl
      · exact literal _ _ rfl
      · exact literal _ _ rfl
      · exact literal _ _ rfl
      · exact literal _ _ rfl
      · refine keeps_advance.bind fun _ _ => (ih.binary 1).bind fun inner hinner => ?_
        exact keeps_expectClose.bind fun _ _ => .pure hinner
      · exact ih.named ht
      · split
        · exact keeps_fail
        · exact keeps_fail

end KeepsExprs

theorem keepsExprs (fuel : Nat) : KeepsExprs P fuel := by
  induction fuel with
  | zero =>
      exact
        { binary        := fun _ => keeps_outOfFuel
          binaryRest    := fun _ _ _ => keeps_outOfFuel
          unary         := keeps_outOfFuel
          fields        := fun _ _ => keeps_outOfFuel
          primary       := keeps_outOfFuel
          arguments     := keeps_outOfFuel
          argumentsRest := keeps_outOfFuel
          structFields  := fun _ => keeps_outOfFuel }
  | succ fuel ih =>
      exact
        { binary        := ih.binary_succ
          binaryRest    := ih.binaryRest_succ
          unary         := ih.unary_succ
          fields        := ih.fields_succ
          primary       := ih.primary_succ
          arguments     := ih.arguments_succ
          argumentsRest := ih.argumentsRest_succ
          structFields  := ih.structFields_succ }

theorem keeps_expression (fuel : Nat) : Keeps P (expression fuel) fun e => e.tree.Begins P :=
  (keepsExprs fuel).binary 1

/-! ## Simple statements -/

variable {fuel : Nat}

/-- The nodes of a variable declaration. -/
structure LetParts.Begins (P : Position → Prop) (d : LetParts) : Prop where
  span     : P d.span.start
  name     : P d.name.span.start
  declared : TreesBegin P (d.declared.toList.map TypeRef.tree)
  init     : d.init.tree.Begins P

theorem keeps_letRest {p : Position} (hp : P p) {mutable : Bool} {name : Ident}
    (hname : P name.span.start) {declared : Option TypeRef}
    (hdeclared : TreesBegin P (declared.toList.map TypeRef.tree)) :
    Keeps P (letRest fuel p mutable name declared) (LetParts.Begins P) := by
  rw [letRest]
  refine keeps_accept.bind fun assign _ => ?_
  split
  · exact keeps_peek.bind fun _ _ => keeps_fail_bind
  · refine (keeps_expression fuel).bind fun init hinit => keeps_expectSemicolon.bind fun _ _ => ?_
    exact keeps_spanned hp fun span hspan => ⟨hspan, hname, hdeclared, hinit⟩

theorem keeps_letParts (fuel : Nat) : Keeps P (letParts fuel) (LetParts.Begins P) := by
  rw [letParts_eq]
  refine keeps_start.bind fun p hp => keeps_advance.bind fun _ _ => ?_
  refine keeps_acceptKeyword.bind fun mutable _ => keeps_expectName.bind fun name hname => ?_
  refine keeps_accept.bind fun colon _ => ?_
  split
  · refine keeps_typeRef.bind fun type htype => keeps_letRest hp hname ?_
    exact treesBegin_cons.mpr ⟨TypeRef.begins_tree.mpr htype, treesBegin_nil⟩
  · exact keeps_letRest hp hname treesBegin_nil

theorem keeps_returnStmt (fuel : Nat) :
    Keeps P (returnStmt fuel) fun s => s.tree.Begins P := by
  rw [returnStmt]
  refine keeps_start.bind fun p hp => keeps_advance.bind fun _ _ => ?_
  refine keeps_atSymbol.bind fun semicolon _ => ?_
  have ended : ∀ value : Option Expr, TreesBegin P (value.toList.map Expr.tree) →
      Keeps P (do expectSemicolon .returnStatement; return .ret (← spanFrom p) value)
        fun s => (s : Stmt Unit).tree.Begins P := fun value hvalue =>
    keeps_expectSemicolon.bind fun _ _ => keeps_spanned hp fun span hspan =>
      Tree.begins_node.mpr ⟨hspan, hvalue⟩
  split
  · exact ended none treesBegin_nil
  · refine ((keeps_expression fuel).map fun e he => ?_).bind ended
    exact treesBegin_cons.mpr ⟨he, treesBegin_nil⟩

/-- An expression that can be assigned to begins like its root and its path. -/
theorem begins_targetParts {path' : List Ident} {root : TargetRoot} : ∀ (e : Expr)
    (path : List Ident), targetParts e path = some (root, path') → e.tree.Begins P →
    TreesBegin P (path.map Ident.tree) →
      root.expr.tree.Begins P ∧ TreesBegin P (path'.map Ident.tree)
  | .field _ object name, path, h, he, hpath => by
      simp only [Expr.tree, Tree.begins_node, treesBegin_cons] at he
      exact begins_targetParts object (name :: path) h he.2.1
        (treesBegin_cons.mpr ⟨he.2.2.1, hpath⟩)
  | .ident id, path, h, he, hpath => by
      obtain ⟨rfl, rfl⟩ := Prod.mk.inj (Option.some.inj h)
      exact ⟨he, hpath⟩
  | .self span, path, h, he, hpath => by
      obtain ⟨rfl, rfl⟩ := Prod.mk.inj (Option.some.inj h)
      exact ⟨he, hpath⟩
  | .int .., _, h, _, _ | .float .., _, h, _, _ | .bool .., _, h, _, _ | .string .., _, h, _, _
  | .call .., _, h, _, _ | .unary .., _, h, _, _ | .binary .., _, h, _, _
  | .struct .., _, h, _, _ => nomatch h

theorem keeps_assignTarget {e : Expr} (he : e.tree.Begins P) :
    Keeps P (assignTarget e) fun target => target.tree.Begins P := by
  rw [assignTarget]
  split
  · next root path hparts =>
      obtain ⟨hroot, hpath⟩ := begins_targetParts e [] hparts he treesBegin_nil
      refine .pure (Tree.begins_node.mpr ⟨Expr.begins_span he, treesBegin_cons.mpr ⟨?_, hpath⟩⟩)
      cases root <;> exact hroot
  · exact keeps_failAt (Expr.begins_span he) _

theorem keeps_simpleStmt (fuel : Nat) :
    Keeps P (simpleStmt fuel) fun s => s.tree.Begins P := by
  rw [simpleStmt]
  refine (keeps_expression fuel).bind fun e he => keeps_peek.bind fun next _ => ?_
  split
  · refine (keeps_assignTarget he).bind fun target htarget => keeps_advance.bind fun _ _ => ?_
    refine (keeps_expression fuel).bind fun value hvalue => ?_
    refine keeps_expectSemicolon.bind fun _ _ => keeps_spanned htarget.start fun span hspan => ?_
    simp only [Stmt.tree, Tree.begins_node, treesBegin_cons, treesBegin_nil, and_true]
    exact ⟨hspan, htarget, hvalue⟩
  · refine keeps_expectSemicolon.bind fun _ _ =>
      keeps_spanned (Expr.begins_span he) fun span hspan => ?_
    simp only [Stmt.tree, Tree.begins_node, treesBegin_cons, treesBegin_nil, and_true]
    exact ⟨hspan, he⟩

/-! ## Statements -/

/-- The functions that read statements keep the beginnings, at one amount of fuel. -/
structure KeepsStmts (P : Position → Prop) (fuel : Nat) : Prop where
  block       : Keeps P (block fuel) fun b => b.tree.Begins P
  blockRest   : ∀ opening done, P opening.start → TreesBegin P (stmtTrees done) →
    Keeps P (blockRest fuel opening done) fun b => b.tree.Begins P
  statement   : Keeps P (statement fuel) fun s => s.tree.Begins P
  conditional : Keeps P (conditional fuel) fun c => c.tree.Begins P
  expectBlock : ∀ head, Keeps P (expectBlock fuel head) fun b => b.tree.Begins P

namespace KeepsStmts

theorem block_succ (ih : KeepsStmts P fuel) :
    Keeps P (Reader.block (fuel + 1)) fun b => b.tree.Begins P := by
  rw [Reader.block]
  refine keeps_get.bind fun c hc => keeps_advance.bind fun _ _ => ?_
  exact ih.blockRest _ _ hc.here treesBegin_nil

theorem blockRest_succ (ih : KeepsStmts P fuel) (opening : Span) (done : List (Stmt Unit))
    (hopening : P opening.start) (hdone : TreesBegin P (stmtTrees done)) :
    Keeps P (Reader.blockRest (fuel + 1) opening done) fun b => b.tree.Begins P := by
  have closed : ∀ span : Span, P span.start → (Block.mk span done).tree.Begins P :=
    fun span hspan => Tree.begins_node.mpr ⟨hspan, hdone⟩
  rw [Reader.blockRest]
  refine keeps_get.bind fun c hc => ?_
  split
  · exact keeps_advance.bind fun _ _ => keeps_spanned hopening closed
  · split
    · exact (keeps_set (hc.record hc.here _)).bind fun _ _ => .pure (closed _ hopening)
    · split
      · exact (keeps_set (hc.record hopening _)).bind fun _ _ => .pure (closed _ hopening)
      · refine (keeps_recover ih.statement).bind fun found hfound => ?_
        split
        · next s =>
            refine ih.blockRest _ _ hopening (treesBegin_stmtTrees_append.mpr ⟨hdone, ?_⟩)
            exact treesBegin_cons.mpr ⟨hfound s rfl, treesBegin_nil⟩
        · exact ih.blockRest _ _ hopening hdone

theorem expectBlock_succ (ih : KeepsStmts P fuel) (head : BlockHead) :
    Keeps P (Reader.expectBlock (fuel + 1) head) fun b => b.tree.Begins P := by
  rw [Reader.expectBlock]
  refine keeps_atSymbol.bind fun brace _ => ?_
  split
  · exact ih.block
  · exact keeps_rejectAssign.bind fun _ _ => keeps_peek.bind fun _ _ => keeps_fail

theorem conditional_succ (ih : KeepsStmts P fuel) :
    Keeps P (Reader.conditional (fuel + 1)) fun c => c.tree.Begins P := by
  have whole : ∀ (span : Span) (test : Expr) (consequent : Block Unit) (alternate : Else Unit),
      P span.start → test.tree.Begins P → consequent.tree.Begins P → TreesBegin P alternate.trees →
      (Cond.mk span test consequent alternate).tree.Begins P :=
    fun _ _ _ _ hspan htest hcons halt =>
      Tree.begins_node.mpr ⟨hspan, treesBegin_cons.mpr ⟨htest, treesBegin_cons.mpr ⟨hcons, halt⟩⟩⟩
  rw [Reader.conditional]
  refine keeps_start.bind fun p hp => keeps_advance.bind fun _ _ => ?_
  refine (keeps_expression fuel).bind fun test htest => ?_
  refine (ih.expectBlock _).bind fun consequent hcons => keeps_acceptKeyword.bind fun key _ => ?_
  split
  · refine keeps_atKeyword.bind fun chained _ => ?_
    split
    · refine ih.conditional.bind fun inner hinner => .pure (whole _ _ _ _ hp htest hcons ?_)
      exact treesBegin_cons.mpr ⟨hinner, treesBegin_nil⟩
    · refine (ih.expectBlock _).bind fun b hb => .pure (whole _ _ _ _ hp htest hcons ?_)
      exact treesBegin_cons.mpr ⟨hb, treesBegin_nil⟩
  · exact .pure (whole _ _ _ _ hp htest hcons treesBegin_nil)

theorem statement_succ (ih : KeepsStmts P fuel) :
    Keeps P (Reader.statement (fuel + 1)) fun s => s.tree.Begins P := by
  rw [Reader.statement]
  refine keeps_get.bind fun c _ => ?_
  split
  · refine (keeps_letParts fuel).bind fun parts hparts => .pure ?_
    simp only [Stmt.tree, Tree.begins_node, treesBegin_append, treesBegin_cons, treesBegin_nil,
      and_true, Ident.begins_tree]
    exact ⟨hparts.span, ⟨hparts.name, hparts.declared⟩, hparts.init⟩
  · exact ih.conditional.map fun _ hc => hc
  · refine keeps_start.bind fun p hp => keeps_advance.bind fun _ _ => ?_
    refine (keeps_expression fuel).bind fun test htest => ?_
    refine (ih.expectBlock _).bind fun body hbody => .pure ?_
    simp only [Stmt.tree, Tree.begins_node, treesBegin_cons, treesBegin_nil, and_true]
    exact ⟨hp, htest, hbody⟩
  · exact keeps_returnStmt fuel
  · exact ih.block.map fun _ hb => hb
  · exact keeps_fail
  · exact keeps_simpleStmt fuel

end KeepsStmts

theorem keepsStmts (fuel : Nat) : KeepsStmts P fuel := by
  induction fuel with
  | zero =>
      exact
        { block       := keeps_outOfFuel
          blockRest   := fun _ _ _ _ => keeps_outOfFuel
          statement   := keeps_outOfFuel
          conditional := keeps_outOfFuel
          expectBlock := fun _ => keeps_outOfFuel }
  | succ fuel ih =>
      exact
        { block       := ih.block_succ
          blockRest   := ih.blockRest_succ
          statement   := ih.statement_succ
          conditional := ih.conditional_succ
          expectBlock := ih.expectBlock_succ }

/-! ## Declarations -/

theorem keeps_parametersRest (fuel : Nat) :
    Keeps P (parametersRest fuel) fun ps => TreesBegin P (ps.map Param.tree) := by
  induction fuel with
  | zero => exact keeps_outOfFuel
  | succ fuel ih =>
      rw [parametersRest]
      refine keeps_peek.bind fun next hnext => ?_
      split
      · next t =>
          have ht := hnext t rfl
          split
          · refine keeps_advance.bind fun _ _ => keeps_accept.bind fun colon _ => ?_
            split
            · exact (keeps_failAt (Q := fun _ => False) ht _).bind fun _ h => h.elim
            · refine keeps_typeRef.bind fun type htype => keeps_accept.bind fun comma _ => ?_
              have hparam : ∀ more : List Param, TreesBegin P (more.map Param.tree) →
                  TreesBegin P ((⟨t.span.through type.span, ⟨t.lexeme, t.span⟩, type⟩ ::
                    more : List Param).map Param.tree) := by
                intro more hmore
                simp only [List.map_cons, Param.tree, treesBegin_cons, Tree.begins_node,
                  Ident.begins_tree, TypeRef.begins_tree, treesBegin_nil, and_true]
                exact ⟨⟨ht, ht, htype⟩, hmore⟩
              split
              · exact ih.bind fun more hmore => .pure (hparam more hmore)
              · exact keeps_expectClose.bind fun _ _ => .pure (hparam [] treesBegin_nil)
          · exact keeps_fail
      · exact keeps_fail

theorem keeps_parameters (fuel : Nat) :
    Keeps P (parameters fuel) fun ps => TreesBegin P (ps.map Param.tree) := by
  rw [parameters]
  refine keeps_accept.bind fun close _ => ?_
  split
  · exact .pure treesBegin_nil
  · exact keeps_parametersRest fuel

theorem keeps_exportMark (fuel : Nat) :
    Keeps P (exportMark fuel) fun mark => mark.tree.Begins P := by
  rw [exportMark]
  refine keeps_start.bind fun p hp => keeps_advance.bind fun _ _ => ?_
  refine keeps_expectName.bind fun name hname => ?_
  split
  · exact (keeps_failAt (Q := fun _ => False) hname _).bind fun _ h => h.elim
  · refine keeps_accept.bind fun paren _ => ?_
    split
    · refine keeps_expectName.bind fun hint hhint => keeps_expectMark.bind fun _ _ => ?_
      refine (keepsExprs fuel).arguments.bind fun args hargs => keeps_expectClose.bind fun _ _ => ?_
      refine (keeps_spanFrom hhint).bind fun span hspan => keeps_expectClose.bind fun _ _ => ?_
      refine keeps_spanned hp fun whole hwhole => Tree.begins_node.mpr ⟨hwhole, ?_⟩
      refine treesBegin_cons.mpr ⟨Tree.begins_node.mpr ⟨hspan, ?_⟩, treesBegin_nil⟩
      exact treesBegin_cons.mpr ⟨Ident.begins_tree.mpr hhint, hargs⟩
    · exact keeps_spanned hp fun whole hwhole => Tree.begins_node.mpr ⟨hwhole, treesBegin_nil⟩

theorem keeps_globalDecl (fuel : Nat) {exported : Option ExportMark}
    (h : TreesBegin P (exported.toList.map ExportMark.tree)) :
    Keeps P (globalDecl fuel exported) fun g =>
      (Declaration.global g : Declaration Unit).tree.Begins P := by
  rw [globalDecl]
  refine (keeps_letParts fuel).bind fun parts hparts => .pure (Tree.begins_node.mpr ⟨?_, ?_⟩)
  · cases exported with
    | none => exact hparts.span
    | some mark => exact (h _ List.mem_cons_self).start
  · simp only [treesBegin_append, treesBegin_cons, treesBegin_nil, and_true, Ident.begins_tree]
    exact ⟨⟨⟨h, hparts.name⟩, hparts.declared⟩, hparts.init⟩

theorem keeps_returnType :
    Keeps P returnType fun type => TreesBegin P (type.toList.map TypeRef.tree) := by
  rw [returnType]
  refine keeps_accept.bind fun arrow _ => ?_
  split
  · refine keeps_peek.bind fun next hnext => ?_
    split
    · next t =>
        split
        · refine keeps_advance.bind fun _ _ => .pure ?_
          exact treesBegin_cons.mpr ⟨TypeRef.begins_tree.mpr (hnext t rfl), treesBegin_nil⟩
        · exact keeps_fail
    · exact keeps_fail
  · exact .pure treesBegin_nil

theorem keeps_functionDecl (fuel : Nat) :
    Keeps P (functionDecl fuel) fun f => (Declaration.function f).tree.Begins P := by
  rw [functionDecl]
  refine keeps_start.bind fun p hp => keeps_advance.bind fun _ _ => ?_
  refine keeps_expectName.bind fun name hname => keeps_accept.bind fun paren _ => ?_
  split
  · exact keeps_peek.bind fun _ _ => keeps_fail_bind
  · refine (keeps_parameters fuel).bind fun params hparams => ?_
    refine keeps_returnType.bind fun result hresult => keeps_atSymbol.bind fun brace _ => ?_
    split
    · exact keeps_peek.bind fun _ _ => keeps_fail_bind
    · refine (keepsStmts fuel).block.bind fun body hbody => .pure (Tree.begins_node.mpr ⟨hp, ?_⟩)
      simp only [treesBegin_append, treesBegin_cons, treesBegin_nil, and_true, Ident.begins_tree]
      exact ⟨⟨⟨hname, hparams⟩, hresult⟩, hbody⟩

theorem keeps_signalDecl (fuel : Nat) :
    Keeps P (signalDecl fuel) fun s => (Declaration.signal s : Declaration Unit).tree.Begins P := by
  rw [signalDecl]
  refine keeps_start.bind fun p hp => keeps_advance.bind fun _ _ => ?_
  refine keeps_expectName.bind fun name hname => keeps_expectMark.bind fun _ _ => ?_
  refine (keeps_parameters fuel).bind fun params hparams => keeps_expectSemicolon.bind fun _ _ => ?_
  refine keeps_spanned hp fun span hspan => Tree.begins_node.mpr ⟨hspan, ?_⟩
  exact treesBegin_cons.mpr ⟨Ident.begins_tree.mpr hname, hparams⟩

theorem keeps_declaration (fuel : Nat) :
    Keeps P (declaration fuel) fun found => TreesBegin P (found.toList.map Declaration.tree) := by
  have item : ∀ {γ : Type} {x : Reader γ} {mk : γ → Declaration Unit},
      Keeps P x (fun a => (mk a).tree.Begins P) →
      Keeps P (some <$> mk <$> x) fun found => TreesBegin P (found.toList.map Declaration.tree) :=
    fun h => (h.map (R := fun d => d.tree.Begins P) fun _ hd => hd).map fun d hd =>
      treesBegin_cons.mpr ⟨hd, treesBegin_nil⟩
  rw [declaration]
  refine keeps_peek.bind fun next _ => ?_
  split
  · refine (keeps_exportMark fuel).bind fun mark hmark => keeps_atKeyword.bind fun key _ => ?_
    split
    · exact item (keeps_globalDecl fuel (treesBegin_cons.mpr ⟨hmark, treesBegin_nil⟩))
    · exact keeps_peek.bind fun _ _ => keeps_fail
  · exact item (keeps_globalDecl fuel treesBegin_nil)
  · exact item (keeps_functionDecl fuel)
  · exact item (keeps_signalDecl fuel)
  · exact keeps_advance.bind fun _ _ => .pure treesBegin_nil
  · exact keeps_fail

theorem keeps_declarations (fuel : Nat) :
    Keeps P (declarations fuel) fun body => TreesBegin P (body.map Declaration.tree) := by
  induction fuel with
  | zero => exact keeps_outOfFuel
  | succ fuel ih =>
      rw [declarations]
      refine keeps_get.bind fun c _ => ?_
      split
      · exact .pure treesBegin_nil
      · refine (keeps_recover (keeps_declaration fuel)).bind fun found hfound => ?_
        refine ih.bind fun more hmore => .pure ?_
        rw [List.map_append, treesBegin_append]
        refine ⟨?_, hmore⟩
        cases found with
        | none => exact treesBegin_nil
        | some d => exact hfound d rfl

end Reader

/-! ## Whole scripts -/

/-- All nodes of a program, and all that is reported about its shape, begin where a token begins or
    ends or where the script does. -/
theorem parseTokens_begins {tokens : List Token} {finish : Position}
    (htokens : ∀ t ∈ tokens, P t.span.start ∧ P t.span.stop) (horigin : P .origin)
    (hfinish : P finish) :
    (parseTokens tokens finish).program.tree.Begins P ∧
    ∀ d ∈ (parseTokens tokens finish).diagnostics, P d.span.start := by
  have hplaced : Cursor.Placed P ⟨tokens, .origin, finish, []⟩ :=
    ⟨htokens, horigin, hfinish, fun _ hd => absurd hd List.not_mem_nil⟩
  have hread := Reader.keeps_declarations (parserFuel tokens.length) _ hplaced
  rw [Ends] at hread
  rw [parseTokens]
  split
  · next body c hrun =>
      rw [hrun] at hread
      exact ⟨Tree.begins_node.mpr ⟨hplaced.here, hread.2⟩, hread.1.errors⟩
  · next stop c hrun =>
      rw [hrun] at hread
      exact ⟨Tree.begins_node.mpr ⟨hplaced.here, treesBegin_nil⟩, hread.errors⟩

end SceneScript
