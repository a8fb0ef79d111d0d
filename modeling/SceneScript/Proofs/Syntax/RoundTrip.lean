import Mathlib.Data.List.Induction
import SceneScript.Proofs.Syntax.Fuel
import SceneScript.Proofs.Syntax.Rereading

/-!
# Rendered scripts are read back

Statements and declarations are told apart by their first word, and none of them begins like
what may follow it; so the words of a script fall apart again into the words of its parts. With
the fuel that `parseTokens` computes, reading a rendered script gives the script.

* **`StmtReread`**, **`BlockReread`**, **`CondReread`** — parts of function bodies.
* **`Stmt.reread`**, **`Block.reread`**, **`Cond.reread`** — by recursion over the tree.
* **`parseTokens_words`** — the round trip.
-/

namespace SceneScript

/-! ## More steps over known words -/

namespace Reader

variable {c : Cursor} {ws rest : List Word} {E : Stop → Cursor → Prop}

theorem ends_acceptKeyword_here {k : Keyword} {Q : Bool → Cursor → Prop}
    (h : c.Faces (.keyword k :: ws)) (hQ : Q true c.advance) : Ends (acceptKeyword k) c Q E := by
  refine ends_acceptKeyword.mpr ⟨fun _ => hQ, fun hk => ?_⟩
  rw [h.atKeyword k] at hk
  simp at hk

theorem ends_acceptKeyword_not {k : Keyword} {Q : Bool → Cursor → Prop} (h : c.Faces ws)
    (hk : ws.head? ≠ some (.keyword k)) (hQ : Q false c) : Ends (acceptKeyword k) c Q E := by
  refine ends_acceptKeyword.mpr ⟨fun hk' => ?_, fun _ => hQ⟩
  rw [h.atKeyword k] at hk'
  exact absurd (of_decide_eq_true hk') hk

end Reader

open Reader

variable {c : Cursor} {rest : List Word}

/-- A test in parentheses, in front of its block. -/
theorem Reread.test {e : Expr} (h : Reread e) {Q : Expr → Cursor → Prop}
    (hc : c.Faces (inParens e.words ++ .symbol .lbrace :: rest))
    (hQ : ∀ e' d, e'.bare = e.bare → d.Faces (.symbol .lbrace :: rest) → Q e' d) (fuel : Nat) :
    Ends (expression fuel) c Q OnlyFuel := by
  refine Plain.group_binary h.plain (by simp) hc (fun fuel e' d he hd => ?_) fuel
  refine ends_binaryRest_stop hd (fun op hop => ?_) (hQ e' d he hd) fuel
  cases op <;> simp [BinaryOp.word] at hop

/-! ## Variables -/

theorem ends_letRest_reread {init : Expr} (h : Reread init) {start : Position} {mutable : Bool}
    {name : Ident} {declared : Option TypeRef} {Q : LetParts → Cursor → Prop}
    (hc : c.Faces (.symbol .assign :: (init.words ++ .symbol .semicolon :: rest)))
    (hQ : ∀ span init' d, init'.bare = init.bare → d.Faces rest →
      Q ⟨span, name, mutable, declared, init'⟩ d) (fuel : Nat) :
    Ends (letRest fuel start mutable name declared) c Q OnlyFuel := by
  rw [letRest, ends_bind]
  refine ends_accept_here hc ?_
  simp only [Bool.not_true, Bool.false_eq_true, if_false, ends_bind]
  refine h.whole (stopsAt_mark (.inr (.inr (.inr rfl))) 0 _) hc.advance ?_ fuel
  intro init' d hinit hd
  refine ends_expectSemicolon_here hd ?_
  exact hQ _ init' d.advance hinit hd.advance

/-- The parts of a variable declaration agree with what was written. -/
structure LetParts.Agrees (d : LetParts) (mutable : Bool) (name : Ident)
    (declared : Option TypeRef) (init : Expr) : Prop where
  mutable  : d.mutable = mutable
  name     : d.name.bare = name.bare
  declared : d.declared.map TypeRef.bare = declared.map TypeRef.bare
  init     : d.init.bare = init.bare

theorem ends_letParts_reread {init : Expr} (h : Reread init) {mutable : Bool} {name : Ident}
    {declared : Option TypeRef} {Q : LetParts → Cursor → Prop}
    (hc : c.Faces (letHead mutable name declared ++ (init.words ++ .symbol .semicolon :: rest)))
    (hQ : ∀ parts d, LetParts.Agrees parts mutable name declared init → d.Faces rest → Q parts d)
    (fuel : Nat) : Ends (letParts fuel) c Q OnlyFuel := by
  simp only [letHead, List.cons_append, List.append_assoc, List.nil_append] at hc
  rw [letParts_eq, ends_bind, ends_start, ends_bind, ends_advance, ends_bind]
  -- From the name on the keyword `mut` plays no role.
  have named : ∀ {d : Cursor}, d.Faces (.name name.name :: (annotationWords declared ++
      (.symbol .assign :: (init.words ++ .symbol .semicolon :: rest)))) →
      Ends (do
        let name ← expectName .variableName
        if ← accept .colon then
          let type ← typeRef
          letRest fuel c.here.start mutable name (some type)
        else letRest fuel c.here.start mutable name none) d Q OnlyFuel := by
    intro d hd
    rw [ends_bind]
    refine ends_expectName_here hd fun span => ?_
    rw [ends_bind]
    cases declared with
    | none =>
        refine ends_accept_not hd.advance (by simp [annotationWords]) ?_
        refine ends_letRest_reread h hd.advance (fun _ init' d' hinit hd' => ?_) fuel
        exact hQ _ d' ⟨rfl, rfl, rfl, hinit⟩ hd'
    | some type =>
        refine ends_accept_here hd.advance ?_
        simp only [if_true, ends_bind]
        refine ends_typeRef_here hd.advance.advance fun typeSpan => ?_
        refine ends_letRest_reread h hd.advance.advance.advance (fun _ init' d' hinit hd' => ?_) fuel
        exact hQ _ d' ⟨rfl, rfl, rfl, hinit⟩ hd'
  cases mutable with
  | true =>
      refine ends_acceptKeyword_here hc.advance ?_
      exact named hc.advance.advance
  | false =>
      refine ends_acceptKeyword_not hc.advance (by simp) ?_
      exact named hc.advance

/-! ## Assignment targets -/

/-- Field accesses along a path. -/
def Expr.along (e : Expr) (path : List Ident) : Expr :=
  path.foldl (fun object name => .field .origin object name) e

theorem Expr.along_words (path : List Ident) : ∀ e : Expr, e.level = 8 →
    (e.along path).words = e.words ++ path.flatMap fun id => [.symbol .dot, .name id.name] := by
  induction path with
  | nil => exact fun e _ => (List.append_nil _).symm
  | cons name path ih =>
      intro e he
      show ((Expr.field .origin e name).along path).words = _
      rw [ih _ rfl, Expr.words, ← Expr.wordsAt, Expr.wordsAt_of_le (Nat.le_of_eq he.symm),
        List.append_assoc]
      rfl

theorem Expr.along_wellFormed (path : List Ident) : ∀ e : Expr, e.wellFormed = true →
    (e.along path).wellFormed = true := by
  induction path with
  | nil => exact fun e he => he
  | cons name path ih => exact fun e he => ih (.field .origin e name) he

/-- A target is read back as an expression. -/
theorem AssignTarget.reread (t : AssignTarget) :
    Reread (t.root.expr.along t.path) ∧ (t.root.expr.along t.path).words = t.words := by
  obtain ⟨span, root, path⟩ := t
  cases root with
  | self span =>
      exact ⟨Expr.reread _ (Expr.along_wellFormed path _ rfl), Expr.along_words path _ rfl⟩
  | name id =>
      exact ⟨Expr.reread _ (Expr.along_wellFormed path _ rfl), Expr.along_words path _ rfl⟩

/-- An expression that is a field access up to places. -/
theorem Expr.bare_eq_field {e object : Expr} {span : Span} {name : Ident}
    (h : e.bare = (Expr.field span object name).bare) :
    ∃ span' object' name', e = .field span' object' name' ∧ object'.bare = object.bare ∧
      name'.bare = name.bare := by
  cases e <;> simp only [Expr.bare, Expr.field.injEq, reduceCtorEq] at h
  exact ⟨_, _, _, rfl, h.2.1, h.2.2⟩

theorem targetParts_root {e : Expr} {root : TargetRoot} (h : e.bare = root.expr.bare)
    (behind : List Ident) :
    ∃ root', targetParts e behind = some (root', behind) ∧ root'.bare = root.bare := by
  cases root with
  | self span =>
      cases e <;> simp only [TargetRoot.expr, Expr.bare, reduceCtorEq] at h
      exact ⟨_, rfl, rfl⟩
  | name id =>
      cases e <;> simp only [TargetRoot.expr, Expr.bare, Expr.ident.injEq, reduceCtorEq] at h
      exact ⟨_, rfl, by simpa [TargetRoot.bare] using h⟩

/-- An expression that is a path up to places has the parts of the path. -/
theorem targetParts_path {root : TargetRoot} (path : List Ident) :
    ∀ {e : Expr} (behind : List Ident),
      e.bare = (root.expr.along path).bare →
      ∃ root' path', targetParts e behind = some (root', path' ++ behind) ∧
        root'.bare = root.bare ∧ path'.map Ident.bare = path.map Ident.bare := by
  -- The outermost access of the expression is the last one of the path.
  induction path using List.reverseRecOn with
  | nil =>
      intro e behind h
      obtain ⟨root', hparts, hroot⟩ := targetParts_root h behind
      exact ⟨root', [], hparts, hroot, rfl⟩
  | append_singleton path name ih =>
      intro e behind h
      rw [Expr.along, List.foldl_append, List.foldl_cons, List.foldl_nil] at h
      obtain ⟨span, object, name', rfl, hobject, hname⟩ := Expr.bare_eq_field h
      obtain ⟨root', path', hparts, hroot, hpath⟩ := ih (name' :: behind) hobject
      refine ⟨root', path' ++ [name'], ?_, hroot, ?_⟩
      · rw [targetParts, hparts, List.append_assoc]
        rfl
      · rw [List.map_append, List.map_append, hpath, List.map_singleton, List.map_singleton, hname]

theorem assignOp?_of_word {t : Token} {op : AssignOp} (h : t.word = op.word) :
    assignOp? (some t) = some op := by
  cases op <;> simp only [assignOp?, Token.kind_of_symbol h]

theorem stopsAt_assign (op : AssignOp) (ws : List Word) : StopsAt 0 (op.word :: ws) := by
  refine ⟨⟨⟨?_, ?_⟩, ?_⟩, fun op' h => ?_⟩
  · cases op <;> simp [AssignOp.word]
  · cases op <;> simp [AssignOp.word]
  · cases op <;> simp [AssignOp.word]
  · cases op <;> cases op' <;> simp [AssignOp.word, BinaryOp.word] at h

/-! ## Simple statements -/

/-- An expression and its semicolon. -/
theorem ends_simpleStmt_eval {e : Expr} (h : Reread e) (span : Span)
    {Q : Stmt Unit → Cursor → Prop} (hc : c.Faces (e.words ++ .symbol .semicolon :: rest))
    (hQ : ∀ st d, st.bare = (Stmt.eval span e).bare → d.Faces rest → Q st d) (fuel : Nat) :
    Ends (simpleStmt fuel) c Q OnlyFuel := by
  rw [simpleStmt, ends_bind]
  refine h.whole (stopsAt_mark (.inr (.inr (.inr rfl))) 0 _) hc ?_ fuel
  intro e' d he hd
  obtain ⟨t, ts, ht, hw⟩ := hd.token
  have hop : assignOp? d.tokens.head? = none := by
    rw [ht, List.head?_cons]
    simp only [assignOp?, Token.kind_of_symbol hw]
  rw [ends_bind, ends_peek, hop]
  simp only [ends_bind]
  refine ends_expectSemicolon_here hd ?_
  refine hQ _ d.advance ?_ hd.advance
  rw [Stmt.bare, Stmt.bare, he]

/-- An assignment: its target is first read as an expression. -/
theorem ends_simpleStmt_assign {target : AssignTarget} {op : AssignOp} {value : Expr}
    (h : Reread value) (span : Span) {Q : Stmt Unit → Cursor → Prop}
    (hc : c.Faces (target.words ++ (op.word :: (value.words ++ .symbol .semicolon :: rest))))
    (hQ : ∀ st d, st.bare = (Stmt.assign span target op value).bare → d.Faces rest → Q st d)
    (fuel : Nat) : Ends (simpleStmt fuel) c Q OnlyFuel := by
  obtain ⟨hreread, hwords⟩ := target.reread
  rw [← hwords] at hc
  rw [simpleStmt, ends_bind]
  refine hreread.whole (stopsAt_assign op _) hc ?_ fuel
  intro e d he hd
  obtain ⟨t, ts, ht, hw⟩ := hd.token
  have hop : assignOp? d.tokens.head? = some op := by
    rw [ht, List.head?_cons]
    exact assignOp?_of_word hw
  obtain ⟨root, path, hparts, hroot, hpath⟩ := targetParts_path target.path [] he
  have htarget : assignTarget e d = .ok ⟨e.span, root, path⟩ d := by
    simp only [assignTarget, hparts, List.append_nil]
    rfl
  rw [ends_bind, ends_peek, hop]
  simp only [ends_bind]
  rw [ends_of_ok htarget, ends_advance]
  refine h.whole (stopsAt_mark (.inr (.inr (.inr rfl))) 0 _) hd.advance ?_ fuel
  intro v d' hv hd'
  refine ends_expectSemicolon_here hd' ?_
  refine hQ _ d'.advance ?_ hd'.advance
  rw [Stmt.bare, Stmt.bare, hv, AssignTarget.bare, AssignTarget.bare, hroot, hpath]

/-- A return, with or without a value. -/
theorem ends_returnStmt_none (span : Span) {Q : Stmt Unit → Cursor → Prop}
    (hc : c.Faces (.keyword .returnKey :: .symbol .semicolon :: rest))
    (hQ : ∀ st d, st.bare = (Stmt.ret span none : Stmt Unit).bare → d.Faces rest → Q st d)
    (fuel : Nat) : Ends (returnStmt fuel) c Q OnlyFuel := by
  simp only [returnStmt, ends_bind, ends_start, ends_advance, ends_atSymbol,
    hc.advance.atSymbol .semicolon, List.head?_cons, decide_true, if_true, ends_pure]
  refine ends_expectSemicolon_here hc.advance ?_
  exact hQ _ _ rfl hc.advance.advance

theorem ends_returnStmt_some {e : Expr} (hwf : e.wellFormed = true) (h : Reread e) (span : Span)
    {Q : Stmt Unit → Cursor → Prop}
    (hc : c.Faces (.keyword .returnKey :: (e.words ++ .symbol .semicolon :: rest)))
    (hQ : ∀ st d, st.bare = (Stmt.ret span (some e) : Stmt Unit).bare → d.Faces rest → Q st d)
    (fuel : Nat) : Ends (returnStmt fuel) c Q OnlyFuel := by
  obtain ⟨w, ws, hws, hbegin, -⟩ := e.words_begin hwf
  have hne : (e.words ++ .symbol .semicolon :: rest).head? ≠ some (.symbol .semicolon) := by
    rw [hws]
    rintro hw
    cases Option.some.inj hw
    cases hbegin
  simp only [returnStmt, ends_bind, ends_start, ends_advance, ends_atSymbol,
    hc.advance.atSymbol .semicolon, decide_eq_false hne, Bool.false_eq_true, if_false, ends_map]
  refine h.whole (stopsAt_mark (.inr (.inr (.inr rfl))) 0 _) hc.advance ?_ fuel
  intro e' d he hd
  refine ends_expectSemicolon_here hd ?_
  refine hQ _ d.advance ?_ hd.advance
  rw [Stmt.bare, Stmt.bare, he]

/-! ## Blocks and conditionals -/

/-- A word that begins a statement. -/
def Word.beginsStmt (w : Word) : Bool :=
  w.beginsExpr || w == .symbol .lbrace || w == .keyword .letKey || w == .keyword .ifKey ||
    w == .keyword .whileKey || w == .keyword .returnKey

/-- The statement is read back, in front of anything but an `else`. -/
def StmtReread (st : Stmt Unit) : Prop :=
  ∀ {c : Cursor} {rest : List Word} {Q : Stmt Unit → Cursor → Prop},
    rest.head? ≠ some (.keyword .elseKey) → c.Faces (st.words ++ rest) →
    (∀ st' d, st'.bare = st.bare → d.Faces rest → Q st' d) →
    ∀ fuel, Ends (statement fuel) c Q OnlyFuel

/-- The block is read back. -/
def BlockReread (b : Block Unit) : Prop :=
  ∀ {c : Cursor} {rest : List Word} {Q : Block Unit → Cursor → Prop}, c.Faces (b.words ++ rest) →
    (∀ b' d, b'.bare = b.bare → d.Faces rest → Q b' d) → ∀ fuel, Ends (block fuel) c Q OnlyFuel

/-- The conditional is read back, in front of anything but an `else`. -/
def CondReread (cond : Cond Unit) : Prop :=
  ∀ {c : Cursor} {rest : List Word} {Q : Cond Unit → Cursor → Prop},
    rest.head? ≠ some (.keyword .elseKey) → c.Faces (cond.words ++ rest) →
    (∀ cond' d, cond'.bare = cond.bare → d.Faces rest → Q cond' d) →
    ∀ fuel, Ends (conditional fuel) c Q OnlyFuel

/-- What follows a consequent is read back. -/
def ElseReread : Else Unit → Prop
  | .absent  => True
  | .block b => BlockReread b
  | .cond c  => CondReread c

/-- Behind its head a block is read as one. -/
theorem BlockReread.expected {b : Block Unit} (h : BlockReread b) {head : BlockHead}
    {Q : Block Unit → Cursor → Prop} (hc : c.Faces (b.words ++ rest))
    (hQ : ∀ b' d, b'.bare = b.bare → d.Faces rest → Q b' d) (fuel : Nat) :
    Ends (expectBlock fuel head) c Q OnlyFuel := by
  cases fuel with
  | zero => exact rfl
  | succ fuel =>
      rw [expectBlock, ends_bind, ends_atSymbol, hc.atSymbol .lbrace, Block.words_eq]
      exact h hc hQ fuel

theorem Stmt.words_begin (st : Stmt Unit) (h : st.wellFormed = true) :
    ∃ w ws, st.words = w :: ws ∧ w.beginsStmt = true := by
  cases st with
  | block b =>
      cases b
      exact ⟨_, _, rfl, rfl⟩
  | bind _ name mutable declared init _ => exact ⟨_, _, rfl, rfl⟩
  | assign _ target _ _ =>
      refine ⟨_, _, rfl, ?_⟩
      cases target.root <;> rfl
  | cond c =>
      cases c
      exact ⟨_, _, rfl, rfl⟩
  | loop _ _ _ => exact ⟨_, _, rfl, rfl⟩
  | ret _ value => cases value <;> exact ⟨_, _, rfl, rfl⟩
  | eval _ e =>
      obtain ⟨w, ws, hws, hexpr, -⟩ := e.words_begin h
      refine ⟨w, ws ++ [.symbol .semicolon], by rw [Stmt.words, hws]; rfl, ?_⟩
      simp [Word.beginsStmt, hexpr]

/-- Statements do not begin like the end of a block, an `else` or a declaration. -/
theorem Word.beginsStmt_ne {w v : Word} (hw : w.beginsStmt = true) (hv : v.beginsStmt = false) :
    w ≠ v := by
  rintro rfl
  exact Bool.noConfusion (hw.symm.trans hv)

/-- The statements of a block after `done` of them, and its closing brace. -/
theorem ends_blockRest_reread {sts : List (Stmt Unit)} (hwf : stmtsWellFormed sts = true)
    (h : ∀ st ∈ sts, StmtReread st) :
    ∀ (opening : Span) (done : List (Stmt Unit)) {c : Cursor} {rest : List Word}
      {Q : Block Unit → Cursor → Prop}, c.Faces (stmtsWords sts ++ .symbol .rbrace :: rest) →
      (∀ b d, b.bare = .mk .origin (stmtsBare (done ++ sts)) → d.Faces rest → Q b d) →
      ∀ fuel, Ends (blockRest fuel opening done) c Q OnlyFuel := by
  induction sts with
  | nil =>
      intro opening done c rest Q hc hQ fuel
      cases fuel with
      | zero => exact rfl
      | succ fuel =>
          have hclose : c.atSymbol .rbrace = true := by
            rw [hc.atSymbol .rbrace]
            rfl
          rw [blockRest, ends_bind, ends_get]
          simp only [hclose, if_true, ends_bind, ends_advance, ends_spanFrom, ends_pure]
          refine hQ _ c.advance ?_ (Cursor.Faces.advance hc)
          rw [Block.bare, List.append_nil]
  | cons st sts ih =>
      intro opening done c rest Q hc hQ fuel
      rw [stmtsWellFormed, Bool.and_eq_true] at hwf
      have hmem : ∀ x ∈ sts, StmtReread x := fun x hx => h x (List.mem_cons_of_mem st hx)
      rw [stmtsWords, List.append_assoc] at hc
      obtain ⟨w, ws, hws, hbegin⟩ := st.words_begin hwf.1
      have hhead : ∀ v : Word, v.beginsStmt = false →
          (st.words ++ (stmtsWords sts ++ .symbol .rbrace :: rest)).head? ≠ some v := by
        rw [hws]
        exact fun v hv hw => Word.beginsStmt_ne hbegin hv (Option.some.inj hw)
      -- What comes next begins a statement or closes the block.
      have hnext : (stmtsWords sts ++ .symbol .rbrace :: rest).head? ≠
          some (.keyword .elseKey) := by
        cases sts with
        | nil => simp [stmtsWords]
        | cons st' sts =>
            rw [stmtsWellFormed, Bool.and_eq_true] at hwf
            obtain ⟨w', ws', hws', hbegin'⟩ := st'.words_begin hwf.2.1
            rw [stmtsWords, hws']
            exact fun hw => Word.beginsStmt_ne hbegin' rfl (Option.some.inj hw)
      cases fuel with
      | zero => exact rfl
      | succ fuel =>
          have hclose : c.atSymbol .rbrace = false := by
            rw [hc.atSymbol, decide_eq_false (hhead _ rfl)]
          have hdecl : c.atDeclaration = false := by
            rw [Cursor.atDeclaration, hc.atKeyword, hc.atKeyword, hc.atSymbol,
              decide_eq_false (hhead _ rfl), decide_eq_false (hhead _ rfl),
              decide_eq_false (hhead _ rfl)]
            rfl
          have hsome : c.tokens.isEmpty = false := by
            rw [hws] at hc
            obtain ⟨t, ts, ht, -⟩ := hc.token
            rw [ht]
            rfl
          rw [blockRest, ends_bind, ends_get]
          simp only [hclose, hsome, hdecl, Bool.false_eq_true, if_false, ends_bind]
          refine ends_recover.mpr (Ends.mono (h st List.mem_cons_self hnext hc
            (Q := fun st' d => ∀ fuel, Ends (blockRest fuel opening (done ++ [st'])) d Q OnlyFuel)
            ?_ fuel) (fun st' d hd => hd fuel) ?_)
          · intro st' d hst hd fuel
            refine ih hwf.2 hmem opening _ hd (fun b d' hb hd' => hQ b d' ?_ hd') fuel
            rw [hb, stmtsBare_eq_map, stmtsBare_eq_map]
            simp [hst]
          · rintro stop d rfl
            exact ⟨Stop.noConfusion, fun _ => rfl⟩

theorem blockReread {span : Span} {sts : List (Stmt Unit)} (hwf : stmtsWellFormed sts = true)
    (h : ∀ st ∈ sts, StmtReread st) : BlockReread (.mk span sts) := by
  intro c rest Q hc hQ fuel
  simp only [Block.words, List.cons_append, List.append_assoc, List.nil_append] at hc
  cases fuel with
  | zero => exact rfl
  | succ fuel =>
      rw [block, ends_bind, ends_get]
      simp only [ends_bind, ends_advance]
      exact ends_blockRest_reread hwf h _ [] hc.advance (fun b d hb hd => hQ b d hb hd) fuel

theorem condReread {span : Span} {test : Expr} {consequent : Block Unit} {alternate : Else Unit}
    (ht : Reread test) (hthen : BlockReread consequent) (helse : ElseReread alternate) :
    CondReread (.mk span test consequent alternate) := by
  intro c rest Q hrest hc hQ fuel
  simp only [Cond.words, List.cons_append, List.append_assoc] at hc
  cases fuel with
  | zero => exact rfl
  | succ fuel =>
      rw [conditional, ends_bind, ends_start, ends_bind, ends_advance, ends_bind]
      have hc' := hc.advance
      rw [Block.words_eq, List.cons_append] at hc'
      refine ht.test hc' (fun test' d htest hd => ?_) fuel
      rw [← List.cons_append, ← Block.words_eq] at hd
      rw [ends_bind]
      refine hthen.expected hd (fun then' d' hthen' hd' => ?_) fuel
      rw [ends_bind]
      -- Without an `else` of its own the statement must not be followed by one.
      cases alternate with
      | absent =>
          refine ends_acceptKeyword_not hd' hrest ?_
          refine hQ _ d' ?_ hd'
          rw [Cond.bare, Cond.bare, htest, hthen']
      | block b =>
          rw [Else.words, List.cons_append] at hd'
          refine ends_acceptKeyword_here hd' ?_
          have hif : (b.words ++ rest).head? ≠ some (.keyword .ifKey) := by simp [b.words_eq]
          simp only [if_true, ends_bind, ends_atKeyword, hd'.advance.atKeyword .ifKey,
            decide_eq_false hif, Bool.false_eq_true, if_false]
          refine BlockReread.expected helse hd'.advance (fun b' d₂ hb hd₂ => ?_) fuel
          refine hQ _ d₂ ?_ hd₂
          rw [Cond.bare, Cond.bare, htest, hthen', Else.bare, Else.bare, hb]
      | cond inner =>
          rw [Else.words, List.cons_append] at hd'
          refine ends_acceptKeyword_here hd' ?_
          have hif : (inner.words ++ rest).head? = some (.keyword .ifKey) := by
            cases inner
            rfl
          simp only [if_true, ends_bind, ends_atKeyword, hd'.advance.atKeyword .ifKey, hif,
            decide_true]
          refine helse hrest hd'.advance (fun inner' d₂ hinner hd₂ => ?_) fuel
          refine hQ _ d₂ ?_ hd₂
          rw [Cond.bare, Cond.bare, htest, hthen', Else.bare, Else.bare, hinner]

/-! ## Statements -/

theorem Cursor.Faces.kindAt_zero {w : Word} {ws : List Word} (h : c.Faces (w :: ws)) :
    c.kindAt 0 = some w.kind := h.kindAt 0

/-- What begins like an expression is an expression or an assignment. -/
theorem ends_statement_simple {w : Word} {ws : List Word} (hc : c.Faces (w :: ws))
    (hw : w.beginsExpr = true) {Q : Stmt Unit → Cursor → Prop}
    (hx : ∀ fuel, Ends (simpleStmt fuel) c Q OnlyFuel) (fuel : Nat) :
    Ends (statement fuel) c Q OnlyFuel := by
  cases fuel with
  | zero => exact rfl
  | succ fuel =>
      rw [statement, ends_bind, ends_get, hc.kindAt_zero]
      cases w with
      | keyword k => cases k <;> first | exact hx fuel | cases hw
      | symbol s => cases s <;> first | exact hx fuel | cases hw
      | _ => exact hx fuel

theorem stmtReread_bind {span : Span} {name : Ident} {mutable : Bool} {declared : Option TypeRef}
    {init : Expr} (h : Reread init) : StmtReread (.bind span name mutable declared init ()) := by
  intro c rest Q _ hc hQ fuel
  rw [Stmt.words, List.append_assoc, List.append_assoc] at hc
  have hkind : c.kindAt 0 = some (.keyword .letKey) := hc.kindAt 0
  cases fuel with
  | zero => exact rfl
  | succ fuel =>
      rw [statement, ends_bind, ends_get, hkind]
      simp only [ends_bind]
      refine ends_letParts_reread h hc (fun parts d hparts hd => hQ _ d ?_ hd) fuel
      rw [Stmt.bare, Stmt.bare, hparts.mutable, hparts.name, hparts.declared, hparts.init]

theorem stmtReread_loop {span : Span} {test : Expr} {body : Block Unit} (ht : Reread test)
    (hb : BlockReread body) : StmtReread (.loop span test body) := by
  intro c rest Q _ hc hQ fuel
  simp only [Stmt.words, List.cons_append, List.append_assoc] at hc
  have hkind : c.kindAt 0 = some (.keyword .whileKey) := hc.kindAt 0
  cases fuel with
  | zero => exact rfl
  | succ fuel =>
      rw [statement, ends_bind, ends_get, hkind]
      simp only [ends_bind, ends_start, ends_advance]
      have hc' := hc.advance
      rw [Block.words_eq, List.cons_append] at hc'
      refine ht.test hc' (fun test' d htest hd => ?_) fuel
      rw [← List.cons_append, ← Block.words_eq] at hd
      refine hb.expected hd (fun body' d' hbody hd' => hQ _ d' ?_ hd') fuel
      rw [Stmt.bare, Stmt.bare, htest, hbody]

theorem stmtReread_ret {span : Span} {value : Option Expr}
    (h : ∀ e, value = some e → e.wellFormed = true ∧ Reread e) : StmtReread (.ret span value) := by
  intro c rest Q _ hc hQ fuel
  have hkind : c.kindAt 0 = some (.keyword .returnKey) := by
    cases value <;> exact hc.kindAt 0
  cases fuel with
  | zero => exact rfl
  | succ fuel =>
      rw [statement, ends_bind, ends_get, hkind]
      cases value with
      | none => exact ends_returnStmt_none span hc hQ fuel
      | some e =>
          obtain ⟨hwf, he⟩ := h e rfl
          simp only [Stmt.words, List.cons_append, List.append_assoc, List.nil_append] at hc
          exact ends_returnStmt_some hwf he span hc hQ fuel

theorem stmtReread_cond {cond : Cond Unit} (h : CondReread cond) : StmtReread (.cond cond) := by
  intro c rest Q hrest hc hQ fuel
  rw [Stmt.words_cond] at hc
  have hkind : c.kindAt 0 = some (.keyword .ifKey) := by
    cases cond
    exact hc.kindAt 0
  cases fuel with
  | zero => exact rfl
  | succ fuel =>
      rw [statement, ends_bind, ends_get, hkind]
      simp only [ends_map]
      refine h hrest hc (fun cond' d hcond hd => hQ _ d ?_ hd) fuel
      rw [Stmt.bare_cond, Stmt.bare_cond, hcond]

theorem stmtReread_block {b : Block Unit} (h : BlockReread b) : StmtReread (.block b) := by
  intro c rest Q _ hc hQ fuel
  rw [Stmt.words_block] at hc
  have hkind : c.kindAt 0 = some (.symbol .lbrace) := by
    cases b
    exact hc.kindAt 0
  cases fuel with
  | zero => exact rfl
  | succ fuel =>
      rw [statement, ends_bind, ends_get, hkind]
      simp only [ends_map]
      refine h hc (fun b' d hb hd => hQ _ d ?_ hd) fuel
      rw [Stmt.bare_block, Stmt.bare_block, hb]

theorem stmtReread_assign {span : Span} {target : AssignTarget} {op : AssignOp} {value : Expr}
    (h : Reread value) : StmtReread (.assign span target op value) := by
  intro c rest Q _ hc hQ fuel
  simp only [Stmt.words, List.cons_append, List.append_assoc, List.nil_append] at hc
  refine ends_statement_simple hc ?_ (ends_simpleStmt_assign h span hc hQ) fuel
  cases target.root <;> rfl

theorem stmtReread_eval {span : Span} {e : Expr} (hwf : e.wellFormed = true) (h : Reread e) :
    StmtReread (.eval span e) := by
  intro c rest Q _ hc hQ fuel
  rw [Stmt.words, List.append_assoc] at hc
  obtain ⟨w, ws, hws, hexpr, -⟩ := e.words_begin hwf
  have hc' := hc
  rw [hws] at hc'
  exact ends_statement_simple hc' hexpr (ends_simpleStmt_eval h span hc hQ) fuel

mutual

/-- Every statement that can be written is read back from its words. -/
theorem Stmt.reread : ∀ st : Stmt Unit, st.wellFormed = true → StmtReread st
  | .block b, h => stmtReread_block (b.reread h)
  | .bind _ _ _ _ init _, h => stmtReread_bind (init.reread h)
  | .assign _ _ _ value, h => stmtReread_assign (value.reread h)
  | .cond c, h => stmtReread_cond (c.reread h)
  | .loop _ test body, h => by
      rw [Stmt.wellFormed, Bool.and_eq_true] at h
      exact stmtReread_loop (test.reread h.1) (body.reread h.2)
  | .ret _ none, _ => stmtReread_ret (by rintro _ ⟨⟩)
  | .ret _ (some e), h => stmtReread_ret (by
      rintro _ ⟨⟩
      exact ⟨h, e.reread h⟩)
  | .eval _ e, h => stmtReread_eval h (e.reread h)

theorem stmtsReread : ∀ sts : List (Stmt Unit), stmtsWellFormed sts = true →
    ∀ st ∈ sts, StmtReread st
  | [], _ => fun _ hst => absurd hst List.not_mem_nil
  | st :: sts, h => by
      rw [stmtsWellFormed, Bool.and_eq_true] at h
      exact List.forall_mem_cons.mpr ⟨st.reread h.1, stmtsReread sts h.2⟩

theorem Block.reread : ∀ b : Block Unit, b.wellFormed = true → BlockReread b
  | .mk _ body, h => blockReread h (stmtsReread body h)

theorem Cond.reread : ∀ c : Cond Unit, c.wellFormed = true → CondReread c
  | .mk _ test consequent alternate, h => by
      rw [Cond.wellFormed, Bool.and_eq_true, Bool.and_eq_true] at h
      exact condReread (test.reread h.1.1) (consequent.reread h.1.2) (alternate.reread h.2)

theorem Else.reread : ∀ e : Else Unit, e.wellFormed = true → ElseReread e
  | .absent, _ => trivial
  | .block b, h => b.reread h
  | .cond c, h => c.reread h

end

/-! ## Declarations -/

theorem paramWords_cons (p : Param) (ps : List Param) : ∃ ws,
    paramWords (p :: ps) = .name p.name.name :: .symbol .colon :: .name p.declared.name :: ws := by
  cases ps <;> exact ⟨_, rfl⟩

/-- The first of the parameters that are left. -/
theorem ends_parametersRest_first {p : Param} {Q : List Param → Cursor → Prop}
    (hc : c.Faces (p.words ++ rest))
    (hx : ∀ (p' : Param) d fuel, p'.bare = p.bare → d.Faces rest →
      Ends (do
        if ← accept .comma then
          let more ← parametersRest fuel
          return p' :: more
        else
          expectClose .rparen .parameters
          return [p']) d Q OnlyFuel)
    (fuel : Nat) : Ends (parametersRest fuel) c Q OnlyFuel := by
  cases fuel with
  | zero => exact rfl
  | succ fuel =>
      obtain ⟨t, ts, ht, hw⟩ := Cursor.Faces.token hc
      obtain ⟨hk, hlex⟩ := Token.kind_of_name hw
      have hcolon := Cursor.Faces.advance hc
      rw [parametersRest, ends_bind, ends_peek, ht, List.head?_cons]
      simp only [hk, if_true]
      rw [ends_bind, ends_advance, ends_bind]
      refine ends_accept_here hcolon ?_
      simp only [Bool.not_true, Bool.false_eq_true, if_false]
      rw [ends_bind]
      refine ends_typeRef_here (Cursor.Faces.advance hcolon) fun span => ?_
      refine hx _ _ fuel ?_ (Cursor.Faces.advance (Cursor.Faces.advance hcolon))
      simp [Param.bare, Ident.bare, TypeRef.bare, hlex]

theorem ends_parametersRest_reread (ps : List Param) :
    ∀ (p : Param) {c : Cursor} {rest : List Word} {Q : List Param → Cursor → Prop},
      c.Faces (paramWords (p :: ps) ++ .symbol .rparen :: rest) →
      (∀ ps' d, ps'.map Param.bare = (p :: ps).map Param.bare → d.Faces rest → Q ps' d) →
      ∀ fuel, Ends (parametersRest fuel) c Q OnlyFuel := by
  induction ps with
  | nil =>
      intro p c rest Q hc hQ fuel
      refine ends_parametersRest_first hc (fun p' d fuel hp hd => ?_) fuel
      rw [ends_bind]
      refine ends_accept_not hd (by simp) ?_
      simp only [Bool.false_eq_true, if_false, ends_bind]
      refine ends_expectClose_here hd ?_
      exact hQ _ _ (by rw [List.map_singleton, hp, List.map_singleton]) hd.advance
  | cons q qs ih =>
      intro p c rest Q hc hQ fuel
      rw [paramWords, List.append_assoc, List.cons_append] at hc
      refine ends_parametersRest_first hc (fun p' d fuel hp hd => ?_) fuel
      rw [ends_bind]
      refine ends_accept_here hd ?_
      simp only [if_true, ends_bind]
      refine ih q hd.advance (fun ps' d' hps hd' => hQ _ d' ?_ hd') fuel
      rw [List.map_cons, hps, hp]
      rfl

theorem ends_parameters_reread {ps : List Param} {Q : List Param → Cursor → Prop}
    (hc : c.Faces (paramWords ps ++ .symbol .rparen :: rest))
    (hQ : ∀ ps' d, ps'.map Param.bare = ps.map Param.bare → d.Faces rest → Q ps' d) (fuel : Nat) :
    Ends (parameters fuel) c Q OnlyFuel := by
  rw [parameters, ends_bind]
  cases ps with
  | nil => exact ends_accept_here hc (hQ [] c.advance rfl (Cursor.Faces.advance hc))
  | cons p ps =>
      have hne : (paramWords (p :: ps) ++ .symbol .rparen :: rest).head? ≠
          some (.symbol .rparen) := by
        obtain ⟨ws, hws⟩ := paramWords_cons p ps
        simp [hws]
      refine ends_accept_not hc hne ?_
      exact ends_parametersRest_reread ps p hc hQ fuel

theorem ends_returnType_reread {result : Option TypeRef} {Q : Option TypeRef → Cursor → Prop}
    (hc : c.Faces (resultWords result ++ .symbol .lbrace :: rest))
    (hQ : ∀ result' d, result'.map TypeRef.bare = result.map TypeRef.bare →
      d.Faces (.symbol .lbrace :: rest) → Q result' d) : Ends returnType c Q OnlyFuel := by
  rw [returnType, ends_bind]
  cases result with
  | none =>
      refine ends_accept_not hc (by simp [resultWords]) ?_
      exact hQ none c rfl hc
  | some type =>
      refine ends_accept_here hc ?_
      obtain ⟨t, ts, ht, hw⟩ := Cursor.Faces.token (Cursor.Faces.advance hc)
      obtain ⟨hk, hlex⟩ := Token.kind_of_name hw
      simp only [if_true, ends_bind, ends_peek, ht, List.head?_cons, hk, ends_advance, ends_pure]
      refine hQ _ _ ?_ (Cursor.Faces.advance (Cursor.Faces.advance hc))
      simp [TypeRef.bare, hlex]

theorem ends_exportMark_reread {mark : ExportMark}
    (hwf : (mark.hint.all fun h => exprsWellFormed h.args) = true)
    {Q : ExportMark → Cursor → Prop} (hrest : rest.head? ≠ some (.symbol .lparen))
    (hc : c.Faces (mark.words ++ rest))
    (hQ : ∀ mark' d, mark'.bare = mark.bare → d.Faces rest → Q mark' d) (fuel : Nat) :
    Ends (exportMark fuel) c Q OnlyFuel := by
  obtain ⟨span, hint⟩ := mark
  rw [exportMark]
  simp only [ExportMark.words, List.cons_append] at hc
  simp only [ends_bind, ends_start, ends_advance]
  refine ends_expectName_here hc.advance fun nameSpan => ?_
  simp only [ne_eq, not_true_eq_false, if_false]
  rw [ends_bind]
  cases hint with
  | none =>
      refine ends_accept_not hc.advance.advance hrest ?_
      exact hQ _ _ rfl hc.advance.advance
  | some hint =>
      simp only [List.cons_append, List.append_assoc, List.nil_append] at hc
      refine ends_accept_here hc.advance.advance ?_
      simp only [if_true, ends_bind]
      refine ends_expectName_here hc.advance.advance.advance fun hintSpan => ?_
      refine ends_expectMark_here hc.advance.advance.advance.advance ?_
      refine Reread.arguments hwf (exprsReread hint.args hwf)
        hc.advance.advance.advance.advance.advance (fun args' d hargs hd => ?_) fuel
      refine ends_expectClose_here hd ?_
      rw [ends_spanFrom]
      refine ends_expectClose_here hd.advance ?_
      refine hQ _ _ ?_ hd.advance.advance
      simp [ExportMark.bare, Ident.bare, hargs]

/-- Whatever goes well for the parts of a variable declaration goes well for a global. -/
theorem ends_globalDecl_reread {g : GlobalDecl} {exported : Option ExportMark}
    (hmark : exported.map ExportMark.bare = g.exported.map ExportMark.bare)
    (h : Reread g.init) {Q : GlobalDecl → Cursor → Prop}
    (hc : c.Faces (letHead g.mutable g.name g.declared ++
      (g.init.words ++ .symbol .semicolon :: rest)))
    (hQ : ∀ g' d, Declaration.bare (.global g') = Declaration.bare (.global g) → d.Faces rest →
      Q g' d) (fuel : Nat) : Ends (globalDecl fuel exported) c Q OnlyFuel := by
  rw [globalDecl, ends_bind]
  refine ends_letParts_reread h hc (fun parts d hparts hd => hQ _ d ?_ hd) fuel
  rw [Declaration.bare, Declaration.bare, hparts.mutable, hparts.name, hparts.declared,
    hparts.init, hmark]

theorem ends_functionDecl_reread {f : FunctionDecl Unit} (h : BlockReread f.body)
    {Q : FunctionDecl Unit → Cursor → Prop} (hc : c.Faces ((Declaration.function f).words ++ rest))
    (hQ : ∀ f' d, Declaration.bare (.function f') = Declaration.bare (.function f) →
      d.Faces rest → Q f' d) (fuel : Nat) : Ends (functionDecl fuel) c Q OnlyFuel := by
  simp only [Declaration.words, List.cons_append, List.append_assoc] at hc
  rw [functionDecl, ends_bind, ends_start, ends_bind, ends_advance, ends_bind]
  refine ends_expectName_here hc.advance fun nameSpan => ?_
  rw [ends_bind]
  refine ends_accept_here hc.advance.advance ?_
  simp only [Bool.not_true, Bool.false_eq_true, if_false, ends_bind]
  refine ends_parameters_reread hc.advance.advance.advance (fun ps d hps hd => ?_) fuel
  rw [Block.words_eq, List.cons_append] at hd
  refine ends_returnType_reread hd (fun result d' hresult hd' => ?_)
  rw [ends_atSymbol, hd'.atSymbol .lbrace]
  simp only [List.head?_cons, decide_true, Bool.not_true, Bool.false_eq_true, if_false, ends_bind]
  rw [← List.cons_append, ← Block.words_eq] at hd'
  refine h hd' (fun body d₂ hbody hd₂ => hQ _ d₂ ?_ hd₂) fuel
  rw [Declaration.bare, Declaration.bare, hps, hresult, hbody]
  rfl

theorem ends_signalDecl_reread {s : SignalDecl} {Q : SignalDecl → Cursor → Prop}
    (hc : c.Faces ((Declaration.signal s).words ++ rest))
    (hQ : ∀ s' d, Declaration.bare (.signal s') = Declaration.bare (.signal s) → d.Faces rest →
      Q s' d) (fuel : Nat) : Ends (signalDecl fuel) c Q OnlyFuel := by
  simp only [Declaration.words, List.cons_append, List.append_assoc, List.nil_append] at hc
  rw [signalDecl, ends_bind, ends_start, ends_bind, ends_advance, ends_bind]
  refine ends_expectName_here hc.advance fun nameSpan => ?_
  simp only [ends_bind]
  refine ends_expectMark_here hc.advance.advance ?_
  refine ends_parameters_reread hc.advance.advance.advance (fun ps d hps hd => ?_) fuel
  refine ends_expectSemicolon_here hd ?_
  refine hQ _ d.advance ?_ hd.advance
  rw [Declaration.bare, Declaration.bare, hps]
  rfl

theorem letHead_head? (mutable : Bool) (name : Ident) (declared : Option TypeRef)
    (ws : List Word) : (letHead mutable name declared ++ ws).head? = some (.keyword .letKey) := rfl

/-- A declaration that can be written is read back from its words. -/
theorem ends_declaration_reread {decl : Declaration Unit} (hwf : decl.wellFormed = true)
    {Q : Option (Declaration Unit) → Cursor → Prop} (hc : c.Faces (decl.words ++ rest))
    (hQ : ∀ decl' d, decl'.bare = decl.bare → d.Faces rest → Q (some decl') d) (fuel : Nat) :
    Ends (declaration fuel) c Q OnlyFuel := by
  -- The first word decides which kind of declaration is read.
  have first : ∀ {k : TokenKind} {w : Word} {ws : List Word}, c.Faces (w :: ws) → w.kind = k →
      (c.tokens.head?).map Token.kind = some k := by
    intro k w ws h hk
    obtain ⟨t, ts, ht, rfl⟩ := h.token
    rw [ht, List.head?_cons, Option.map_some, ← hk, Token.word_kind]
  rw [declaration, ends_bind, ends_peek]
  cases decl with
  | global g =>
      rw [Declaration.wellFormed, Bool.and_eq_true] at hwf
      simp only [Declaration.words, List.append_assoc] at hc
      cases hg : g.exported with
      | none =>
          simp only [hg, Option.elim_none, List.nil_append] at hc
          rw [first (k := .keyword .letKey) hc rfl]
          simp only [ends_map]
          refine ends_globalDecl_reread (by rw [hg]) (g.init.reread hwf.1) hc ?_ fuel
          exact fun g' d hg' hd => hQ _ d hg' hd
      | some mark =>
          simp only [hg, Option.elim_some] at hc
          rw [first (k := .symbol .atSign) hc rfl]
          simp only [ends_bind]
          have hlet : ∀ ws, (letHead g.mutable g.name g.declared ++ ws).head? ≠
              some (.symbol .lparen) := fun ws => by rw [letHead_head?]; simp
          refine ends_exportMark_reread (by simpa [hg] using hwf.2) (hlet _) hc ?_ fuel
          intro mark' d hmark hd
          rw [ends_atKeyword, hd.atKeyword .letKey, letHead_head?]
          simp only [decide_true, if_true, ends_map]
          refine ends_globalDecl_reread (by rw [hg, Option.map_some, hmark, Option.map_some])
            (g.init.reread hwf.1) hd ?_ fuel
          exact fun g' d' hg' hd' => hQ _ d' hg' hd'
  | function f =>
      rw [first (k := .keyword .fnKey) hc rfl]
      simp only [ends_map]
      refine ends_functionDecl_reread (f.body.reread hwf) hc ?_ fuel
      exact fun f' d hf hd => hQ _ d hf hd
  | signal s =>
      rw [first (k := .keyword .signalKey) hc rfl]
      simp only [ends_map]
      refine ends_signalDecl_reread hc ?_ fuel
      exact fun s' d hs hd => hQ _ d hs hd

theorem Declaration.words_ne_nil (decl : Declaration Unit) : decl.words ≠ [] := by
  cases decl with
  | global g => simp [Declaration.words, letHead]
  | function f => simp [Declaration.words]
  | signal s => simp [Declaration.words]

/-- Declarations that can be written are read back from their words. -/
theorem ends_declarations_reread {decls : List (Declaration Unit)}
    (hwf : ∀ decl ∈ decls, decl.wellFormed = true) :
    ∀ {c : Cursor} (fuel : Nat), c.Faces (decls.flatMap Declaration.words) →
      Ends (declarations fuel) c (fun found d =>
        found.map Declaration.bare = decls.map Declaration.bare ∧ d.errors = []) OnlyFuel := by
  induction decls with
  | nil =>
      intro c fuel hc
      cases fuel with
      | zero => exact rfl
      | succ fuel =>
          have hnone : c.tokens = [] := List.map_eq_nil_iff.mp hc.words
          rw [declarations, ends_bind, ends_get, hnone]
          exact And.intro rfl hc.errors
  | cons decl decls ih =>
      intro c fuel hc
      rw [List.flatMap_cons] at hc
      have hrest : ∀ x ∈ decls, x.wellFormed = true := fun x hx =>
        hwf x (List.mem_cons_of_mem decl hx)
      cases fuel with
      | zero => exact rfl
      | succ fuel =>
          have hsome : c.tokens.isEmpty = false := by
            cases ht : c.tokens with
            | cons t ts => rfl
            | nil =>
                have hwords := hc.words
                rw [Cursor.words, ht] at hwords
                exact absurd (List.append_eq_nil_iff.mp hwords.symm).1 decl.words_ne_nil
          rw [declarations, ends_bind, ends_get]
          simp only [hsome, Bool.false_eq_true, if_false, ends_bind]
          refine ends_recover.mpr (Ends.mono (ends_declaration_reread (hwf decl List.mem_cons_self)
            hc (Q := fun found d => ∃ decl', found = some decl' ∧ decl'.bare = decl.bare ∧
              d.Faces (decls.flatMap Declaration.words)) ?_ fuel) ?_ ?_)
          · exact fun decl' d hdecl hd => ⟨decl', rfl, hdecl, hd⟩
          · rintro _ d ⟨decl', rfl, hdecl, hd⟩
            refine Ends.mono (ih hrest fuel hd) ?_ fun _ _ he => he
            rintro more d' ⟨hmore, herr⟩
            refine And.intro ?_ herr
            simp [hdecl, hmore]
          -- Nothing gives up on the way, so nothing is skipped.
          · rintro stop d rfl
            exact ⟨Stop.noConfusion, fun _ => rfl⟩

/-- Parsing undoes rendering. A script that can be written is read back from its words, without
    a report and up to places in the text. -/
theorem parseTokens_words (p : Program Unit) (hp : p.wellFormed = true) (tokens : List Token)
    (finish : Position) (h : tokens.map Token.word = p.words) :
    (parseTokens tokens finish).diagnostics = [] ∧
      (parseTokens tokens finish).program.bare = p.bare := by
  -- Rereading allows for missing fuel, and the parser is given enough of it.
  have hends := Ends.and
    (ends_declarations (parserFuel tokens.length) (c := ⟨tokens, .origin, finish, []⟩)
      (by simp only [Cursor.left, parserFuel]; omega))
    (ends_declarations_reread (c := ⟨tokens, .origin, finish, []⟩) (List.all_eq_true.mp hp)
      (parserFuel tokens.length) ⟨h, rfl⟩)
  cases hrun : declarations (parserFuel tokens.length) ⟨tokens, .origin, finish, []⟩ with
  | error stop d => exact ((ends_of_error hrun).mp hends).1.elim
  | ok body d =>
      obtain ⟨-, hbody, herr⟩ := (ends_of_ok hrun).mp hends
      simp only [parseTokens, hrun]
      refine ⟨herr, ?_⟩
      rw [Program.bare, Program.bare, hbody]

/-- `let v = (1 + 2) * -2147483648;` with places left out. -/
def product : Program Unit :=
  ⟨.origin, [.global ⟨.origin, ⟨"v", .origin⟩, false, none,
    .binary .origin .mul
      (.binary .origin .add (.int .origin 1 "1") (.int .origin 2 "2"))
      (.int .origin (-2147483648) "-2147483648"), none⟩]⟩

theorem parseTokens_words_product :
    product.wellFormed = true ∧
      (tokenize "let v = (1 + 2) * -2147483648;" false).tokens.map Token.word = product.words ∧
      (parseTokens (tokenize "let v = (1 + 2) * -2147483648;" false).tokens .origin).program.bare =
        product.bare :=
  ⟨by decide +kernel, by decide +kernel,
    (parseTokens_words product (by decide +kernel) _ .origin (by decide +kernel)).2⟩

end SceneScript
