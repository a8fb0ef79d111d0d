import SceneScript.Proofs.Syntax.Parts
import SceneScript.Proofs.Typing.Edited
import SceneScript.Proofs.Typing.Sound

/-!
# Variables that are not read

Every use of a variable in an expression leaves a note, and so does every assignment that begins
with it. Where the first kind of note is missing the variable is in no expression, so it may begin
with something else of its type and all that is checked stays as it is, but for this one
initializer.

* **`typeOf_reads`** — a name in an expression leaves a note.
* **`LetEdit.reinit`** — the change that gives a variable another initializer.
* **`Stmt.Spares`** — code that does not read a variable, and could begin it with `e` as well.
* **`Finding.Spares`** — what may be found in such code; **`checkStmt_reinit`**,
  **`checkBody_reinit`** — then the code is such, and is checked alike with either initializer.
* **`checkProgram_reinit`** — so are whole scripts.
-/

namespace SceneScript

variable {α β : Type}

/-! ## What is read leaves a note -/

namespace Check

variable {x : Check α} {f : α → Check β} {finding : Finding}

theorem mem_bind_first (h : finding ∈ x.findings) : finding ∈ (x >>= f).findings :=
  List.mem_append_left _ h

theorem mem_bind_next (h : finding ∈ (f x.value).findings) : finding ∈ (x >>= f).findings :=
  List.mem_append_right _ h

end Check

open Check (mem_bind_first mem_bind_next)

variable {s : Surroundings} {id : Ident} {v : Variable}

mutual

/-- Every name in an expression notes that its variable is read. -/
theorem typeOf_reads (hv : s.scope.find? id.name = some v) : ∀ e : Expr, .ident id ∈ e.parts →
    Finding.read v.id ∈ (typeOf s e).findings
  | .int _ _ _, h => by simp [Expr.parts] at h
  | .float _ _ _, h => by simp [Expr.parts] at h
  | .bool _ _, h => by simp [Expr.parts] at h
  | .string _ _, h => by simp [Expr.parts] at h
  | .self _, h => by simp [Expr.parts] at h
  | .ident other, h => by
      cases List.mem_singleton.mp h
      rw [typeOf, lookupVariable, hv]
      exact List.mem_cons_self
  | .field _ object _, h => by
      rw [typeOf]
      exact mem_bind_first (typeOf_reads hv object ((List.mem_cons.mp h).resolve_left nofun))
  | .unary _ _ arg, h => by
      rw [typeOf]
      exact mem_bind_first (typeOf_reads hv arg ((List.mem_cons.mp h).resolve_left nofun))
  | .binary _ _ left right, h => by
      rw [typeOf]
      rcases List.mem_append.mp ((List.mem_cons.mp h).resolve_left nofun) with h | h
      · exact mem_bind_first (typeOf_reads hv left h)
      · exact mem_bind_next (mem_bind_first (typeOf_reads hv right h))
  | .struct _ _ fields, h => by
      rw [typeOf]
      exact mem_bind_first (fieldTypes_reads hv fields ((List.mem_cons.mp h).resolve_left nofun))
  | .call span callee args, h => by
      have h := (List.mem_cons.mp h).resolve_left nofun
      rw [typeOf]
      cases Builtin.ofText? callee.name with
      | none =>
          cases s.function? callee.name with
          | none => exact mem_bind_first (typesOf_reads hv args h)
          | some f => exact mem_bind_next (mem_bind_first (typesOf_reads hv args h))
      | some b =>
          cases b with
          | print => exact mem_bind_first (printTypes_reads hv args h)
          | emitSignal =>
              cases args with
              | nil => cases h
              | cons first rest =>
                  rcases List.mem_append.mp h with h | h
                  · have hfirst := typeOf_reads hv first h
                    cases first with
                    | string nameSpan name => simp [Expr.parts] at h
                    | _ => exact mem_bind_next (mem_bind_first hfirst)
                  · exact mem_bind_first (typesOf_reads hv rest h)
          | _ => exact mem_bind_first (typesOf_reads hv args h)

theorem typesOf_reads (hv : s.scope.find? id.name = some v) : ∀ es : List Expr,
    .ident id ∈ exprsParts es → Finding.read v.id ∈ (typesOf s es).findings
  | [], h => by cases h
  | e :: es, h => by
      rw [typesOf]
      rcases List.mem_append.mp h with h | h
      · exact mem_bind_first (typeOf_reads hv e h)
      · exact mem_bind_next (mem_bind_first (typesOf_reads hv es h))

theorem fieldTypes_reads (hv : s.scope.find? id.name = some v) : ∀ fields : List (Ident × Expr),
    .ident id ∈ fieldsParts fields → Finding.read v.id ∈ (fieldTypes s fields).findings
  | [], h => by cases h
  | (_, e) :: rest, h => by
      rw [fieldTypes]
      rcases List.mem_append.mp h with h | h
      · exact mem_bind_first (typeOf_reads hv e h)
      · exact mem_bind_next (mem_bind_first (fieldTypes_reads hv rest h))

theorem printTypes_reads (hv : s.scope.find? id.name = some v) : ∀ es : List Expr,
    .ident id ∈ exprsParts es → Finding.read v.id ∈ (printTypes s es).findings
  | [], h => by cases h
  | e :: es, h => by
      rw [printTypes]
      rcases List.mem_append.mp h with h | h
      · exact mem_bind_first (typeOf_reads hv e h)
      · exact mem_bind_next (mem_bind_next (printTypes_reads hv es h))

end

/-! ## Another initializer -/

/-- A variable gets another initializer. -/
def LetEdit.reinit (x : Ident) (e : Expr) : LetEdit β β :=
  ⟨fun _ m => m, fun id init => if id = x then e else init, fun b => b⟩

/-- A literal, a name or `self`: an expression that does nothing but have a value. -/
def Expr.IsAtom : Expr → Prop
  | .int _ _ _ | .float _ _ _ | .bool _ _ | .string _ _ | .self _ | .ident _ => True
  | _ => False

/-- None of the expressions reads the variable `x`. -/
def Surroundings.Unread (s : Surroundings) (x : Ident) (parts : List Expr) : Prop :=
  ∀ id, .ident id ∈ parts → ∀ v, s.scope.find? id.name = some v → v.id ≠ x

/-- The scope after a statement. -/
def Stmt.scopeAfter (scope : Scope) : Stmt Ty → Scope
  | .bind _ name mutable _ _ type => (scope.define? ⟨name, .local, type, mutable⟩).getD scope
  | _ => scope

/-- A target that begins with the variable `x` is no part of a node. -/
def AssignTarget.Spares (x : Ident) (s : Surroundings) (target : AssignTarget) : Prop :=
  ∀ id, target.root = .name id → ∀ v, s.scope.find? id.name = some v → v.id = x → v.type ≠ .node

mutual

/-- A statement does not read the variable `x`, which begins with an atom and might begin with `e`
    as well. -/
def Stmt.Spares (x : Ident) (e : Expr) (s : Surroundings) : Stmt Ty → Prop
  | .block b                    => b.Spares x e s
  | .bind _ name _ _ init type  => s.Unread x init.parts ∧
      (name = x → init.IsAtom ∧ ∃ t, HasType s e t ∧ t.Fits type)
  | .assign _ target _ value    => target.Spares x s ∧ s.Unread x value.parts
  | .cond k                     => k.Spares x e s
  | .loop _ test body           => s.Unread x test.parts ∧ body.Spares x e s
  | .ret _ value                => ∀ result, value = some result → s.Unread x result.parts
  | .eval _ ignored             => s.Unread x ignored.parts

/-- A block does not read the variable. -/
def Block.Spares (x : Ident) (e : Expr) (s : Surroundings) : Block Ty → Prop
  | .mk _ body => stmtsSpare x e { s with scope := [] :: s.scope } body

/-- A conditional does not read the variable. -/
def Cond.Spares (x : Ident) (e : Expr) (s : Surroundings) : Cond Ty → Prop
  | .mk _ test consequent alternate =>
      s.Unread x test.parts ∧ consequent.Spares x e s ∧ alternate.Spares x e s

/-- What follows a consequent does not read the variable. -/
def Else.Spares (x : Ident) (e : Expr) (s : Surroundings) : Else Ty → Prop
  | .absent  => True
  | .block b => b.Spares x e s
  | .cond k  => k.Spares x e s

/-- Statements do not read the variable. -/
def stmtsSpare (x : Ident) (e : Expr) (s : Surroundings) : List (Stmt Ty) → Prop
  | []         => True
  | st :: rest => st.Spares x e s ∧ stmtsSpare x e { s with scope := st.scopeAfter s.scope } rest

end

theorem StmtOk.scopeAfter {r : Ty} {st : Stmt Ty} {scope : Scope} (h : StmtOk r s st scope) :
    st.scopeAfter s.scope = scope := by
  cases h with
  | bind _ _ _ _ _ _ _ _ _ _ _ _ hdef => rw [Stmt.scopeAfter, hdef, Option.getD_some]
  | _ => rfl

/-! ## What checking finds -/

/-- Nothing is wrong, the variable `x` has type `t` and is not read, and it is not written if it is
    a node. -/
def Finding.Spares (x : Ident) (t : Ty) : Finding → Prop
  | .problem _ _ => False
  | .declared v  => v.id = x → v.type = t
  | .read id     => id ≠ x
  | .written id  => t = .node → id ≠ x
  | .bound _     => True

/-- Nothing is wrong, and the variable `x` has type `t`. -/
def Finding.Types (x : Ident) (t : Ty) : Finding → Prop
  | .problem _ _ => False
  | .declared v  => v.id = x → v.type = t
  | _            => True

/-- Everything that is found has a property. -/
def Check.Finds (P : Finding → Prop) (c : Check α) : Prop := ∀ f ∈ c.findings, P f

/-- The variable `x` has type `t` where it is visible. -/
def Scope.Types (x : Ident) (t : Ty) (scope : Scope) : Prop :=
  ∀ name v, scope.find? name = some v → v.id = x → v.type = t

namespace Check.Finds

variable {P : Finding → Prop}

theorem bind {c : Check α} {f : α → Check β} :
    (c >>= f).Finds P ↔ c.Finds P ∧ (f c.value).Finds P :=
  List.forall_mem_append

theorem clean (hP : ∀ q span, ¬ P (.problem q span)) {c : Check α} (h : c.Finds P) : c.Clean :=
  fun q span hmem => hP q span (h _ hmem)

theorem declare (hP : ∀ q span, ¬ P (.problem q span)) {scope : Scope} {v : Variable}
    {duplicate : Problem} (h : (declare scope v duplicate).Finds P) : P (.declared v) := by
  rw [SceneScript.declare] at h
  cases hdef : scope.define? v with
  | none =>
      rw [hdef] at h
      exact (hP _ _ (h _ List.mem_cons_self)).elim
  | some extended =>
      rw [hdef] at h
      exact h _ List.mem_cons_self

end Check.Finds

variable {x : Ident} {t : Ty} {a b : Expr}

theorem Finding.not_spares (q : Problem) (span : Span) :
    ¬ Finding.Spares x t (.problem q span) := id

theorem Finding.not_types (q : Problem) (span : Span) : ¬ Finding.Types x t (.problem q span) := id

theorem Scope.Types.define {scope scope' : Scope} (h : scope.Types x t) {v : Variable}
    (hv : v.id = x → v.type = t) (hdef : scope.define? v = some scope') : scope'.Types x t := by
  intro name u hu
  rw [Scope.find?_define? hdef] at hu
  split at hu
  · cases hu
    exact hv
  · exact h name u hu

theorem unread_of_typeOf {e : Expr} (h : (typeOf s e).Finds (Finding.Spares x t)) :
    s.Unread x e.parts :=
  fun _ hid _ hv => h _ (typeOf_reads hv e hid)

/-! ## Statements with either initializer -/

theorem checkAssign_spares {span : Span} {target : AssignTarget} {op : AssignOp} {value : Expr}
    (hx : s.scope.Types x t)
    (h : (checkAssign s span target op value).Finds (Finding.Spares x t)) :
    target.Spares x s ∧ s.Unread x value.parts := by
  unfold checkAssign at h
  cases hroot : target.root with
  | self selfSpan =>
      simp only [hroot] at h
      have hvalue : (typeOf s value).Finds (Finding.Spares x t) := by
        split at h
        · exact (Check.Finds.bind.mp (Check.Finds.bind.mp h).2).1
        · exact (Check.Finds.bind.mp (Check.Finds.bind.mp h).2).1
      refine ⟨fun id hid => ?_, unread_of_typeOf hvalue⟩
      rw [hroot] at hid
      cases hid
  | name id =>
      simp only [hroot] at h
      obtain ⟨hlook, hrest⟩ := Check.Finds.bind.mp h
      obtain ⟨v, hv, hval⟩ := lookupVariable_clean (hlook.clean Finding.not_spares)
      rw [hval] at hrest
      obtain ⟨hwritten, hrest⟩ := Check.Finds.bind.mp hrest
      obtain ⟨-, hrest⟩ := Check.Finds.bind.mp hrest
      obtain ⟨-, hrest⟩ := Check.Finds.bind.mp hrest
      refine ⟨fun other hother u hu hux hnode => ?_,
        unread_of_typeOf (Check.Finds.bind.mp hrest).1⟩
      rw [hroot] at hother
      cases hother
      cases hv.symm.trans hu
      -- The assignment has left its note, which a node may not have.
      exact hwritten _ List.mem_cons_self ((hx _ _ hv hux).symm.trans hnode) hux

theorem checkBind_reinit (hs : Known s) (hx : s.scope.Types x t) {owner : Signature}
    (ha : a.IsAtom) (span : Span) (name : Ident) (mutable : Bool) (declared : Option TypeRef)
    (init : Expr)
    (h : (checkStmt s owner (.bind span name mutable declared (if name = x then a else init)
      ())).Finds (Finding.Spares x t))
    (h' : (checkStmt s owner (.bind span name mutable declared (if name = x then b else init)
      ())).Finds (Finding.Types x t)) :
    let p := (checkStmt s owner (.bind span name mutable declared (if name = x then a else init)
      ())).value
    (checkStmt s owner (.bind span name mutable declared (if name = x then b else init)
      ())).value = (p.1.edit (.reinit x b), p.2) ∧ p.1.Spares x b s ∧ p.2.Types x t := by
  rw [checkStmt] at h h' ⊢
  obtain ⟨htype, hrest⟩ := Check.Finds.bind.mp h
  obtain ⟨htype', hrest'⟩ := Check.Finds.bind.mp h'
  obtain ⟨hdeclare, -⟩ := Check.Finds.bind.mp (Check.Finds.bind.mp hrest).2
  obtain ⟨hdeclare', -⟩ := Check.Finds.bind.mp (Check.Finds.bind.mp hrest').2
  have hdeclared := hdeclare.declare Finding.not_spares
  have hscope := hx.define hdeclared (declare_clean (hdeclare.clean Finding.not_spares))
  rw [checkStmt]
  simp only [Check.value_bind, Check.value_pure]
  by_cases hname : name = x
  · subst hname
    simp only [if_true] at htype htype' hdeclare hdeclare' hdeclared hscope ⊢
    have hsame := (hdeclare'.declare Finding.not_types rfl).trans (hdeclared rfl).symm
    simp only at hsame
    obtain ⟨u, hb, hfit, -⟩ := bindingType_clean hs (htype'.clean Finding.not_types)
    rw [hsame] at hfit ⊢
    refine ⟨?_, ⟨unread_of_typeOf (Check.Finds.bind.mp htype).1, fun _ => ⟨ha, u, hb, hfit⟩⟩,
      hscope⟩
    rw [Stmt.edit, LetEdit.reinit]
    simp only [if_true]
  · simp only [if_neg hname] at htype hscope ⊢
    refine ⟨?_, ⟨unread_of_typeOf (Check.Finds.bind.mp htype).1, fun h => absurd h hname⟩,
      hscope⟩
    rw [Stmt.edit, LetEdit.reinit]
    simp only [if_neg hname]

mutual

/-- Where the code with `a` neither reads `x` nor writes it as a node, the code with `b` is checked
    with the same result. -/
theorem checkStmt_reinit {s : Surroundings} (hs : Known s) (hx : s.scope.Types x t)
    {owner : Signature} (ho : owner.returns ≠ .unknown) (ha : a.IsAtom) : ∀ st : Stmt Unit,
    (checkStmt s owner (st.edit (.reinit x a))).Finds (Finding.Spares x t) →
    (checkStmt s owner (st.edit (.reinit x b))).Finds (Finding.Types x t) →
    let p := (checkStmt s owner (st.edit (.reinit x a))).value
    (checkStmt s owner (st.edit (.reinit x b))).value = (p.1.edit (.reinit x b), p.2) ∧
      p.1.Spares x b s ∧ p.2.Types x t
  | .block block, h, h' => by
      rw [Stmt.edit, checkStmt] at h h' ⊢
      obtain ⟨hsame, hspares⟩ := checkBlock_reinit hs hx ho ha block (Check.Finds.bind.mp h).1
        (Check.Finds.bind.mp h').1
      refine ⟨?_, hspares, hx⟩
      rw [Stmt.edit, checkStmt]
      simp only [Check.value_bind, Check.value_pure, hsame]
      rfl
  | .bind span name mutable declared init _, h, h' =>
      checkBind_reinit hs hx ha span name mutable declared init h h'
  | .assign span target op value, h, _ => by
      rw [Stmt.edit, checkStmt] at h
      exact ⟨rfl, checkAssign_spares hx (Check.Finds.bind.mp h).1, hx⟩
  | .cond k, h, h' => by
      rw [Stmt.edit, checkStmt] at h h' ⊢
      obtain ⟨hsame, hspares⟩ := checkCond_reinit hs hx ho ha k (Check.Finds.bind.mp h).1
        (Check.Finds.bind.mp h').1
      refine ⟨?_, hspares, hx⟩
      rw [Stmt.edit, checkStmt]
      simp only [Check.value_bind, Check.value_pure, hsame]
      rfl
  | .loop span test body, h, h' => by
      rw [Stmt.edit, checkStmt] at h h' ⊢
      obtain ⟨htest, hrest⟩ := Check.Finds.bind.mp h
      obtain ⟨-, hrest'⟩ := Check.Finds.bind.mp h'
      obtain ⟨hsame, hspares⟩ := checkBlock_reinit hs hx ho ha body (Check.Finds.bind.mp hrest).1
        (Check.Finds.bind.mp hrest').1
      refine ⟨?_, ⟨unread_of_typeOf (Check.Finds.bind.mp htest).1, hspares⟩, hx⟩
      rw [Stmt.edit, checkStmt]
      simp only [Check.value_bind, Check.value_pure, hsame]
      rfl
  | .ret span value, h, _ => by
      rw [Stmt.edit, checkStmt] at h
      refine ⟨rfl, fun result hresult => ?_, hx⟩
      subst hresult
      exact unread_of_typeOf (Check.Finds.bind.mp (Check.Finds.bind.mp h).1).1
  | .eval span e, h, _ => by
      rw [Stmt.edit, checkStmt] at h
      exact ⟨rfl, unread_of_typeOf (Check.Finds.bind.mp h).1, hx⟩

theorem checkBlock_reinit {s : Surroundings} (hs : Known s) (hx : s.scope.Types x t)
    {owner : Signature} (ho : owner.returns ≠ .unknown) (ha : a.IsAtom) : ∀ block : Block Unit,
    (checkBlock s owner (block.edit (.reinit x a))).Finds (Finding.Spares x t) →
    (checkBlock s owner (block.edit (.reinit x b))).Finds (Finding.Types x t) →
    (checkBlock s owner (block.edit (.reinit x b))).value =
        (checkBlock s owner (block.edit (.reinit x a))).value.edit (.reinit x b) ∧
      (checkBlock s owner (block.edit (.reinit x a))).value.Spares x b s
  | .mk span body, h, h' => by
      rw [Block.edit, checkBlock] at h h' ⊢
      obtain ⟨hsame, hspares⟩ := checkStmts_reinit hs.block hx ho ha body
        (Check.Finds.bind.mp h).1 (Check.Finds.bind.mp h').1
      refine ⟨?_, hspares⟩
      rw [Block.edit, checkBlock]
      simp only [Check.value_bind, Check.value_pure, hsame]
      rfl

theorem checkCond_reinit {s : Surroundings} (hs : Known s) (hx : s.scope.Types x t)
    {owner : Signature} (ho : owner.returns ≠ .unknown) (ha : a.IsAtom) : ∀ k : Cond Unit,
    (checkCond s owner (k.edit (.reinit x a))).Finds (Finding.Spares x t) →
    (checkCond s owner (k.edit (.reinit x b))).Finds (Finding.Types x t) →
    (checkCond s owner (k.edit (.reinit x b))).value =
        (checkCond s owner (k.edit (.reinit x a))).value.edit (.reinit x b) ∧
      (checkCond s owner (k.edit (.reinit x a))).value.Spares x b s
  | .mk span test consequent alternate, h, h' => by
      rw [Cond.edit, checkCond] at h h' ⊢
      obtain ⟨htest, hrest⟩ := Check.Finds.bind.mp h
      obtain ⟨-, hrest'⟩ := Check.Finds.bind.mp h'
      obtain ⟨hthen, hrest⟩ := Check.Finds.bind.mp hrest
      obtain ⟨hthen', hrest'⟩ := Check.Finds.bind.mp hrest'
      obtain ⟨hsame, hspares⟩ := checkBlock_reinit hs hx ho ha consequent hthen hthen'
      obtain ⟨hsame', hspares'⟩ := checkElse_reinit hs hx ho ha alternate
        (Check.Finds.bind.mp hrest).1 (Check.Finds.bind.mp hrest').1
      refine ⟨?_, unread_of_typeOf (Check.Finds.bind.mp htest).1, hspares, hspares'⟩
      rw [Cond.edit, checkCond]
      simp only [Check.value_bind, Check.value_pure, hsame, hsame']
      rfl

theorem checkElse_reinit {s : Surroundings} (hs : Known s) (hx : s.scope.Types x t)
    {owner : Signature} (ho : owner.returns ≠ .unknown) (ha : a.IsAtom) : ∀ k : Else Unit,
    (checkElse s owner (k.edit (.reinit x a))).Finds (Finding.Spares x t) →
    (checkElse s owner (k.edit (.reinit x b))).Finds (Finding.Types x t) →
    (checkElse s owner (k.edit (.reinit x b))).value =
        (checkElse s owner (k.edit (.reinit x a))).value.edit (.reinit x b) ∧
      (checkElse s owner (k.edit (.reinit x a))).value.Spares x b s
  | .absent, _, _ => ⟨rfl, trivial⟩
  | .block block, h, h' => by
      rw [Else.edit, checkElse] at h h' ⊢
      obtain ⟨hsame, hspares⟩ := checkBlock_reinit hs hx ho ha block (Check.Finds.bind.mp h).1
        (Check.Finds.bind.mp h').1
      refine ⟨?_, hspares⟩
      rw [Else.edit, checkElse]
      simp only [Check.value_bind, Check.value_pure, hsame]
      rfl
  | .cond k, h, h' => by
      rw [Else.edit, checkElse] at h h' ⊢
      obtain ⟨hsame, hspares⟩ := checkCond_reinit hs hx ho ha k (Check.Finds.bind.mp h).1
        (Check.Finds.bind.mp h').1
      refine ⟨?_, hspares⟩
      rw [Else.edit, checkElse]
      simp only [Check.value_bind, Check.value_pure, hsame]
      rfl

theorem checkStmts_reinit {s : Surroundings} (hs : Known s) (hx : s.scope.Types x t)
    {owner : Signature} (ho : owner.returns ≠ .unknown) (ha : a.IsAtom) :
    ∀ body : List (Stmt Unit),
    (checkStmts s owner (stmtsEdit (.reinit x a) body)).Finds (Finding.Spares x t) →
    (checkStmts s owner (stmtsEdit (.reinit x b) body)).Finds (Finding.Types x t) →
    (checkStmts s owner (stmtsEdit (.reinit x b) body)).value =
        stmtsEdit (.reinit x b) (checkStmts s owner (stmtsEdit (.reinit x a) body)).value ∧
      stmtsSpare x b s (checkStmts s owner (stmtsEdit (.reinit x a) body)).value
  | [], _, _ => ⟨rfl, trivial⟩
  | st :: rest, h, h' => by
      rw [stmtsEdit, checkStmts] at h h' ⊢
      obtain ⟨hst, hrest⟩ := Check.Finds.bind.mp h
      obtain ⟨hst', hrest'⟩ := Check.Finds.bind.mp h'
      have hok := checkStmt_clean hs ho _ (hst.clean Finding.not_spares)
      obtain ⟨hsame, hspares, hscope⟩ := checkStmt_reinit hs hx ho ha st hst hst'
      rw [hsame] at hrest'
      obtain ⟨hsame', hspares'⟩ := checkStmts_reinit (hok.known hs) hscope ho ha rest
        (Check.Finds.bind.mp hrest).1 (Check.Finds.bind.mp hrest').1
      refine ⟨?_, hspares, ?_⟩
      · rw [stmtsEdit, checkStmts]
        simp only [Check.value_bind, Check.value_pure, hsame, hsame']
        rfl
      · rw [hok.scopeAfter]
        exact hspares'

end

/-! ## Functions -/

theorem declareParams_types {owner : Signature} (params : List Param) :
    ∀ (scope : Scope) (types : List TypedName), scope.Types x t →
      (declareParams owner scope params types).Finds (Finding.Spares x t) →
      (declareParams owner scope params types).value.Types x t := by
  induction params with
  | nil => exact fun _ _ hx _ => hx
  | cons p ps ih =>
      intro scope types hx h
      rw [declareParams] at h ⊢
      obtain ⟨hdeclare, hrest⟩ := Check.Finds.bind.mp (Check.Finds.bind.mp h).2
      refine ih _ types.tail (hx.define (hdeclare.declare Finding.not_spares) ?_) hrest
      exact declare_clean (hdeclare.clean Finding.not_spares)

/-- The body of a function, in the frame of its parameters. -/
def FunctionInfo.Spares (x : Ident) (e : Expr) (s : Surroundings) (f : FunctionInfo) : Prop :=
  stmtsSpare x e
    { s with scope := paramVariables f.decl.params f.signature.params :: s.scope } f.decl.body.body

theorem checkBody_reinit (hs : Known s) (hx : s.scope.Types x t) (ha : a.IsAtom)
    {owner : Signature} {f : FunctionDecl Unit}
    (hwell : FunctionInfo.WellTyped s ⟨owner, (checkBody s owner (f.edit (.reinit x a))).value⟩)
    (h : (checkBody s owner (f.edit (.reinit x a))).Finds (Finding.Spares x t))
    (h' : (checkBody s owner (f.edit (.reinit x b))).Finds (Finding.Types x t)) :
    (checkBody s owner (f.edit (.reinit x b))).value =
        (checkBody s owner (f.edit (.reinit x a))).value.edit (.reinit x b) ∧
      FunctionInfo.Spares x b s ⟨owner, (checkBody s owner (f.edit (.reinit x a))).value⟩ := by
  have hbody : ∀ c : LetEdit Unit Unit, (f.edit c).body.body = stmtsEdit c f.body.body :=
    fun c => (f.body.body_edit c).trans (stmtsEdit_eq c _).symm
  have hparams : ∀ c : LetEdit Unit Unit, (f.edit c).params = f.params := fun _ => rfl
  have harity : f.params.length = owner.params.length := hwell.arity
  have hreturns : owner.returns ≠ .unknown := hwell.returns
  have hstorable : ∀ p ∈ owner.params, p.type.Storable := hwell.params
  rw [checkBody, hbody, hparams] at h h'
  obtain ⟨hdeclare, hrest⟩ := Check.Finds.bind.mp h
  obtain ⟨-, hrest'⟩ := Check.Finds.bind.mp h'
  have hscope := declareParams_types f.params ([] :: s.scope) owner.params hx hdeclare
  obtain ⟨hval, hknown, -, -⟩ := declareParams_clean hs.block harity hstorable
    (hdeclare.clean Finding.not_spares)
  rw [List.nil_append] at hval hknown
  rw [hval] at hrest hrest' hscope
  obtain ⟨hsame, hspares⟩ := checkStmts_reinit hknown hscope hreturns ha f.body.body
    (Check.Finds.bind.mp hrest).1 (Check.Finds.bind.mp hrest').1
  have hvalue : ∀ c : LetEdit Unit Unit, (checkBody s owner (f.edit c)).value =
      ⟨f.span, f.name, f.params, f.returns, .mk f.body.span (checkStmts
        { s with scope := paramVariables f.params owner.params :: s.scope } owner
        (stmtsEdit c f.body.body)).value⟩ := by
    intro c
    rw [checkBody, hbody, hparams]
    simp only [Check.value_bind, Check.value_pure, hval]
    rw [FunctionDecl.edit, Block.span_edit]
  rw [FunctionInfo.Spares, hvalue, hvalue, hsame]
  exact ⟨rfl, hspares⟩

theorem checkBodies_reinit (hs : Known s) (hx : s.scope.Types x t) (ha : a.IsAtom)
    (collected : List (FunctionDecl Unit × Option Signature)) :
    (∀ f ∈ (checkBodies s (collected.map fun e => (e.1.edit (.reinit x a), e.2))).value,
      f.WellTyped s) →
    (checkBodies s (collected.map fun e => (e.1.edit (.reinit x a), e.2))).Finds
      (Finding.Spares x t) →
    (checkBodies s (collected.map fun e => (e.1.edit (.reinit x b), e.2))).Finds
      (Finding.Types x t) →
    (checkBodies s (collected.map fun e => (e.1.edit (.reinit x b), e.2))).value =
        (checkBodies s (collected.map fun e => (e.1.edit (.reinit x a), e.2))).value.map
          (·.edit (.reinit x b)) ∧
      ∀ f ∈ (checkBodies s (collected.map fun e => (e.1.edit (.reinit x a), e.2))).value,
        f.Spares x b s := by
  induction collected with
  | nil => exact fun _ _ _ => ⟨rfl, fun f hf => absurd hf List.not_mem_nil⟩
  | cons entry rest ih =>
      obtain ⟨f, signature⟩ := entry
      intro hwell h h'
      rw [List.map_cons, checkBodies] at h h' hwell
      rw [List.map_cons, List.map_cons, checkBodies, checkBodies]
      obtain ⟨hbody, hrest⟩ := Check.Finds.bind.mp h
      obtain ⟨hbody', hrest'⟩ := Check.Finds.bind.mp h'
      cases signature with
      | none => exact ih hwell (Check.Finds.bind.mp hrest).1 (Check.Finds.bind.mp hrest').1
      | some sig =>
          obtain ⟨hsame, hspares⟩ := checkBody_reinit hs hx ha (hwell _ List.mem_cons_self)
            hbody hbody'
          obtain ⟨hsame', hspares'⟩ := ih (fun g hg => hwell g (List.mem_cons_of_mem _ hg))
            (Check.Finds.bind.mp hrest).1 (Check.Finds.bind.mp hrest').1
          refine ⟨?_, List.forall_mem_cons.mpr ⟨hspares, hspares'⟩⟩
          simp only [Check.value_bind, Check.value_pure, Option.getD_some] at hsame hsame' ⊢
          rw [hsame, hsame', List.map_cons]
          rfl

/-! ## Scripts -/

/-- A global has left a note where it was declared. -/
theorem checkGlobals_declared {functions : List Signature} {signals : List Signal}
    (gs : List GlobalDecl) : ∀ before g, g ∈ (checkGlobals functions signals before gs).value →
    g ∈ before ∨
      Finding.declared g.declared ∈ (checkGlobals functions signals before gs).findings := by
  induction gs with
  | nil => exact fun before g hg => .inl hg
  | cons decl gs ih =>
      intro before g hg
      rw [checkGlobals] at hg ⊢
      simp only [Check.value_bind] at hg
      split at hg
      · rename_i hdup
        refine (ih before g hg).imp id fun h => mem_bind_next (mem_bind_next ?_)
        rw [if_pos hdup]
        exact mem_bind_next h
      · rename_i hnew
        refine (?_ : g ∈ before ∨ _).imp id fun h => mem_bind_next (mem_bind_next h)
        rw [if_neg hnew]
        -- Whether it is exported or not, the note stands first.
        cases hexported : decl.exported with
        | none | some mark =>
            simp only [hexported, Check.value_bind] at hg
            rcases ih _ g hg with h | h
            · refine (List.mem_append.mp h).imp id fun h => ?_
              rw [List.mem_singleton.mp h]
              exact mem_bind_first (List.mem_singleton.mpr rfl)
            · exact .inr (mem_bind_next (mem_bind_next h))

/-- Code of a script sees what it was checked in. -/
theorem checkProgram_surroundings (p : Program Unit) : (checkProgram p).surroundings =
    p.surroundings false [p.checkedGlobals.value.map GlobalInfo.declared] :=
  congrArg (fun fs => Surroundings.mk fs _ _ _) (checkBodies_signatures _ _)

/-- Where the script with `a` neither reads `x` nor writes it as a node, and both scripts are
    accepted with one type for `x`, the script with `b` is the first up to the initializer. -/
theorem checkProgram_reinit {p : Program Unit} (ha : a.IsAtom)
    (hs : Known (checkProgram (p.edit (.reinit x a))).surroundings)
    (hwell : (checkProgram (p.edit (.reinit x a))).WellTyped)
    (h : ∀ f ∈ (checkProgram (p.edit (.reinit x a))).findings, f.Spares x t)
    (h' : ∀ f ∈ (checkProgram (p.edit (.reinit x b))).findings, f.Types x t) :
    ((checkProgram (p.edit (.reinit x b))).functions =
        (checkProgram (p.edit (.reinit x a))).functions.map (·.edit (.reinit x b)) ∧
      (checkProgram (p.edit (.reinit x b))).globals =
        (checkProgram (p.edit (.reinit x a))).globals ∧
      (checkProgram (p.edit (.reinit x b))).signals =
        (checkProgram (p.edit (.reinit x a))).signals) ∧
    ∀ f ∈ (checkProgram (p.edit (.reinit x a))).functions,
      f.Spares x b (checkProgram (p.edit (.reinit x a))).surroundings := by
  have hwell := hwell.functions
  rw [checkProgram_surroundings] at hs hwell ⊢
  rw [Program.checkProgram_eq] at h h' hwell ⊢
  rw [Program.checkProgram_eq]
  simp only [List.forall_mem_append] at h h'
  simp only [Program.checkedFunctions, Program.surroundings_edit, Program.checkedGlobals_edit,
    Program.collected_edit, Program.declared_edit] at h h' hs hwell ⊢
  have hglobals : Scope.Types x t [p.checkedGlobals.value.map GlobalInfo.declared] := by
    intro name v hv hx
    obtain ⟨frame, hframe, hv⟩ := List.exists_of_findSome?_eq_some hv
    cases List.mem_singleton.mp hframe
    obtain ⟨g, hg, rfl⟩ := List.mem_map.mp (List.mem_of_find?_eq_some hv)
    rcases checkGlobals_declared p.globals [] g hg with hnone | hfound
    · cases hnone
    · exact h.2.2.1 _ hfound hx
  obtain ⟨hsame, hspares⟩ := checkBodies_reinit hs hglobals ha p.collected.value hwell
    h.2.2.2.1 h'.2.2.2.1
  exact ⟨⟨hsame, trivial, trivial⟩, hspares⟩

end SceneScript
