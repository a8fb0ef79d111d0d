import SceneScript.Proofs.Syntax.Nesting
import SceneScript.Proofs.Syntax.Uses
import SceneScript.Proofs.Typing.Visits

/-!
# Variables in sight are declared in front

Where checking comes to a piece of code, the variables that it sees are globals that exist, and
local variables and parameters that checking has met before and that stand in the script in front
of every name that the code uses. Of two steps only the ones into a body and past a declaration add
a variable, and the text of the script is nested, so what is checked later stands further behind.

* **`Expr.names_preorder`**, **`Stmt.names_preorder`** — names in use are nodes of the tree.
* **`Code.names`**, **`Code.Nested`** — the names that a piece of code uses, and its trees.
* **`Code.Sees`**, **`InSight`** — where the variables come from; `Part.inSight` for one step,
  `Program.Reaches.inSight` for the whole way.
* **`Program.LooksUp`** — a name is looked up; `Program.names_lookedUp`, none is passed over.
* **`Program.LooksUp.resolved`** — the variable that a name means.
-/

namespace SceneScript

variable {β : Type} {id : Ident}

/-! ## Names in the tree -/

/-- A node below a child is below the node. -/
theorem Tree.mem_preorder_child {k : NodeKind} {s : Span} {children : List Tree} {child n : Tree}
    (hchild : child ∈ children) (hn : n ∈ child.preorder) :
    n ∈ (Tree.node k s children).preorder := by
  rw [Tree.preorder_node]
  exact List.mem_cons_of_mem _ (List.mem_flatMap.mpr ⟨child, hchild, hn⟩)

theorem Ident.mem_preorder (id : Ident) : id.tree ∈ id.tree.preorder := by
  rw [Ident.tree, Tree.preorder]
  exact List.mem_cons_self

mutual

/-- A name that an expression uses is a node of it. -/
theorem Expr.names_preorder : ∀ e : Expr, id ∈ e.names → id.tree ∈ e.tree.preorder
  | .int .., h | .float .., h | .bool .., h | .string .., h | .self .., h =>
      absurd h List.not_mem_nil
  | .ident id', h => by
      rw [List.mem_singleton.mp h]
      exact id'.mem_preorder
  | .field s object name, h =>
      Tree.mem_preorder_child List.mem_cons_self (Expr.names_preorder object h)
  | .unary s op arg, h => Tree.mem_preorder_child List.mem_cons_self (Expr.names_preorder arg h)
  | .binary s op l r, h => by
      rw [Expr.names_binary] at h
      rcases List.mem_append.mp h with h | h
      · exact Tree.mem_preorder_child List.mem_cons_self (Expr.names_preorder l h)
      · exact Tree.mem_preorder_child (List.mem_cons_of_mem _ List.mem_cons_self)
          (Expr.names_preorder r h)
  | .call s callee args, h => by
      obtain ⟨t, ht, hmem⟩ := exprs_names_preorder args h
      exact Tree.mem_preorder_child (List.mem_cons_of_mem _ ht) hmem
  | .struct s name fields, h => by
      obtain ⟨t, ht, hmem⟩ := fields_names_preorder fields h
      exact Tree.mem_preorder_child (List.mem_cons_of_mem _ ht) hmem

theorem exprs_names_preorder : ∀ es : List Expr, id ∈ namesIn (exprsParts es) →
    ∃ t ∈ exprTrees es, id.tree ∈ t.preorder
  | [], h => absurd h List.not_mem_nil
  | e :: es, h => by
      rw [namesIn_exprsParts_cons] at h
      rcases List.mem_append.mp h with h | h
      · exact ⟨e.tree, List.mem_cons_self, Expr.names_preorder e h⟩
      · obtain ⟨t, ht, hmem⟩ := exprs_names_preorder es h
        exact ⟨t, List.mem_cons_of_mem _ ht, hmem⟩

theorem fields_names_preorder : ∀ fields : List (Ident × Expr), id ∈ namesIn (fieldsParts fields) →
    ∃ t ∈ fieldTrees fields, id.tree ∈ t.preorder
  | [], h => absurd h List.not_mem_nil
  | (name, e) :: rest, h => by
      rw [namesIn_fieldsParts_cons] at h
      rcases List.mem_append.mp h with h | h
      · exact ⟨_, List.mem_cons_self, Tree.mem_preorder_child
          (List.mem_cons_of_mem _ List.mem_cons_self) (Expr.names_preorder e h)⟩
      · obtain ⟨t, ht, hmem⟩ := fields_names_preorder rest h
        exact ⟨t, List.mem_cons_of_mem _ ht, hmem⟩

end

/-- The root of a target is a node of it. -/
theorem AssignTarget.names_preorder (target : AssignTarget) (h : id ∈ target.root.expr.names) :
    id.tree ∈ target.tree.preorder := by
  refine Tree.mem_preorder_child List.mem_cons_self ?_
  cases hroot : target.root with
  | self s => rw [hroot] at h; exact absurd h List.not_mem_nil
  | name id' =>
      rw [hroot] at h
      exact Expr.names_preorder (.ident id') h

mutual

/-- A name that a statement uses or assigns to is a node of it. -/
theorem Stmt.names_preorder : ∀ st : Stmt β, id ∈ st.names → id.tree ∈ st.tree.preorder
  | .block b, h => Block.names_preorder b h
  | .bind s name mutable declared init _, h =>
      Tree.mem_preorder_child (List.mem_append_right _ List.mem_cons_self)
        (Expr.names_preorder init h)
  | .assign s target op value, h => by
      rcases List.mem_append.mp h with h | h
      · exact Tree.mem_preorder_child List.mem_cons_self (target.names_preorder h)
      · exact Tree.mem_preorder_child (List.mem_cons_of_mem _ List.mem_cons_self)
          (Expr.names_preorder value h)
  | .cond k, h => Cond.names_preorder k h
  | .loop s test body, h => by
      rcases List.mem_append.mp h with h | h
      · exact Tree.mem_preorder_child List.mem_cons_self (Expr.names_preorder test h)
      · exact Tree.mem_preorder_child (List.mem_cons_of_mem _ List.mem_cons_self)
          (Block.names_preorder body h)
  | .ret s none, h => absurd h List.not_mem_nil
  | .ret s (some e), h => Tree.mem_preorder_child List.mem_cons_self (Expr.names_preorder e h)
  | .eval s e, h => Tree.mem_preorder_child List.mem_cons_self (Expr.names_preorder e h)

theorem Block.names_preorder : ∀ b : Block β, id ∈ b.names → id.tree ∈ b.tree.preorder
  | .mk s body, h => by
      obtain ⟨t, ht, hmem⟩ := stmts_names_preorder body h
      exact Tree.mem_preorder_child ht hmem

theorem Cond.names_preorder : ∀ k : Cond β, id ∈ k.names → id.tree ∈ k.tree.preorder
  | .mk s test consequent alternate, h => by
      rcases List.mem_append.mp h with h | h
      · rcases List.mem_append.mp h with h | h
        · exact Tree.mem_preorder_child List.mem_cons_self (Expr.names_preorder test h)
        · exact Tree.mem_preorder_child (List.mem_cons_of_mem _ List.mem_cons_self)
            (Block.names_preorder consequent h)
      · obtain ⟨t, ht, hmem⟩ := Else.names_preorder alternate h
        exact Tree.mem_preorder_child (List.mem_cons_of_mem _ (List.mem_cons_of_mem _ ht)) hmem

theorem Else.names_preorder : ∀ a : Else β, id ∈ a.names → ∃ t ∈ a.trees, id.tree ∈ t.preorder
  | .absent, h => absurd h List.not_mem_nil
  | .block b, h => ⟨b.tree, List.mem_cons_self, Block.names_preorder b h⟩
  | .cond k, h => ⟨k.tree, List.mem_cons_self, Cond.names_preorder k h⟩

theorem stmts_names_preorder : ∀ body : List (Stmt β), id ∈ stmtsNames body →
    ∃ t ∈ stmtTrees body, id.tree ∈ t.preorder
  | [], h => absurd h List.not_mem_nil
  | st :: rest, h => by
      rcases List.mem_append.mp h with h | h
      · exact ⟨st.tree, List.mem_cons_self, Stmt.names_preorder st h⟩
      · obtain ⟨t, ht, hmem⟩ := stmts_names_preorder rest h
        exact ⟨t, List.mem_cons_of_mem _ ht, hmem⟩

end

/-- Nodes below trees that are laid from an offset begin there or behind it. -/
theorem Laid.le_preorder {lo hi : Nat} {ts : List Tree} (h : Laid lo ts hi) {t n : Tree}
    (ht : t ∈ ts) (hn : n ∈ t.preorder) : lo ≤ n.span.start.offset := by
  obtain ⟨hstart, -, -⟩ := h.spans.mem t.span (List.mem_map_of_mem ht)
  exact Nat.le_trans hstart ((h.nested t ht).mem_preorder n hn).2.1

/-! ## The names and the trees of code -/

namespace Code

/-- The names that a piece of code uses or assigns to. -/
def names : Code → List Ident
  | .globals _ decls  => decls.flatMap fun g => g.init.names
  | .bodies entries   => entries.flatMap fun entry => entry.1.body.names
  | .stmts _ body     => stmtsNames body
  | .stmt _ st        => st.names
  | .block _ b        => b.names
  | .cond _ k         => k.names
  | .els _ a          => a.names
  | .expr e           => e.names
  | .signals _ _ | .signalParams _ _ _ | .functions _ _ | .params _ | .typeRef _ _ => []

/-- The trees of the functions and statements in a piece of code are nested. -/
def Nested : Code → Prop
  | .bodies entries => ∀ entry ∈ entries, (Declaration.function entry.1).tree.Nested
  | .stmts _ body   => ∃ lo hi, Laid lo (stmtTrees body) hi
  | .stmt _ st      => st.tree.Nested
  | .block _ b      => b.tree.Nested
  | .cond _ k       => k.tree.Nested
  | .els _ a        => ∀ t ∈ a.trees, t.Nested
  | _               => True

end Code

theorem namesIn_exprsParts_append (a b : List Expr) :
    namesIn (exprsParts (a ++ b)) = namesIn (exprsParts a) ++ namesIn (exprsParts b) := by
  induction a with
  | nil => rfl
  | cons e es ih => rw [List.cons_append, namesIn_exprsParts_cons, namesIn_exprsParts_cons, ih,
      List.append_assoc]

theorem namesIn_fieldsParts_append (a b : List (Ident × Expr)) :
    namesIn (fieldsParts (a ++ b)) = namesIn (fieldsParts a) ++ namesIn (fieldsParts b) := by
  induction a with
  | nil => rfl
  | cons field rest ih => rw [List.cons_append, namesIn_fieldsParts_cons, namesIn_fieldsParts_cons,
      ih, List.append_assoc]

section Steps

variable {s s' : Surroundings} {c c' : Code} {found : List Finding}

/-- A part of code uses no other names. -/
theorem Part.names (h : Part s c found s' c') : c'.names ⊆ c.names := by
  have args : ∀ (span : Span) (callee : Ident) (a : List Expr) (x : Expr) (b : List Expr),
      x.names ⊆ (Expr.call span callee (a ++ x :: b)).names := by
    intro span callee a x b id hid
    rw [Expr.names_call, namesIn_exprsParts_append, namesIn_exprsParts_cons]
    exact List.mem_append_right _ (List.mem_append_left _ hid)
  cases h with
  | signal | laterSignals | afterDuplicate | signalParam | laterSignalParams | functionParams
  | functionReturns | laterFunctions | param | laterParams | globalType | bindType =>
      exact List.nil_subset _
  | global | first => exact List.subset_append_left _ _
  | body entry rest =>
      rw [Code.names, Code.names, ← Block.names_body]
      exact List.subset_append_left _ _
  | laterGlobals | laterBodies | later => exact List.subset_append_right _ _
  | inner | init | branch | returned | evaluated | contents | elseBlock | elseCond | object
  | operand => exact List.Subset.refl _
  | assigned | loopBody | alternate => exact List.subset_append_right _ _
  | loopTest => exact List.subset_append_left _ _
  | test => exact fun _ hid => List.mem_append_left _ (List.mem_append_left _ hid)
  | consequent => exact fun _ hid => List.mem_append_left _ (List.mem_append_right _ hid)
  | left span op left right =>
      simp only [Code.names, Expr.names_binary]
      exact List.subset_append_left _ _
  | right span op left right =>
      simp only [Code.names, Expr.names_binary]
      exact List.subset_append_right _ _
  | fieldValue span name a x b =>
      intro id hid
      simp only [Code.names, Expr.names_struct, namesIn_fieldsParts_append,
        namesIn_fieldsParts_cons] at hid ⊢
      exact List.mem_append_right _ (List.mem_append_left _ hid)
  | printed span callee a x b => exact args span callee a x b
  | emitted span callee first a x b =>
      exact args span callee (first :: a) x b
  | emittedName span callee first rest => exact args span callee [] first rest
  | builtinArg span callee a x b => exact args span callee a x b
  | undefinedArg span callee a x b => exact args span callee a x b
  | arg span callee a x b => exact args span callee a x b

/-- A part of nested code is nested. -/
theorem Part.nested (h : Part s c found s' c') (hc : c.Nested) : c'.Nested := by
  cases h with
  | body entry rest =>
      have hbody : entry.1.body.tree.Nested :=
        (Tree.Nested.child (hc entry List.mem_cons_self)
          (List.mem_append_right _ List.mem_cons_self)).1
      rw [Code.Nested]
      generalize entry.1.body = body at hbody
      cases body with
      | mk span body => exact ⟨_, _, hbody.children, fun t ht => (hbody.child ht).1⟩
  | laterBodies entry rest => exact fun e he => hc e (List.mem_cons_of_mem _ he)
  | first owner st rest =>
      obtain ⟨lo, hi, hlaid⟩ := hc
      exact hlaid.nested _ List.mem_cons_self
  | later owner st rest =>
      obtain ⟨lo, hi, hlaid⟩ := hc
      exact ⟨_, _, hlaid.uncons.2⟩
  | loopBody owner span test body =>
      exact (Tree.Nested.child hc (List.mem_cons_of_mem _ List.mem_cons_self)).1
  | contents owner span body => exact ⟨_, _, hc.children, fun t ht => (hc.child ht).1⟩
  | consequent owner span test consequent alternate =>
      exact (Tree.Nested.child hc (List.mem_cons_of_mem _ List.mem_cons_self)).1
  | alternate owner span test consequent alternate =>
      exact fun t ht =>
        (Tree.Nested.child hc (List.mem_cons_of_mem _ (List.mem_cons_of_mem _ ht))).1
  | inner | branch => exact hc
  | elseBlock | elseCond => exact hc _ List.mem_cons_self
  | _ => trivial

end Steps

/-! ## Variables that are added -/

/-- Declaring a variable adds it and leaves a note. -/
theorem declare_scope {scope : Scope} {v w : Variable} {duplicate : Problem}
    (hw : w ∈ (declare scope v duplicate).value.flatten) :
    w ∈ scope.flatten ∨
      w = v ∧ Finding.declared w ∈ (declare scope v duplicate).findings := by
  rw [declare] at hw ⊢
  cases hdef : scope.define? v with
  | none =>
      rw [hdef] at hw
      exact .inl hw
  | some extended =>
      rw [hdef] at hw
      simp only [Check.value_bind, Check.value_pure] at hw
      have hmem : w ∈ scope.flatten ∨ w = v := by
        cases scope with
        | nil =>
            cases hdef
            exact .inr (by simpa using hw)
        | cons frame frames =>
            rw [Scope.define?] at hdef
            split at hdef
            · cases hdef
            · cases hdef
              simp only [List.flatten_cons, List.mem_append, List.mem_singleton] at hw ⊢
              tauto
      refine hmem.imp id fun heq => ⟨heq, ?_⟩
      subst heq
      exact List.mem_cons_self

/-- The variable that a statement adds to what is seen behind it. -/
theorem checkStmt_scope {s : Surroundings} {owner : Signature} {st : Stmt Unit} {w : Variable}
    (hw : w ∈ (checkStmt s owner st).value.2.flatten) :
    w ∈ s.scope.flatten ∨ w.kind = .local ∧
      Finding.declared w ∈ (checkStmt s owner st).findings ∧
      ∃ span mutable declared init, st = .bind span w.id mutable declared init () := by
  cases st with
  | bind span name mutable declared init annotation =>
      rw [checkStmt] at hw ⊢
      rcases declare_scope hw with hw | ⟨heq, hnote⟩
      · exact .inl hw
      subst heq
      refine .inr ⟨rfl, ?_, span, mutable, declared, init, rfl⟩
      simp only [Check.findings_bind, List.mem_append]
      exact .inr (.inr (.inl hnote))
  | _ => exact .inl hw

/-- The variables that parameters add. -/
theorem declareParams_scope {owner : Signature} {w : Variable} : ∀ {params : List Param}
    {scope : Scope} {types : List TypedName},
    w ∈ (declareParams owner scope params types).value.flatten →
      w ∈ scope.flatten ∨ w.kind = .param ∧
        Finding.declared w ∈ (declareParams owner scope params types).findings ∧
        ∃ p ∈ params, w.id = p.name
  | [], _, _, hw => .inl hw
  | p :: ps, scope, types, hw => by
      rw [declareParams] at hw ⊢
      simp only [Check.findings_bind, List.mem_append]
      rcases declareParams_scope hw with hw | ⟨hkind, hnote, q, hq, heq⟩
      · rcases declare_scope hw with hw | ⟨heq, hnote⟩
        · exact .inl hw
        subst heq
        exact .inr ⟨rfl, .inr (.inl hnote), p, List.mem_cons_self, rfl⟩
      · exact .inr ⟨hkind, .inr (.inr hnote), q, List.mem_cons_of_mem _ hq, heq⟩

/-- Checking a global leaves those before it in front, and what it adds has a name of its own. -/
theorem checkGlobal_value (functions : List Signature) (signals : List Signal)
    (before : List GlobalInfo) (g : GlobalDecl) :
    (checkGlobal functions signals before g).value = before ∨
      ∃ info, (checkGlobal functions signals before g).value = before ++ [info] ∧
        ∀ h ∈ before, h.name ≠ info.name := by
  rw [checkGlobal]
  cases hfind : Scope.find? [before.map GlobalInfo.declared] g.name.name with
  | some v => exact .inl rfl
  | none =>
      have hnew : Scope.inFrame? g.name.name (before.map GlobalInfo.declared) = none := by
        rw [Scope.find?_cons, Option.or_eq_none_iff] at hfind
        exact hfind.1
      rw [Scope.inFrame?, List.find?_eq_none] at hnew
      have hother : ∀ h ∈ before, h.name ≠ g.name.name := fun h hh hname =>
        hnew _ (List.mem_map_of_mem hh) (beq_iff_eq.mpr hname)
      refine .inr ?_
      simp only [Check.value_bind, Option.isSome_none, Bool.false_eq_true, if_false]
      cases g.exported with
      | none => exact ⟨_, rfl, hother⟩
      | some mark => exact ⟨_, rfl, hother⟩

theorem checkGlobals_extends (functions : List Signature) (signals : List Signal) :
    ∀ (gs : List GlobalDecl) (before : List GlobalInfo),
      before <+: (checkGlobals functions signals before gs).value
  | [], before => List.prefix_rfl
  | g :: gs, before => by
      rw [checkGlobals_cons, Check.value_bind]
      refine List.IsPrefix.trans ?_ (checkGlobals_extends functions signals gs _)
      rcases checkGlobal_value functions signals before g with hsame | ⟨info, hadd, -⟩
      · simp only [hsame, List.prefix_rfl]
      · simp only [hadd, List.prefix_append]

/-- No two globals that exist have one name. -/
theorem checkGlobals_nodup (functions : List Signature) (signals : List Signal) :
    ∀ (gs : List GlobalDecl) (before : List GlobalInfo), (before.map GlobalInfo.name).Nodup →
      ((checkGlobals functions signals before gs).value.map GlobalInfo.name).Nodup
  | [], _, h => h
  | g :: gs, before, h => by
      rw [checkGlobals_cons, Check.value_bind]
      refine checkGlobals_nodup functions signals gs _ ?_
      rcases checkGlobal_value functions signals before g with hsame | ⟨info, hadd, hnew⟩
      · rwa [hsame]
      · rw [hadd, List.map_append, List.map_singleton]
        refine List.Nodup.append h (List.nodup_singleton _) ?_
        simpa using hnew

/-! ## What code sees -/

/-- A variable that a piece of code sees is a global of the script, or it was declared on the way,
    in front of every name that the code uses. -/
def Code.Sees (c : Code) (p : Program Unit) (found : List Finding) (v : Variable) : Prop :=
  (∃ g ∈ p.checkedGlobals.value, g.declared = v) ∨
    v.kind ≠ .global ∧ Finding.declared v ∈ found ∧
      ∀ id ∈ c.names, v.id.span.start.offset ≤ id.span.start.offset

/-- The pass over the globals comes to those of the script. -/
def Code.Ends (c : Code) (p : Program Unit) (s : Surroundings) : Prop :=
  match c with
  | .globals before decls =>
      (checkGlobals s.functions s.signals before decls).value = p.checkedGlobals.value
  | _ => True

/-- What holds where checking a script comes to a piece of code. -/
structure InSight (p : Program Unit) (found : List Finding) (s : Surroundings) (c : Code) :
    Prop where
  names   : c.names ⊆ p.names
  nested  : c.Nested
  ends    : c.Ends p s
  visible : ∀ v ∈ s.scope.flatten, c.Sees p found v

section Steps

variable {p : Program Unit} {s s' : Surroundings} {c c' : Code} {found more : List Finding}

theorem Code.Sees.mono {v : Variable} (h : c.Sees p found v) (hnames : c'.names ⊆ c.names)
    (hfound : found ⊆ more) : c'.Sees p more v := by
  rcases h with hglobal | ⟨hkind, hnote, hbefore⟩
  · exact .inl hglobal
  · exact .inr ⟨hkind, hfound hnote, fun id hid => hbefore id (hnames hid)⟩

/-- The initializer of a global sees globals only. -/
theorem Code.Ends.initializer {before : List GlobalInfo} {decls : List GlobalDecl}
    (h : (Code.globals before decls).Ends p s) :
    ∀ v ∈ (s.initializer before).scope.flatten, c.Sees p found v := by
  intro v hv
  rw [Surroundings.initializer, List.flatten_singleton] at hv
  obtain ⟨g, hg, rfl⟩ := List.mem_map.mp hv
  have hprefix := checkGlobals_extends s.functions s.signals decls before
  rw [show (checkGlobals s.functions s.signals before decls).value = _ from h] at hprefix
  exact .inl ⟨g, hprefix.subset hg, rfl⟩

/-- The name of a declaration stands in front of the statements behind it. -/
theorem Laid.declared_le {lo hi : Nat} {span : Span} {name : Ident} {mutable : Bool}
    {declared : Option TypeRef} {init : Expr} {rest : List (Stmt Unit)}
    (h : Laid lo (stmtTrees (.bind span name mutable declared init () :: rest)) hi) :
    ∀ id ∈ stmtsNames rest, name.span.start.offset ≤ id.span.start.offset := by
  intro id hid
  obtain ⟨t, ht, hmem⟩ := stmts_names_preorder rest hid
  obtain ⟨hfirst, hrest⟩ := h.uncons
  have hname := (Tree.Nested.child (hfirst.nested _ List.mem_cons_self)
    (List.mem_append_left _ (List.mem_append_left _ List.mem_cons_self)))
  calc name.span.start.offset
      ≤ name.span.stop.offset := hname.1.children.le
    _ ≤ span.stop.offset := hname.2.2
    _ ≤ id.span.start.offset := hrest.le_preorder ht hmem

/-- The parameters of a function stand in front of its body. -/
theorem params_le {f : FunctionDecl Unit} (h : (Declaration.function f).tree.Nested) {q : Param}
    (hq : q ∈ f.params) :
    ∀ id ∈ f.body.names, q.name.span.start.offset ≤ id.span.start.offset := by
  intro id hid
  have hin : q.tree ∈ f.params.map Param.tree := List.mem_map_of_mem hq
  have hparam := h.child (c := q.tree)
    (List.mem_append_left _ (List.mem_append_left _ (List.mem_append_right _ hin)))
  have hname := hparam.1.child (c := q.name.tree) List.mem_cons_self
  have hbody := (h.child (c := f.body.tree) (List.mem_append_right _ List.mem_cons_self)).1
  have hbefore : q.tree.span.Before f.body.tree.span := by
    have hpairs := h.children.pairwise
    rw [Declaration.tree, Tree.children, List.map_append] at hpairs
    refine (List.pairwise_append.mp hpairs).2.2 _ (List.mem_map_of_mem ?_) _ List.mem_cons_self
    exact List.mem_append_left _ (List.mem_append_right _ hin)
  calc q.name.span.start.offset
      ≤ q.name.span.stop.offset := hname.1.children.le
    _ ≤ q.tree.span.stop.offset := hname.2.2
    _ ≤ f.body.tree.span.start.offset := hbefore
    _ ≤ id.span.start.offset := (hbody.mem_preorder _ (Block.names_preorder f.body hid)).2.1

/-- **One step.** What holds of a piece of code holds of its parts. -/
theorem Part.inSight (h : Part s c more s' c') (hc : InSight p found s c) :
    InSight p (found ++ more) s' c' := by
  have hnames := h.names
  have hfound : found ⊆ found ++ more := List.subset_append_left _ _
  refine ⟨List.Subset.trans hnames hc.names, h.nested hc.nested, ?_, ?_⟩
  · cases h with
    | laterGlobals before g gs =>
        have hends := hc.ends
        rw [Code.Ends, checkGlobals_cons, Check.value_bind] at hends
        exact hends
    | _ => trivial
  · cases h with
    | global | globalType => exact hc.ends.initializer
    | body entry rest =>
        intro v hv
        rcases declareParams_scope hv with hv | ⟨hkind, hnote, q, hq, hname⟩
        · exact (hc.visible v (by simpa using hv)).mono hnames hfound
        · refine .inr ⟨by rw [hkind]; decide, List.mem_append_right _ hnote, fun id hid => ?_⟩
          rw [hname]
          refine params_le (hc.nested entry List.mem_cons_self) hq id ?_
          rwa [Block.names_body]
    | later owner st rest =>
        intro v hv
        rcases checkStmt_scope hv with hv | ⟨hkind, hnote, span, mutable, declared, init, rfl⟩
        · exact (hc.visible v hv).mono hnames hfound
        · obtain ⟨lo, hi, hlaid⟩ := hc.nested
          exact .inr ⟨by rw [hkind]; decide, List.mem_append_right _ hnote, hlaid.declared_le⟩
    | contents owner span body => exact fun v hv => (hc.visible v hv).mono hnames hfound
    | _ => exact fun v hv => (hc.visible v hv).mono hnames hfound

end Steps

/-! ## The whole way -/

section Ways

variable {p : Program Unit} {s : Surroundings} {c : Code} {found : List Finding}

theorem Program.names_global {p : Program β} {g : GlobalDecl} (hg : g ∈ p.globals) :
    g.init.names ⊆ p.names := by
  obtain ⟨d, hd, hsort⟩ := List.mem_filterMap.mp hg
  intro id hid
  refine List.mem_flatMap.mpr ⟨d, hd, ?_⟩
  cases d <;> cases hsort
  exact hid

theorem Program.names_function {p : Program β} {f : FunctionDecl β} (hf : f ∈ p.functions) :
    f.body.names ⊆ p.names := by
  obtain ⟨d, hd, hsort⟩ := List.mem_filterMap.mp hf
  intro id hid
  refine List.mem_flatMap.mpr ⟨d, hd, ?_⟩
  cases d <;> cases hsort
  exact hid

theorem Program.function_nested {p : Program β} (h : p.tree.Nested) {f : FunctionDecl β}
    (hf : f ∈ p.functions) : (Declaration.function f).tree.Nested := by
  obtain ⟨d, hd, hsort⟩ := List.mem_filterMap.mp hf
  have hnested := (h.child (c := d.tree) (List.mem_map_of_mem hd)).1
  cases d <;> cases hsort
  exact hnested

/-- The functions whose bodies are checked are those of the script. -/
theorem Program.mem_functions {entry : FunctionDecl Unit × Option Signature}
    (hentry : entry ∈ p.collected.value) : entry.1 ∈ p.functions := by
  rw [← collectFunctions_fst p.functions []]
  exact List.mem_map_of_mem hentry

/-- **The whole way.** In a nested script this holds wherever checking comes to. -/
theorem Program.Reaches.inSight (hnested : p.tree.Nested) (h : p.Reaches found s c) :
    InSight p found s c := by
  induction h with
  | signals => exact ⟨List.nil_subset _, trivial, trivial, fun _ hv => by cases hv⟩
  | functions => exact ⟨List.nil_subset _, trivial, trivial, fun _ hv => by cases hv⟩
  | globals =>
      refine ⟨fun id hid => ?_, trivial, rfl, fun _ hv => by cases hv⟩
      obtain ⟨g, hg, hid⟩ := List.mem_flatMap.mp hid
      exact Program.names_global hg hid
  | bodies =>
      refine ⟨fun id hid => ?_, fun entry hentry => ?_, trivial, fun v hv => .inl ?_⟩
      · obtain ⟨entry, hentry, hid⟩ := List.mem_flatMap.mp hid
        exact Program.names_function (Program.mem_functions hentry) hid
      · exact Program.function_nested hnested (Program.mem_functions hentry)
      · rw [Program.surroundings, List.flatten_singleton] at hv
        obtain ⟨g, hg, rfl⟩ := List.mem_map.mp hv
        exact ⟨g, hg, rfl⟩
  | part _ hpart ih => exact hpart.inSight ih

/-- Checking the script looks the name up, to read a variable or to write one, where it sees `s`. -/
inductive Program.LooksUp (p : Program Unit) (s : Surroundings) (id : Ident) : Prop where
  | read {found : List Finding} (h : p.Reaches found s (.expr (.ident id)))
  | write {found : List Finding} {owner : Signature} {span : Span} {target : AssignTarget}
      {op : AssignOp} {value : Expr}
      (h : p.Reaches found s (.stmt owner (.assign span target op value)))
      (hroot : target.root = .name id)

/-- A name in an expression is looked up. -/
theorem Program.Reaches.lookedUp {e : Expr} (h : p.Reaches found s (.expr e)) (hid : id ∈ e.names) :
    ∃ s, p.LooksUp s id := by
  obtain ⟨x, hx, hsome⟩ := List.mem_filterMap.mp hid
  obtain rfl : x = .ident id := by
    cases x <;> cases hsome
    rfl
  obtain ⟨found', s', hreach⟩ := h.types (fun _ _ => Expr.noConfusion) hx
  exact ⟨s', .read hreach⟩

section Statements

variable {owner : Signature}

mutual

/-- A name that a statement uses or assigns to is looked up. -/
theorem Stmt.lookedUp : ∀ (st : Stmt Unit) {s : Surroundings} {found : List Finding},
    p.Reaches found s (.stmt owner st) → id ∈ st.names → ∃ s, p.LooksUp s id
  | .block b, _, _, h, hid => Block.lookedUp b (h.part (.inner owner b)) hid
  | .bind span name mutable declared init _, _, _, h, hid =>
      (h.part (.init owner span name mutable declared init)).lookedUp hid
  | .assign span target op value, s, _, h, hid => by
      rcases List.mem_append.mp hid with hid | hid
      · cases hroot : target.root with
        | self _ =>
            rw [hroot] at hid
            exact absurd hid List.not_mem_nil
        | name id' =>
            rw [hroot] at hid
            rw [List.mem_singleton.mp hid]
            exact ⟨s, .write h hroot⟩
      · exact (h.part (.assigned owner span target op value)).lookedUp hid
  | .cond k, _, _, h, hid => Cond.lookedUp k (h.part (.branch owner k)) hid
  | .loop span test body, _, _, h, hid => by
      rcases List.mem_append.mp hid with hid | hid
      · exact (h.part (.loopTest owner span test body)).lookedUp hid
      · exact Block.lookedUp body (h.part (.loopBody owner span test body)) hid
  | .ret _ none, _, _, _, hid => absurd hid List.not_mem_nil
  | .ret span (some e), _, _, h, hid => (h.part (.returned owner span e)).lookedUp hid
  | .eval span e, _, _, h, hid => (h.part (.evaluated owner span e)).lookedUp hid

theorem Block.lookedUp : ∀ (b : Block Unit) {s : Surroundings} {found : List Finding},
    p.Reaches found s (.block owner b) → id ∈ b.names → ∃ s, p.LooksUp s id
  | .mk span body, _, _, h, hid => stmts_lookedUp body (h.part (.contents owner span body)) hid

theorem Cond.lookedUp : ∀ (k : Cond Unit) {s : Surroundings} {found : List Finding},
    p.Reaches found s (.cond owner k) → id ∈ k.names → ∃ s, p.LooksUp s id
  | .mk span test consequent alternate, _, _, h, hid => by
      rcases List.mem_append.mp hid with hid | hid
      · rcases List.mem_append.mp hid with hid | hid
        · exact (h.part (.test owner span test consequent alternate)).lookedUp hid
        · exact Block.lookedUp consequent
            (h.part (.consequent owner span test consequent alternate)) hid
      · exact Else.lookedUp alternate
          (h.part (.alternate owner span test consequent alternate)) hid

theorem Else.lookedUp : ∀ (a : Else Unit) {s : Surroundings} {found : List Finding},
    p.Reaches found s (.els owner a) → id ∈ a.names → ∃ s, p.LooksUp s id
  | .absent, _, _, _, hid => absurd hid List.not_mem_nil
  | .block b, _, _, h, hid => Block.lookedUp b (h.part (.elseBlock owner b)) hid
  | .cond k, _, _, h, hid => Cond.lookedUp k (h.part (.elseCond owner k)) hid

theorem stmts_lookedUp : ∀ (body : List (Stmt Unit)) {s : Surroundings} {found : List Finding},
    p.Reaches found s (.stmts owner body) → id ∈ stmtsNames body → ∃ s, p.LooksUp s id
  | [], _, _, _, hid => absurd hid List.not_mem_nil
  | st :: rest, _, _, h, hid => by
      rcases List.mem_append.mp hid with hid | hid
      · exact Stmt.lookedUp st (h.part (.first owner st rest)) hid
      · exact stmts_lookedUp rest (h.part (.later owner st rest)) hid

end

end Statements

/-- Checking passes over no name that a script uses or assigns to. -/
theorem Program.names_lookedUp (p : Program Unit) (hid : id ∈ p.names) : ∃ s, p.LooksUp s id := by
  obtain ⟨d, hd, hid⟩ := List.mem_flatMap.mp hid
  cases d with
  | global g =>
      have hg : g ∈ p.globals := List.mem_filterMap.mpr ⟨_, hd, rfl⟩
      obtain ⟨found, s, hreach⟩ := globals_reach .globals hg
      exact hreach.lookedUp hid
  | function f =>
      have hf : f ∈ p.functions := List.mem_filterMap.mpr ⟨_, hd, rfl⟩
      rw [← collectFunctions_fst p.functions []] at hf
      obtain ⟨entry, hentry, rfl⟩ := List.mem_map.mp hf
      obtain ⟨found, s, hreach⟩ := bodies_reach .bodies hentry
      rw [Declaration.names, Block.names_body] at hid
      exact stmts_lookedUp _ hreach hid
  | signal d => exact absurd hid List.not_mem_nil

/-- The variable that a name means is a global of the script, or a local variable or parameter that
    is declared in front of the name. -/
theorem Program.LooksUp.resolved (hnested : p.tree.Nested) (h : p.LooksUp s id) {v : Variable}
    (hv : s.scope.find? id.name = some v) :
    id ∈ p.names ∧ v.id.name = id.name ∧
      ((∃ g ∈ (checkProgram p).globals, g.declared = v) ∨
        v.kind ≠ .global ∧ v ∈ (checkProgram p).symbols.map SymbolInfo.declared ∧
          v.id.span.start.offset ≤ id.span.start.offset) := by
  obtain ⟨found, c, hreach, hid⟩ : ∃ found c, p.Reaches found s c ∧ id ∈ c.names := by
    cases h with
    | read h => exact ⟨_, _, h, List.mem_cons_self⟩
    | write h hroot =>
        refine ⟨_, _, h, List.mem_append_left _ ?_⟩
        rw [hroot]
        exact List.mem_cons_self
  obtain ⟨frame, hframe, hfind⟩ := List.exists_of_findSome?_eq_some hv
  have hname : v.id.name = id.name := by simpa using List.find?_some hfind
  have hmem : v ∈ s.scope.flatten :=
    List.mem_flatten.mpr ⟨frame, hframe, List.mem_of_find?_eq_some hfind⟩
  have hsight := hreach.inSight hnested
  refine ⟨hsight.names hid, hname, (hsight.visible v hmem).imp ?_ ?_⟩
  · rintro ⟨g, hg, rfl⟩
    exact ⟨g, hg, rfl⟩
  · rintro ⟨hkind, hnote, hbefore⟩
    have hfinding := hreach.log.subset (List.mem_append_left _ hnote)
    have hsymbol : SymbolInfo.mk v ((checkProgram p).findings.count (.read v.id))
        ((checkProgram p).findings.count (.written v.id)) ∈ (checkProgram p).symbols :=
      List.mem_filterMap.mpr ⟨_, hfinding, rfl⟩
    exact ⟨hkind, List.mem_map_of_mem hsymbol, hbefore id hid⟩

/-- A global is the one that its name finds. -/
theorem checkProgram_find_global {g : GlobalInfo} (hg : g ∈ (checkProgram p).globals) :
    (checkProgram p).globals.find? (fun h => h.name == g.name) = some g := by
  have hnodup : ((checkProgram p).globals.map GlobalInfo.name).Nodup :=
    checkGlobals_nodup _ _ p.globals [] List.nodup_nil
  cases hfind : (checkProgram p).globals.find? (fun h => h.name == g.name) with
  | none => exact absurd (beq_self_eq_true g.name) (List.find?_eq_none.mp hfind g hg)
  | some h =>
      have hname : h.name = g.name := by simpa using List.find?_some hfind
      rw [List.inj_on_of_nodup_map hnodup (List.mem_of_find?_eq_some hfind) hg hname]

end Ways

end SceneScript
