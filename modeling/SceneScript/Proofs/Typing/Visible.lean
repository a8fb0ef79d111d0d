import SceneScript.Proofs.Syntax.Beginnings
import SceneScript.Proofs.Syntax.Parts
import SceneScript.Proofs.Typing.Reordering
import SceneScript.Proofs.Typing.Shape
import SceneScript.Proofs.Typing.Unread

/-!
# Names in sight

A global is visible to the globals behind it and in every function, a parameter in its function, and
a local variable from the next statement on to the end of its block. That can be read off a script
without checking it. What the checker finds stands in the script: it is found where a node of the
program begins, and the names among which a problem looks for the one that was meant are names that
the script offers there.

* **`Program.lookups`** — the names that are looked up as variables, with those in sight there.
* **`Finding.FoundIn`** — a finding has its place and its names from a script.
* **`typeOf_foundIn`**, **`checkStmt_foundIn`** — expressions and statements.
* **`checkProgram_foundIn`** — whole scripts.
-/

namespace SceneScript

variable {α β : Type} {P : Position → Prop}

/-! ## What is in sight -/

/-- The names among expressions, with what is visible there. -/
def lookupsIn (visible : List Text) (parts : List Expr) : List (Ident × List Text) :=
  parts.filterMap fun
    | .ident id => some (id, visible)
    | _         => none

/-- The names that are visible behind a statement and not in it. -/
def Stmt.introduced : Stmt β → List Text
  | .bind _ name _ _ _ _ => [name.name]
  | _                    => []

mutual

/-- The names that a statement looks up, with those visible there. -/
def Stmt.lookups (visible : List Text) : Stmt β → List (Ident × List Text)
  | .block b                => b.lookups visible
  | .bind _ _ _ _ init _    => lookupsIn visible init.parts
  | .assign _ target _ value => lookupsIn visible (target.root.expr :: value.parts)
  | .cond c                 => c.lookups visible
  | .loop _ test body       => lookupsIn visible test.parts ++ body.lookups visible
  | .ret _ none             => []
  | .ret _ (some e)         => lookupsIn visible e.parts
  | .eval _ e               => lookupsIn visible e.parts

/-- The names that statements look up, each statement in sight of those before it. -/
def stmtsLookups (visible : List Text) : List (Stmt β) → List (Ident × List Text)
  | []         => []
  | st :: rest => st.lookups visible ++ stmtsLookups (st.introduced ++ visible) rest

/-- The names that a block looks up. -/
def Block.lookups (visible : List Text) : Block β → List (Ident × List Text)
  | .mk _ body => stmtsLookups visible body

/-- The names that a conditional looks up. -/
def Cond.lookups (visible : List Text) : Cond β → List (Ident × List Text)
  | .mk _ test consequent alternate =>
      lookupsIn visible test.parts ++ consequent.lookups visible ++ alternate.lookups visible

/-- The names that are looked up in what follows a consequent. -/
def Else.lookups (visible : List Text) : Else β → List (Ident × List Text)
  | .absent  => []
  | .block b => b.lookups visible
  | .cond c  => c.lookups visible

end

/-- The names that globals look up, each global in sight of those before it. -/
def globalsLookups (visible : List Text) : List GlobalDecl → List (Ident × List Text)
  | []      => []
  | g :: gs => lookupsIn visible g.init.parts ++ globalsLookups (visible ++ [g.name.name]) gs

namespace Program

/-- The names of the globals. -/
def globalNames (p : Program β) : List Text := p.globals.map fun g => g.name.name

/-- The names that a script looks up as variables, with those visible there. -/
def lookups (p : Program β) : List (Ident × List Text) :=
  globalsLookups [] p.globals ++ p.functions.flatMap fun f =>
    stmtsLookups (f.params.map (fun param => param.name.name) ++ p.globalNames) f.body.body

end Program

/-- The names of the built-in functions. -/
def builtinNames : List Text := Builtin.all.map fun b => Text.ofString b.word

/-- What a script offers to choose from: variables where they are visible, functions and signals. -/
structure Offer where
  lookups   : List (Ident × List Text)
  functions : List Text
  signals   : List Text

/-- What a whole script offers. -/
def Program.offer (p : Program Unit) : Offer :=
  ⟨p.lookups, p.functions.map FunctionDecl.key, p.signals.map SignalDecl.key⟩

/-- The names that a problem at a place chooses from are among those on offer. -/
def Problem.FoundIn (o : Offer) (span : Span) : Problem → Prop
  | .undefinedVariable name known =>
      ∃ visible, (⟨name, span⟩, visible) ∈ o.lookups ∧ known ⊆ visible
  | .undefinedFunction _ known => known ⊆ o.functions ++ builtinNames
  | .undefinedSignal _ known   => known ⊆ o.signals
  | _                          => True

/-- A problem begins at a position with the property and chooses from the names on offer, and a
    variable is declared at such a position. -/
def Finding.FoundIn (P : Position → Prop) (o : Offer) : Finding → Prop
  | .problem q span => P span.start ∧ q.FoundIn o span
  | .declared v     => P v.id.span.start
  | _               => True

/-! ## Findings of steps -/

namespace Check.Finds

variable {G : Finding → Prop}

theorem pure {a : α} : (Pure.pure a : Check α).Finds G := fun _ hf => absurd hf List.not_mem_nil

theorem andThen {x : Check α} {f : α → Check β} (h : x.Finds G ∧ (f x.value).Finds G) :
    (x >>= f).Finds G := bind.mpr h

theorem noted {f : Finding} (h : G f) : (note f).Finds G := List.forall_mem_singleton.mpr h

theorem reported {span : Span} {q : Problem} (h : G (.problem q span)) :
    (report span q).Finds G := noted h

theorem reportIf {c : Bool} {span : Span} {q : Problem} (h : G (.problem q span)) :
    (reportIf c span q).Finds G := by
  cases c
  · exact pure
  · exact reported h

end Check.Finds

variable {o : Offer} {visible : List Text} {s : Surroundings} {owner : Signature}

/-- The surroundings hold nothing but what is on offer, and no variables but those in sight. -/
structure Surroundings.Within (o : Offer) (visible : List Text) (s : Surroundings) : Prop where
  functions : s.functions.map Signature.name ⊆ o.functions
  signals   : s.signals.map Signal.name ⊆ o.signals
  scope     : s.scope.names ⊆ visible

theorem Surroundings.Within.callable (hs : s.Within o visible) :
    s.callable ⊆ o.functions ++ builtinNames :=
  List.append_subset.mpr ⟨List.subset_append_of_subset_left _ hs.functions,
    List.subset_append_right _ _⟩

/-! ## Expressions -/

theorem lookupVariable_foundIn (hs : s.Within o visible) {id : Ident} (hid : P id.span.start)
    (h : (id, visible) ∈ o.lookups) :
    (lookupVariable s.scope id).Finds (Finding.FoundIn P o) := by
  rw [lookupVariable]
  split
  · exact .pure
  · exact .andThen ⟨.reported ⟨hid, visible, h, hs.scope⟩, .pure⟩

theorem fieldType_foundIn (base : Ty) {field : Ident} (h : P field.span.start) :
    (fieldType base field).Finds (Finding.FoundIn P o) := by
  rw [fieldType]
  split
  · exact .pure
  · split
    · exact .andThen ⟨.reported ⟨h, trivial⟩, .pure⟩
    · split
      · exact .pure
      · exact .andThen ⟨.reported ⟨h, trivial⟩, .pure⟩

theorem unaryType_foundIn (op : UnaryOp) (t : Ty) {span : Span} (h : P span.start) :
    (unaryType op t span).Finds (Finding.FoundIn P o) := by
  have hreport : (do Check.report span (.unaryOperand op t); return Ty.unknown :
      Check Ty).Finds (Finding.FoundIn P o) := .andThen ⟨.reported ⟨h, trivial⟩, .pure⟩
  rw [unaryType]
  split
  · exact .pure
  · split <;> split <;> first | exact .pure | exact hreport

theorem binaryType_foundIn (op : BinaryOp) (l r : Ty) {span : Span} (h : P span.start) :
    (binaryType op l r span).Finds (Finding.FoundIn P o) := by
  have hreport : (do Check.report span (.binaryOperands op l r); return Ty.unknown :
      Check Ty).Finds (Finding.FoundIn P o) := .andThen ⟨.reported ⟨h, trivial⟩, .pure⟩
  unfold binaryType
  cases op with
  | eq => exact .andThen ⟨.reportIf ⟨h, trivial⟩, .pure⟩
  | ne => exact .andThen ⟨.reportIf ⟨h, trivial⟩, .pure⟩
  | and => exact .andThen ⟨.reportIf ⟨h, trivial⟩, .pure⟩
  | or => exact .andThen ⟨.reportIf ⟨h, trivial⟩, .pure⟩
  | _ =>
      dsimp only
      repeat' split
      all_goals first | exact .pure | exact hreport

theorem checkFits_foundIn {problem : TypedName → Ty → Problem} :
    ∀ (params : List TypedName) (args : List (Span × Ty)), (∀ a ∈ args, P a.1.start) →
      (∀ param t span, (problem param t).FoundIn o span) →
      (checkFits problem params args).Finds (Finding.FoundIn P o)
  | [], _, _, _ => .pure
  | _ :: _, [], _, _ => .pure
  | param :: params, (span, t) :: rest, h, hproblem => by
      rw [checkFits]
      obtain ⟨hspan, hrest⟩ := List.forall_mem_cons.mp h
      exact .andThen ⟨.reportIf ⟨hspan, hproblem param t span⟩,
        checkFits_foundIn params rest hrest hproblem⟩

theorem checkArguments_foundIn (function : Text) (params : List TypedName) {span : Span}
    (hspan : P span.start) {args : List (Span × Ty)} (hargs : ∀ a ∈ args, P a.1.start) :
    (checkArguments function params span args).Finds (Finding.FoundIn P o) := by
  rw [checkArguments]
  split
  · exact .reported ⟨hspan, trivial⟩
  · exact checkFits_foundIn params args hargs fun _ _ _ => trivial

theorem checkEmission_foundIn (hs : s.Within o visible) {span nameSpan : Span}
    (hspan : P span.start) (hname : P nameSpan.start) (name : Text) {args : List (Span × Ty)}
    (hargs : ∀ a ∈ args, P a.1.start) :
    (checkEmission s span nameSpan name args).Finds (Finding.FoundIn P o) := by
  rw [checkEmission]
  split
  · exact .reported ⟨hname, hs.signals⟩
  · split
    · exact .reported ⟨hspan, trivial⟩
    · exact checkFits_foundIn _ args hargs fun _ _ _ => trivial

theorem checkFields_foundIn (type : Ty) : ∀ (seen : List Text) (fields : List (Ident × Span × Ty)),
    (∀ f ∈ fields, P f.1.span.start ∧ P f.2.1.start) →
      (checkFields type seen fields).Finds (Finding.FoundIn P o)
  | _, [], _ => .pure
  | seen, (field, span, found) :: rest, h => by
      obtain ⟨⟨hfield, hspan⟩, hrest⟩ := List.forall_mem_cons.mp h
      rw [checkFields]
      split
      · exact .andThen ⟨.reported ⟨hfield, trivial⟩, checkFields_foundIn type _ rest hrest⟩
      · split
        · exact .andThen ⟨.reported ⟨hfield, trivial⟩, checkFields_foundIn type _ rest hrest⟩
        · exact .andThen ⟨.reportIf ⟨hspan, trivial⟩, checkFields_foundIn type _ rest hrest⟩

theorem structType_foundIn {span : Span} (hspan : P span.start) {name : Ident}
    (hname : P name.span.start) {fields : List (Ident × Span × Ty)}
    (hfields : ∀ f ∈ fields, P f.1.span.start ∧ P f.2.1.start) :
    (structType span name fields).Finds (Finding.FoundIn P o) := by
  rw [structType]
  split
  · exact .andThen ⟨.reported ⟨hname, trivial⟩, .pure⟩
  · split
    · exact .andThen ⟨.reported ⟨hname, trivial⟩, .pure⟩
    · exact .andThen ⟨checkFields_foundIn _ [] fields hfields,
        .andThen ⟨.reportIf ⟨hspan, trivial⟩, .pure⟩⟩

/-- Arguments have the places of their expressions. -/
theorem typesOf_begins (s : Surroundings) : ∀ {es : List Expr}, TreesBegin P (exprTrees es) →
    ∀ a ∈ (typesOf s es).value, P a.1.start
  | [], _ => fun _ ha => absurd ha List.not_mem_nil
  | e :: es, h => by
      obtain ⟨he, hes⟩ := treesBegin_cons.mp h
      exact List.forall_mem_cons.mpr ⟨Expr.begins_span he, typesOf_begins s hes⟩

/-- The fields of a struct literal have the places of their names and their values. -/
theorem fieldTypes_begins (s : Surroundings) : ∀ {fs : List (Ident × Expr)},
    TreesBegin P (fieldTrees fs) → ∀ f ∈ (fieldTypes s fs).value, P f.1.span.start ∧ P f.2.1.start
  | [], _ => fun _ hf => absurd hf List.not_mem_nil
  | (name, e) :: rest, h => by
      obtain ⟨hfield, hrest⟩ := treesBegin_cons.mp h
      simp only [Tree.begins_node, treesBegin_cons, Ident.begins_tree] at hfield
      exact List.forall_mem_cons.mpr
        ⟨⟨hfield.2.1, Expr.begins_span hfield.2.2.1⟩, fieldTypes_begins s hrest⟩

theorem lookupsIn_append (visible : List Text) (a b : List Expr) :
    lookupsIn visible (a ++ b) = lookupsIn visible a ++ lookupsIn visible b := List.filterMap_append

/-- What is looked up in a part of an expression is looked up in the expression. -/
theorem lookupsIn_cons_subset {e : Expr} {parts : List Expr} {l : List (Ident × List Text)}
    (h : lookupsIn visible (e :: parts) ⊆ l) : lookupsIn visible parts ⊆ l :=
  fun _ hx => h ((List.sublist_cons_self e parts).filterMap _ |>.subset hx)

theorem lookupsIn_append_subset {a b : List Expr} {l : List (Ident × List Text)}
    (h : lookupsIn visible (a ++ b) ⊆ l) : lookupsIn visible a ⊆ l ∧ lookupsIn visible b ⊆ l := by
  rw [lookupsIn_append] at h
  exact List.append_subset.mp h

mutual

/-- What is found in an expression begins in it, and chooses from what is on offer. -/
theorem typeOf_foundIn (hs : s.Within o visible) : ∀ e : Expr, e.tree.Begins P →
    lookupsIn visible e.parts ⊆ o.lookups → (typeOf s e).Finds (Finding.FoundIn P o)
  | .int _ _ _, _, _ => .pure
  | .float _ _ _, _, _ => .pure
  | .bool _ _, _, _ => .pure
  | .string _ _, _, _ => .pure
  | .self _, _, _ => .pure
  | .ident id, he, hl => by
      rw [typeOf]
      refine .andThen ⟨lookupVariable_foundIn hs he.start (hl List.mem_cons_self), ?_⟩
      split
      · exact .andThen ⟨.noted trivial, .pure⟩
      · exact .pure
  | .field _ object name, he, hl => by
      simp only [Expr.tree, Tree.begins_node, treesBegin_cons, Ident.begins_tree] at he
      rw [typeOf]
      exact .andThen ⟨typeOf_foundIn hs object he.2.1 (lookupsIn_cons_subset hl),
        fieldType_foundIn _ he.2.2.1⟩
  | .unary _ op arg, he, hl => by
      simp only [Expr.tree, Tree.begins_node, treesBegin_cons] at he
      rw [typeOf]
      exact .andThen ⟨typeOf_foundIn hs arg he.2.1 (lookupsIn_cons_subset hl),
        unaryType_foundIn op _ he.1⟩
  | .binary _ op l r, he, hl => by
      simp only [Expr.tree, Tree.begins_node, treesBegin_cons] at he
      obtain ⟨hleft, hright⟩ := lookupsIn_append_subset (lookupsIn_cons_subset hl)
      rw [typeOf]
      exact .andThen ⟨typeOf_foundIn hs l he.2.1 hleft, .andThen
        ⟨typeOf_foundIn hs r he.2.2.1 hright, binaryType_foundIn op _ _ he.1⟩⟩
  | .struct _ name fields, he, hl => by
      simp only [Expr.tree, Tree.begins_node, treesBegin_cons, Ident.begins_tree] at he
      rw [typeOf]
      exact .andThen ⟨fieldTypes_foundIn hs fields he.2.2 (lookupsIn_cons_subset hl),
        structType_foundIn he.1 he.2.1 (fieldTypes_begins s he.2.2)⟩
  | .call span callee args, he, hl => by
      simp only [Expr.tree, Tree.begins_node, treesBegin_cons, Ident.begins_tree] at he
      obtain ⟨hspan, hcallee, hargs⟩ := he
      have hargsLookups := lookupsIn_cons_subset hl
      have htypes := typesOf_foundIn hs args hargs hargsLookups
      have hplaces := typesOf_begins s hargs
      rw [typeOf]
      cases Builtin.ofText? callee.name with
      | none =>
          dsimp only
          split
          · exact .andThen ⟨htypes, .andThen ⟨.reported ⟨hcallee, hs.callable⟩, .pure⟩⟩
          · exact .andThen ⟨.reportIf ⟨hcallee, trivial⟩, .andThen ⟨htypes, .andThen
              ⟨checkArguments_foundIn _ _ hspan hplaces, .pure⟩⟩⟩
      | some b =>
          cases b with
          | print => exact .andThen ⟨printTypes_foundIn hs args hargs hargsLookups, .pure⟩
          | emitSignal =>
              cases args with
              | nil => exact .andThen ⟨.reported ⟨hspan, trivial⟩, .pure⟩
              | cons first rest =>
                  obtain ⟨hfirst, hrest⟩ := treesBegin_cons.mp hargs
                  obtain ⟨hfirstLookups, hrestLookups⟩ := lookupsIn_append_subset hargsLookups
                  have hfound := typeOf_foundIn hs first hfirst hfirstLookups
                  refine .andThen ⟨typesOf_foundIn hs rest hrest hrestLookups, ?_⟩
                  split
                  · exact .andThen ⟨checkEmission_foundIn hs hspan hfirst.start _
                      (typesOf_begins s hrest), .pure⟩
                  · exact .andThen ⟨hfound, .andThen
                      ⟨.reported ⟨Expr.begins_span hfirst, trivial⟩, .pure⟩⟩
          | _ => exact .andThen ⟨htypes, .andThen ⟨checkArguments_foundIn _ _ hspan hplaces, .pure⟩⟩

theorem typesOf_foundIn (hs : s.Within o visible) : ∀ es : List Expr, TreesBegin P (exprTrees es) →
    lookupsIn visible (exprsParts es) ⊆ o.lookups → (typesOf s es).Finds (Finding.FoundIn P o)
  | [], _, _ => .pure
  | e :: es, hes, hl => by
      obtain ⟨hfirst, hrest⟩ := treesBegin_cons.mp hes
      obtain ⟨hfirstLookups, hrestLookups⟩ := lookupsIn_append_subset hl
      rw [typesOf]
      exact .andThen ⟨typeOf_foundIn hs e hfirst hfirstLookups,
        .andThen ⟨typesOf_foundIn hs es hrest hrestLookups, .pure⟩⟩

theorem fieldTypes_foundIn (hs : s.Within o visible) : ∀ fs : List (Ident × Expr),
    TreesBegin P (fieldTrees fs) → lookupsIn visible (fieldsParts fs) ⊆ o.lookups →
      (fieldTypes s fs).Finds (Finding.FoundIn P o)
  | [], _, _ => .pure
  | (_, e) :: rest, hfs, hl => by
      simp only [fieldTrees, treesBegin_cons, Tree.begins_node] at hfs
      obtain ⟨hfirstLookups, hrestLookups⟩ := lookupsIn_append_subset hl
      rw [fieldTypes]
      exact .andThen ⟨typeOf_foundIn hs e hfs.1.2.2.1 hfirstLookups,
        .andThen ⟨fieldTypes_foundIn hs rest hfs.2 hrestLookups, .pure⟩⟩

theorem printTypes_foundIn (hs : s.Within o visible) : ∀ es : List Expr,
    TreesBegin P (exprTrees es) → lookupsIn visible (exprsParts es) ⊆ o.lookups →
      (printTypes s es).Finds (Finding.FoundIn P o)
  | [], _, _ => .pure
  | e :: es, hes, hl => by
      obtain ⟨hfirst, hrest⟩ := treesBegin_cons.mp hes
      obtain ⟨hfirstLookups, hrestLookups⟩ := lookupsIn_append_subset hl
      rw [printTypes]
      exact .andThen ⟨typeOf_foundIn hs e hfirst hfirstLookups,
        .andThen ⟨.reportIf ⟨Expr.begins_span hfirst, trivial⟩,
          printTypes_foundIn hs es hrest hrestLookups⟩⟩

end

/-! ## Statements -/

theorem resolveType_foundIn {ref : TypeRef} (h : P ref.span.start) (allowVoid : Bool) :
    (resolveType ref allowVoid).Finds (Finding.FoundIn P o) := by
  rw [resolveType]
  split
  · exact .andThen ⟨.reported ⟨h, trivial⟩, .pure⟩
  · split
    · exact .andThen ⟨.reported ⟨h, trivial⟩, .pure⟩
    · exact .pure

theorem bindingType_foundIn (hs : s.Within o visible) {declared : Option TypeRef}
    (hdeclared : TreesBegin P (declared.toList.map TypeRef.tree)) {init : Expr}
    (hinit : init.tree.Begins P) (hl : lookupsIn visible init.parts ⊆ o.lookups) (name : Text) :
    (bindingType s declared init name).Finds (Finding.FoundIn P o) := by
  have hspan := Expr.begins_span hinit
  rw [bindingType]
  refine .andThen ⟨typeOf_foundIn hs init hinit hl, ?_⟩
  cases declared with
  | none =>
      dsimp only
      split
      · exact .andThen ⟨.reported ⟨hspan, trivial⟩, .pure⟩
      · exact .pure
  | some ref =>
      have href := (hdeclared _ List.mem_cons_self).start
      exact .andThen ⟨resolveType_foundIn href false,
        .andThen ⟨.reportIf ⟨hspan, trivial⟩, .pure⟩⟩

theorem declare_foundIn {scope : Scope} {v : Variable} {duplicate : Problem}
    (hv : P v.id.span.start) (hduplicate : duplicate.FoundIn o v.id.span) :
    (declare scope v duplicate).Finds (Finding.FoundIn P o) := by
  rw [declare]
  split
  · exact .andThen ⟨.noted hv, .pure⟩
  · exact .andThen ⟨.reported ⟨hv, hduplicate⟩, .pure⟩

/-- A declaration adds one name at most. -/
theorem declare_names (scope : Scope) (v : Variable) (duplicate : Problem) :
    (declare scope v duplicate).value.names ⊆ v.id.name :: scope.names := by
  rw [declare]
  cases hdef : scope.define? v with
  | none => exact List.subset_cons_self _ _
  | some extended =>
      intro name hname
      cases scope with
      | nil =>
          cases hdef
          exact hname
      | cons frame frames =>
          rw [Scope.define?] at hdef
          split at hdef
          · cases hdef
          · cases hdef
            simp only [Check.value_bind, Check.value_pure, Scope.names, List.flatten_cons,
              List.map_append, List.mem_append, List.map_cons, List.map_nil, List.mem_singleton]
              at hname
            rcases hname with (hname | rfl) | hname
            · exact List.mem_cons_of_mem _ (by
                rw [Scope.names, List.flatten_cons, List.map_append]
                exact List.mem_append_left _ hname)
            · exact List.mem_cons_self
            · exact List.mem_cons_of_mem _ (by
                rw [Scope.names, List.flatten_cons, List.map_append]
                exact List.mem_append_right _ hname)

theorem pathType_foundIn : ∀ (path : List Ident) (t : Ty) (throughNode : Bool),
    TreesBegin P (path.map Ident.tree) →
      (pathType t throughNode path).Finds (Finding.FoundIn P o)
  | [], _, _, _ => .pure
  | seg :: rest, t, throughNode, h => by
      obtain ⟨hseg, hrest⟩ := treesBegin_cons.mp h
      rw [pathType]
      exact .andThen ⟨fieldType_foundIn t hseg.start, pathType_foundIn rest _ _ hrest⟩

theorem checkAssigned_foundIn {span : Span} (hspan : P span.start) (target : AssignTarget)
    (op : AssignOp) {value : Expr} (hvalue : P value.span.start) (expected found : Ty) :
    (checkAssigned span target op value expected found).Finds (Finding.FoundIn P o) := by
  rw [checkAssigned]
  split
  · exact .pure
  · split
    · exact .reportIf ⟨hvalue, trivial⟩
    · split
      · exact .pure
      · split
        · exact .reported ⟨hspan, trivial⟩
        · exact .reportIf ⟨hvalue, trivial⟩

theorem checkAssign_foundIn (hs : s.Within o visible) {span : Span} (hspan : P span.start)
    {target : AssignTarget} (htarget : target.tree.Begins P) (op : AssignOp) {value : Expr}
    (hvalue : value.tree.Begins P)
    (hl : lookupsIn visible (target.root.expr :: value.parts) ⊆ o.lookups) :
    (checkAssign s span target op value).Finds (Finding.FoundIn P o) := by
  have hfound := typeOf_foundIn hs value hvalue (lookupsIn_cons_subset hl)
  have hplace := Expr.begins_span hvalue
  have hpath := (treesBegin_cons.mp (Tree.begins_node.mp htarget).2).2
  rw [checkAssign]
  cases hroot : target.root with
  | self selfSpan =>
      dsimp only
      split
      · exact .andThen ⟨.reported ⟨htarget.start, trivial⟩, .andThen ⟨hfound, .pure⟩⟩
      · exact .andThen ⟨pathType_foundIn _ _ _ hpath, .andThen
          ⟨hfound, checkAssigned_foundIn hspan target op hplace _ _⟩⟩
  | name id =>
      have hid : P id.span.start := by
        have hbegin := (treesBegin_cons.mp (Tree.begins_node.mp htarget).2).1
        rw [hroot] at hbegin
        exact hbegin.start
      rw [hroot] at hl
      refine .andThen ⟨lookupVariable_foundIn hs hid (hl List.mem_cons_self), ?_⟩
      split
      · exact .andThen ⟨hfound, .pure⟩
      · exact .andThen ⟨.noted trivial, .andThen ⟨pathType_foundIn _ _ _ hpath, .andThen
          ⟨.reportIf ⟨htarget.start, trivial⟩, .andThen
            ⟨hfound, checkAssigned_foundIn hspan target op hplace _ _⟩⟩⟩⟩

theorem checkCondition_foundIn (hs : s.Within o visible) {test : Expr} (htest : test.tree.Begins P)
    (hl : lookupsIn visible test.parts ⊆ o.lookups) (statement : Conditional) :
    (checkCondition s test statement).Finds (Finding.FoundIn P o) :=
  .andThen ⟨typeOf_foundIn hs test htest hl, .reportIf ⟨Expr.begins_span htest, trivial⟩⟩

theorem checkReturn_foundIn (hs : s.Within o visible) {span : Span} (hspan : P span.start)
    {value : Option Expr} (hvalue : TreesBegin P (value.toList.map Expr.tree))
    (hl : (Stmt.ret span value : Stmt Unit).lookups visible ⊆ o.lookups) :
    (checkReturn s owner span value).Finds (Finding.FoundIn P o) := by
  unfold checkReturn
  cases value with
  | none => exact .reportIf ⟨hspan, trivial⟩
  | some e =>
      have he := hvalue _ List.mem_cons_self
      refine .andThen ⟨typeOf_foundIn hs e he hl, ?_⟩
      split
      · exact .reported ⟨Expr.begins_span he, trivial⟩
      · exact .reportIf ⟨Expr.begins_span he, trivial⟩

/-- Behind a statement the names are in sight that it introduces. -/
theorem checkStmt_within (hs : s.Within o visible) (st : Stmt Unit) :
    Surroundings.Within o (st.introduced ++ visible)
      { s with scope := (checkStmt s owner st).value.2 } := by
  refine ⟨hs.functions, hs.signals, ?_⟩
  cases st with
  | bind span name mutable declared init data =>
      rw [checkStmt]
      exact List.Subset.trans (declare_names _ _ _) (List.cons_subset_cons _ hs.scope)
  | _ =>
      rw [checkStmt]
      exact hs.scope

mutual

/-- What is found in a statement begins in it, and chooses from what is on offer. -/
theorem checkStmt_foundIn {s : Surroundings} {visible : List Text}
    (hs : s.Within o visible) : ∀ st : Stmt Unit, st.tree.Begins P →
    st.lookups visible ⊆ o.lookups → (checkStmt s owner st).Finds (Finding.FoundIn P o)
  | .block b, h, hl => by
      rw [checkStmt]
      exact .andThen ⟨checkBlock_foundIn hs b h hl, .pure⟩
  | .bind _ name _ declared init _, h, hl => by
      simp only [Stmt.tree, Tree.begins_node, treesBegin_append, treesBegin_cons,
        Ident.begins_tree] at h
      obtain ⟨-, ⟨⟨hname, -⟩, hdeclared⟩, hinit, -⟩ := h
      rw [checkStmt]
      exact .andThen ⟨bindingType_foundIn hs hdeclared hinit hl _, .andThen ⟨.noted trivial,
        .andThen ⟨declare_foundIn hname trivial, .pure⟩⟩⟩
  | .assign _ _ op _, h, hl => by
      simp only [Stmt.tree, Tree.begins_node, treesBegin_cons] at h
      rw [checkStmt]
      exact .andThen ⟨checkAssign_foundIn hs h.1 h.2.1 op h.2.2.1 hl, .pure⟩
  | .cond c, h, hl => by
      rw [checkStmt]
      exact .andThen ⟨checkCond_foundIn hs c h hl, .pure⟩
  | .loop _ _ body, h, hl => by
      simp only [Stmt.tree, Tree.begins_node, treesBegin_cons] at h
      obtain ⟨htest, hbody⟩ := List.append_subset.mp hl
      rw [checkStmt]
      exact .andThen ⟨checkCondition_foundIn hs h.2.1 htest _,
        .andThen ⟨checkBlock_foundIn hs body h.2.2.1 hbody, .pure⟩⟩
  | .ret _ _, h, hl => by
      rw [checkStmt]
      exact .andThen ⟨checkReturn_foundIn hs h.start (Tree.begins_node.mp h).2 hl, .pure⟩
  | .eval _ e, h, hl => by
      simp only [Stmt.tree, Tree.begins_node, treesBegin_cons] at h
      rw [checkStmt]
      exact .andThen ⟨typeOf_foundIn hs e h.2.1 hl, .pure⟩

theorem checkBlock_foundIn {s : Surroundings} {visible : List Text}
    (hs : s.Within o visible) : ∀ b : Block Unit, b.tree.Begins P →
    b.lookups visible ⊆ o.lookups → (checkBlock s owner b).Finds (Finding.FoundIn P o)
  | .mk _ body, h, hl => by
      have hinner : Surroundings.Within o visible { s with scope := [] :: s.scope } :=
        ⟨hs.functions, hs.signals, hs.scope⟩
      rw [checkBlock]
      exact .andThen ⟨checkStmts_foundIn hinner body (Tree.begins_node.mp h).2 hl, .pure⟩

theorem checkCond_foundIn {s : Surroundings} {visible : List Text}
    (hs : s.Within o visible) : ∀ c : Cond Unit, c.tree.Begins P →
    c.lookups visible ⊆ o.lookups → (checkCond s owner c).Finds (Finding.FoundIn P o)
  | .mk _ _ consequent alternate, h, hl => by
      simp only [Cond.tree, Tree.begins_node, treesBegin_cons] at h
      obtain ⟨hfirst, halternate⟩ := List.append_subset.mp hl
      obtain ⟨htest, hconsequent⟩ := List.append_subset.mp hfirst
      rw [checkCond]
      exact .andThen ⟨checkCondition_foundIn hs h.2.1 htest _,
        .andThen ⟨checkBlock_foundIn hs consequent h.2.2.1 hconsequent,
          .andThen ⟨checkElse_foundIn hs alternate h.2.2.2 halternate, .pure⟩⟩⟩

theorem checkElse_foundIn {s : Surroundings} {visible : List Text}
    (hs : s.Within o visible) : ∀ a : Else Unit, TreesBegin P a.trees →
    a.lookups visible ⊆ o.lookups → (checkElse s owner a).Finds (Finding.FoundIn P o)
  | .absent, _, _ => .pure
  | .block b, h, hl => by
      rw [checkElse]
      exact .andThen ⟨checkBlock_foundIn hs b (h _ List.mem_cons_self) hl, .pure⟩
  | .cond c, h, hl => by
      rw [checkElse]
      exact .andThen ⟨checkCond_foundIn hs c (h _ List.mem_cons_self) hl, .pure⟩

theorem checkStmts_foundIn {s : Surroundings} {visible : List Text}
    (hs : s.Within o visible) : ∀ body : List (Stmt Unit),
    TreesBegin P (stmtTrees body) → stmtsLookups visible body ⊆ o.lookups →
      (checkStmts s owner body).Finds (Finding.FoundIn P o)
  | [], _, _ => .pure
  | st :: rest, h, hl => by
      obtain ⟨hst, hrest⟩ := treesBegin_cons.mp h
      obtain ⟨hfirst, hmore⟩ := List.append_subset.mp hl
      rw [checkStmts]
      exact .andThen ⟨checkStmt_foundIn hs st hst hfirst,
        .andThen ⟨checkStmts_foundIn (checkStmt_within hs st) rest hrest hmore, .pure⟩⟩

end

/-! ## Signatures -/

theorem Param.begins_tree {param : Param} (h : param.tree.Begins P) :
    P param.name.span.start ∧ P param.declared.span.start := by
  simp only [Param.tree, Tree.begins_node, treesBegin_cons, Ident.begins_tree,
    TypeRef.begins_tree] at h
  exact ⟨h.2.1, h.2.2.1⟩

theorem signalParams_foundIn (signal : Text) : ∀ (seen : List Text) (ps : List Param),
    TreesBegin P (ps.map Param.tree) →
      (signalParams signal seen ps).Finds (Finding.FoundIn P o)
  | _, [], _ => .pure
  | _, param :: ps, h => by
      obtain ⟨hparam, hps⟩ := treesBegin_cons.mp h
      obtain ⟨hname, htype⟩ := Param.begins_tree hparam
      rw [signalParams]
      exact .andThen ⟨.reportIf ⟨hname, trivial⟩, .andThen ⟨resolveType_foundIn htype false,
        .andThen ⟨signalParams_foundIn signal _ ps hps, .pure⟩⟩⟩

theorem collectSignals_foundIn : ∀ (seen : List Text) (ds : List SignalDecl),
    (∀ d ∈ ds, (Declaration.signal d : Declaration Unit).tree.Begins P) →
      (collectSignals seen ds).Finds (Finding.FoundIn P o)
  | _, [], _ => .pure
  | _, d :: ds, h => by
      obtain ⟨hd, hds⟩ := List.forall_mem_cons.mp h
      simp only [Declaration.tree, Tree.begins_node, treesBegin_cons, Ident.begins_tree] at hd
      rw [collectSignals]
      split
      · exact .andThen ⟨.reported ⟨hd.2.1, trivial⟩, collectSignals_foundIn _ ds hds⟩
      · exact .andThen ⟨signalParams_foundIn _ [] d.params hd.2.2,
          .andThen ⟨collectSignals_foundIn _ ds hds, .pure⟩⟩

/-- The signals that exist are declared. -/
theorem collectSignals_names : ∀ (seen : List Text) (ds : List SignalDecl),
    (collectSignals seen ds).value.map Signal.name ⊆ ds.map SignalDecl.key
  | _, [] => List.Subset.refl _
  | seen, d :: ds => by
      rw [collectSignals]
      split
      · exact List.Subset.trans (collectSignals_names seen ds) (List.subset_cons_self _ _)
      · exact List.cons_subset_cons _ (collectSignals_names _ ds)

theorem paramTypes_foundIn : ∀ ps : List Param, TreesBegin P (ps.map Param.tree) →
    (paramTypes ps).Finds (Finding.FoundIn P o)
  | [], _ => .pure
  | param :: ps, h => by
      obtain ⟨hparam, hps⟩ := treesBegin_cons.mp h
      rw [paramTypes]
      exact .andThen ⟨resolveType_foundIn (Param.begins_tree hparam).2 false,
        .andThen ⟨paramTypes_foundIn ps hps, .pure⟩⟩

/-- The nodes of a function. -/
theorem FunctionDecl.begins_tree {f : FunctionDecl Unit}
    (h : (Declaration.function f).tree.Begins P) :
    P f.name.span.start ∧ TreesBegin P (f.params.map Param.tree) ∧
      TreesBegin P (f.returns.toList.map TypeRef.tree) ∧ f.body.tree.Begins P := by
  simp only [Declaration.tree, Tree.begins_node, treesBegin_append, treesBegin_cons,
    Ident.begins_tree] at h
  obtain ⟨-, ⟨⟨⟨hname, -⟩, hparams⟩, hreturns⟩, hbody, -⟩ := h
  exact ⟨hname, hparams, hreturns, hbody⟩

theorem signatureOf_foundIn {f : FunctionDecl Unit}
    (h : (Declaration.function f).tree.Begins P) :
    (signatureOf f).Finds (Finding.FoundIn P o) := by
  obtain ⟨-, hparams, hreturns, -⟩ := FunctionDecl.begins_tree h
  rw [signatureOf]
  refine .andThen ⟨paramTypes_foundIn f.params hparams, ?_⟩
  cases hr : f.returns with
  | none => exact .pure
  | some ref =>
      rw [hr] at hreturns
      exact .andThen ⟨resolveType_foundIn (hreturns _ List.mem_cons_self).start true, .pure⟩

theorem collectFunctions_foundIn : ∀ (seen : List Text) (fs : List (FunctionDecl Unit)),
    (∀ f ∈ fs, (Declaration.function f).tree.Begins P) →
      (collectFunctions seen fs).Finds (Finding.FoundIn P o)
  | _, [], _ => .pure
  | seen, f :: fs, h => by
      obtain ⟨hf, hfs⟩ := List.forall_mem_cons.mp h
      have hname := (FunctionDecl.begins_tree hf).1
      rw [collectFunctions]
      split
      · exact .andThen ⟨.reported ⟨hname, trivial⟩,
          .andThen ⟨collectFunctions_foundIn seen fs hfs, .pure⟩⟩
      · split
        · exact .andThen ⟨.reported ⟨hname, trivial⟩,
            .andThen ⟨collectFunctions_foundIn seen fs hfs, .pure⟩⟩
        · refine .andThen ⟨signatureOf_foundIn hf, ?_⟩
          have hrest : (collectFunctions (f.name.name :: seen) fs).Finds (Finding.FoundIn P o) :=
            collectFunctions_foundIn _ fs hfs
          split
          · exact .andThen ⟨.reportIf ⟨hname, trivial⟩, .andThen ⟨hrest, .pure⟩⟩
          · exact .andThen ⟨hrest, .pure⟩

/-- The functions that can be called are declared. -/
theorem collectFunctions_names : ∀ (seen : List Text) (fs : List (FunctionDecl Unit)),
    ((collectFunctions seen fs).value.filterMap Prod.snd).map Signature.name ⊆
      fs.map FunctionDecl.key
  | _, [] => List.Subset.refl _
  | seen, f :: fs => by
      have hskip : ((collectFunctions seen fs).value.filterMap Prod.snd).map Signature.name ⊆
          (f :: fs).map FunctionDecl.key :=
        List.Subset.trans (collectFunctions_names seen fs) (List.subset_cons_self _ _)
      rw [collectFunctions]
      split
      · exact hskip
      · split
        · exact hskip
        · have htake : (signatureOf f).value.name ::
              ((collectFunctions (f.name.name :: seen) fs).value.filterMap Prod.snd).map
                Signature.name ⊆ (f :: fs).map FunctionDecl.key := by
            rw [signatureOf_name, List.map_cons]
            exact List.cons_subset_cons _ (collectFunctions_names _ fs)
          cases Lifecycle.ofFunction? f.name.name <;> exact htake

/-! ## Globals -/

theorem rangeNumbers_foundIn (type : Ty) : ∀ args : List Expr, TreesBegin P (exprTrees args) →
    (rangeNumbers type args).Finds (Finding.FoundIn P o)
  | [], _ => .pure
  | arg :: rest, h => by
      obtain ⟨harg, hrest⟩ := treesBegin_cons.mp h
      rw [rangeNumbers]
      split
      · exact .andThen ⟨rangeNumbers_foundIn type rest hrest, .pure⟩
      · exact .andThen ⟨.reported ⟨Expr.begins_span harg, trivial⟩, .pure⟩

theorem begins_getElem {args : List Expr} (h : TreesBegin P (exprTrees args)) {n : Nat} {arg : Expr}
    (harg : args[n]? = some arg) : P arg.span.start := by
  induction args generalizing n with
  | nil => simp at harg
  | cons first rest ih =>
      obtain ⟨hfirst, hrest⟩ := treesBegin_cons.mp h
      cases n with
      | zero =>
          cases harg
          exact Expr.begins_span hfirst
      | succ n => exact ih hrest harg

theorem rangeHint_foundIn {hint : HintCall} (h : hint.tree.Begins P) (type : Ty) :
    (rangeHint hint type).Finds (Finding.FoundIn P o) := by
  have hargs := (treesBegin_cons.mp (Tree.begins_node.mp h).2).2
  have hspan : P hint.span.start := h.start
  have hstep : P ((hint.args[2]?.map Expr.span).getD hint.span).start := by
    cases harg : hint.args[2]? with
    | none => exact hspan
    | some arg => exact begins_getElem hargs harg
  rw [rangeHint]
  split
  · exact .andThen ⟨.reported ⟨hspan, trivial⟩, .pure⟩
  · split
    · exact .andThen ⟨.reported ⟨hspan, trivial⟩, .pure⟩
    · refine .andThen ⟨rangeNumbers_foundIn type hint.args hargs, ?_⟩
      split
      · split
        · exact .andThen ⟨.reported ⟨hspan, trivial⟩, .pure⟩
        · dsimp only
          split
          · exact .andThen ⟨.reported ⟨hstep, trivial⟩, .pure⟩
          · exact .pure
      · exact .pure

theorem listedTexts_foundIn (hint : Text) : ∀ args : List Expr, TreesBegin P (exprTrees args) →
    (listedTexts hint args).Finds (Finding.FoundIn P o)
  | [], _ => .pure
  | arg :: rest, h => by
      obtain ⟨harg, hrest⟩ := treesBegin_cons.mp h
      rw [listedTexts]
      split
      · exact .andThen ⟨listedTexts_foundIn hint rest hrest, .pure⟩
      · exact .andThen ⟨.reported ⟨Expr.begins_span harg, trivial⟩, .pure⟩

theorem hintTexts_foundIn {hint : HintCall} (h : hint.tree.Begins P) :
    (hintTexts hint).Finds (Finding.FoundIn P o) := by
  have hargs := (treesBegin_cons.mp (Tree.begins_node.mp h).2).2
  rw [hintTexts]
  split
  · exact .andThen ⟨.reported ⟨h.start, trivial⟩, .pure⟩
  · exact listedTexts_foundIn _ hint.args hargs

theorem checkHint_foundIn {hint : HintCall} (h : hint.tree.Begins P) (type : Ty) :
    (checkHint hint type).Finds (Finding.FoundIn P o) := by
  have hspan : P hint.span.start := h.start
  have hname : P hint.name.span.start := (treesBegin_cons.mp (Tree.begins_node.mp h).2).1.start
  have htexts := hintTexts_foundIn (o := o) h
  rw [checkHint]
  split
  · exact rangeHint_foundIn h type
  · split
    · split
      · exact .andThen ⟨htexts, .pure⟩
      · exact .andThen ⟨.reported ⟨hspan, trivial⟩, .pure⟩
    · split
      · split
        · exact .andThen ⟨htexts, .pure⟩
        · exact .andThen ⟨.reported ⟨hspan, trivial⟩, .pure⟩
      · exact .andThen ⟨.reported ⟨hname, trivial⟩, .pure⟩

theorem checkExport_foundIn {mark : ExportMark} (hmark : mark.tree.Begins P) {g : GlobalDecl}
    (hname : P g.name.span.start) (hinit : P g.init.span.start) (type : Ty) :
    (checkExport mark g type).Finds (Finding.FoundIn P o) := by
  have hhint : ∀ h, mark.hint = some h → h.tree.Begins P := fun h hm => by
    have hcall := (Tree.begins_node.mp hmark).2
    rw [hm] at hcall
    exact hcall _ List.mem_cons_self
  rw [checkExport]
  refine .andThen ⟨.reportIf ⟨hname, trivial⟩, ?_⟩
  split
  · exact .pure
  · split
    · exact .andThen ⟨.reported ⟨hname, trivial⟩, .pure⟩
    · refine .andThen ⟨.reportIf ⟨hinit, trivial⟩, ?_⟩
      dsimp only
      split
      case' h_1 h hm => refine .andThen ⟨checkHint_foundIn (hhint h hm) type, ?_⟩
      case' h_2 => refine .andThen ⟨.pure, ?_⟩
      -- With a hint or without one, the default has to be on its list.
      all_goals
        split
        · split
          · exact .pure
          · exact .andThen ⟨.reported ⟨hinit, trivial⟩, .pure⟩
        · exact .pure
        · exact .pure

theorem GlobalDecl.begins_tree {g : GlobalDecl}
    (h : (Declaration.global g : Declaration Unit).tree.Begins P) :
    TreesBegin P (g.exported.toList.map ExportMark.tree) ∧ P g.name.span.start ∧
      TreesBegin P (g.declared.toList.map TypeRef.tree) ∧ g.init.tree.Begins P := by
  simp only [Declaration.tree, Tree.begins_node, treesBegin_append, treesBegin_cons,
    Ident.begins_tree] at h
  obtain ⟨-, ⟨⟨hexported, hname, -⟩, hdeclared⟩, hinit, -⟩ := h
  exact ⟨hexported, hname, hdeclared, hinit⟩

theorem names_declared (before : List GlobalInfo) :
    Scope.names [before.map GlobalInfo.declared] = before.map GlobalInfo.name := by
  rw [Scope.names, List.flatten_singleton, List.map_map]
  rfl

variable {functions : List Signature} {signals : List Signal}

/-- Each global is checked in sight of those before it. -/
theorem checkGlobals_foundIn (hfunctions : functions.map Signature.name ⊆ o.functions)
    (hsignals : signals.map Signal.name ⊆ o.signals) : ∀ (gs : List GlobalDecl)
    (before : List GlobalInfo) (visible : List Text), before.map GlobalInfo.name ⊆ visible →
    (∀ g ∈ gs, (Declaration.global g : Declaration Unit).tree.Begins P) →
    globalsLookups visible gs ⊆ o.lookups →
      (checkGlobals functions signals before gs).Finds (Finding.FoundIn P o)
  | [], _, _, _, _, _ => .pure
  | g :: gs, before, visible, hbefore, htrees, hl => by
      obtain ⟨hg, hgs⟩ := List.forall_mem_cons.mp htrees
      obtain ⟨hexported, hname, hdeclared, hinit⟩ := GlobalDecl.begins_tree hg
      obtain ⟨hown, hmore⟩ := List.append_subset.mp hl
      have hs : Surroundings.Within o visible
          ⟨functions, signals, true, [before.map GlobalInfo.declared]⟩ :=
        ⟨hfunctions, hsignals, (names_declared before).symm ▸ hbefore⟩
      have hkept : before.map GlobalInfo.name ⊆ visible ++ [g.name.name] :=
        List.subset_append_of_subset_left _ hbefore
      rw [checkGlobals]
      refine .andThen ⟨bindingType_foundIn hs hdeclared hinit hown _, .andThen ⟨.noted trivial, ?_⟩⟩
      split
      · exact .andThen ⟨.reported ⟨hname, trivial⟩,
          checkGlobals_foundIn hfunctions hsignals gs before _ hkept hgs hmore⟩
      · have hadded : ∀ info : GlobalInfo, info.decl = g →
            (before ++ [info]).map GlobalInfo.name ⊆ visible ++ [g.name.name] := by
          rintro info rfl
          rw [List.map_append]
          exact List.append_subset.mpr ⟨hkept, List.subset_append_right _ _⟩
        refine .andThen ⟨.noted hname, ?_⟩
        dsimp only
        split
        · next mark hmark =>
            rw [hmark] at hexported
            exact .andThen ⟨checkExport_foundIn (hexported _ List.mem_cons_self) hname
              (Expr.begins_span hinit) _,
              checkGlobals_foundIn hfunctions hsignals gs _ _ (hadded _ rfl) hgs hmore⟩
        · exact .andThen ⟨.pure,
            checkGlobals_foundIn hfunctions hsignals gs _ _ (hadded _ rfl) hgs hmore⟩

/-- The globals that exist are declared. -/
theorem checkGlobals_names : ∀ (gs : List GlobalDecl) (before : List GlobalInfo),
    (checkGlobals functions signals before gs).value.map GlobalInfo.name ⊆
      before.map GlobalInfo.name ++ gs.map fun g => g.name.name
  | [], before => List.subset_append_left _ _
  | g :: gs, before => by
      rw [checkGlobals]
      simp only [Check.value_bind]
      split
      · refine List.Subset.trans (checkGlobals_names gs before) ?_
        exact List.append_subset.mpr ⟨List.subset_append_left _ _,
          List.subset_append_of_subset_right _ (List.subset_cons_self _ _)⟩
      · split
        all_goals
          refine List.Subset.trans (checkGlobals_names gs _) ?_
          rw [List.map_append, List.append_assoc]
          exact List.Subset.refl _

/-! ## Bodies -/

theorem declareParams_foundIn (owner : Signature) : ∀ (ps : List Param) (scope : Scope)
    (types : List TypedName), TreesBegin P (ps.map Param.tree) →
      (declareParams owner scope ps types).Finds (Finding.FoundIn P o)
  | [], _, _, _ => .pure
  | param :: ps, _, types, h => by
      obtain ⟨hparam, hps⟩ := treesBegin_cons.mp h
      rw [declareParams]
      exact .andThen ⟨.noted trivial, .andThen
        ⟨declare_foundIn (Param.begins_tree hparam).1 trivial,
          declareParams_foundIn owner ps _ types.tail hps⟩⟩

/-- Parameters add their names. -/
theorem declareParams_names (owner : Signature) : ∀ (ps : List Param) (scope : Scope)
    (types : List TypedName), (declareParams owner scope ps types).value.names ⊆
      ps.map (fun param => param.name.name) ++ scope.names
  | [], _, _ => List.Subset.refl _
  | param :: ps, scope, types => by
      rw [declareParams]
      refine List.Subset.trans (declareParams_names owner ps _ types.tail) ?_
      intro name hname
      rcases List.mem_append.mp hname with hname | hname
      · exact List.mem_cons_of_mem _ (List.mem_append_left _ hname)
      · rcases List.mem_cons.mp (declare_names _ _ _ hname) with rfl | hname
        · exact List.mem_cons_self
        · exact List.mem_cons_of_mem _ (List.mem_append_right _ hname)

theorem checkBody_foundIn (hs : s.Within o visible) {f : FunctionDecl Unit}
    (h : (Declaration.function f).tree.Begins P)
    (hl : stmtsLookups (f.params.map (fun param => param.name.name) ++ visible) f.body.body ⊆
      o.lookups) :
    (checkBody s owner f).Finds (Finding.FoundIn P o) := by
  obtain ⟨hname, hparams, -, hbody⟩ := FunctionDecl.begins_tree h
  have hinner : Surroundings.Within o (f.params.map (fun param => param.name.name) ++ visible)
      { s with scope := (declareParams owner ([] :: s.scope) f.params owner.params).value } := by
    refine ⟨hs.functions, hs.signals, List.Subset.trans (declareParams_names owner _ _ _) ?_⟩
    exact List.append_subset.mpr ⟨List.subset_append_left _ _,
      List.subset_append_of_subset_right _ hs.scope⟩
  have hstmts : TreesBegin P (stmtTrees f.body.body) := by
    cases hf : f.body with
    | mk span body =>
        rw [hf] at hbody
        exact (Tree.begins_node.mp hbody).2
  rw [checkBody]
  exact .andThen ⟨declareParams_foundIn owner f.params _ _ hparams, .andThen
    ⟨checkStmts_foundIn hinner _ hstmts hl, .andThen ⟨.reportIf ⟨hname, trivial⟩, .pure⟩⟩⟩

theorem checkBodies_foundIn (hs : s.Within o visible) :
    ∀ collected : List (FunctionDecl Unit × Option Signature),
    (∀ f ∈ collected.map Prod.fst, (Declaration.function f).tree.Begins P ∧
      stmtsLookups (f.params.map (fun param => param.name.name) ++ visible) f.body.body ⊆
        o.lookups) →
      (checkBodies s collected).Finds (Finding.FoundIn P o)
  | [], _ => .pure
  | (f, signature) :: rest, h => by
      obtain ⟨⟨hf, hl⟩, hrest⟩ := List.forall_mem_cons.mp h
      rw [checkBodies]
      refine .andThen ⟨checkBody_foundIn hs hf hl, .andThen ⟨checkBodies_foundIn hs rest hrest, ?_⟩⟩
      split
      · exact .pure
      · exact .pure

/-! ## Whole scripts -/

/-- The declarations of one sort among those of a script. -/
theorem begins_sort {γ : Type} {p : Program Unit} (h : p.tree.Begins P)
    {sort : Declaration Unit → Option γ} {mk : γ → Declaration Unit}
    (hsort : ∀ d x, sort d = some x → d = mk x) :
    ∀ x ∈ p.body.filterMap sort, (mk x).tree.Begins P := by
  intro x hx
  obtain ⟨d, hd, heq⟩ := List.mem_filterMap.mp hx
  rw [← hsort d x heq]
  exact (Tree.begins_node.mp h).2 _ (List.mem_map_of_mem hd)

theorem begins_function {p : Program Unit} (h : p.tree.Begins P) :
    ∀ f ∈ p.functions, (Declaration.function f).tree.Begins P :=
  begins_sort h fun decl _ heq => by cases decl <;> cases heq; rfl

/-- What is found in a script begins where a node of it does, and the names that a problem chooses
    from are names that the script offers: a variable is in sight there, a function or a signal is
    declared. -/
theorem checkProgram_foundIn {p : Program Unit} (h : p.tree.Begins P) :
    ∀ f ∈ (checkProgram p).findings, f.FoundIn P p.offer := by
  have hsignals : ∀ d ∈ p.signals, (Declaration.signal d : Declaration Unit).tree.Begins P :=
    begins_sort h fun decl _ heq => by cases decl <;> cases heq; rfl
  have hfunctions := begins_function h
  have hglobals : ∀ g ∈ p.globals, (Declaration.global g : Declaration Unit).tree.Begins P :=
    begins_sort h fun decl _ heq => by cases decl <;> cases heq; rfl
  have hnames : (p.collected.value.filterMap Prod.snd).map Signature.name ⊆ p.offer.functions :=
    collectFunctions_names [] p.functions
  have hdeclared : p.declared.value.map Signal.name ⊆ p.offer.signals :=
    collectSignals_names [] p.signals
  have hsurroundings : (p.surroundings false
      [p.checkedGlobals.value.map GlobalInfo.declared]).Within p.offer p.globalNames := by
    refine ⟨hnames, hdeclared, ?_⟩
    rw [Program.surroundings, names_declared]
    exact checkGlobals_names p.globals []
  have hbodies : ∀ f ∈ p.collected.value.map Prod.fst, (Declaration.function f).tree.Begins P ∧
      stmtsLookups (f.params.map (fun param => param.name.name) ++ p.globalNames) f.body.body ⊆
        p.offer.lookups := by
    intro f hf
    rw [Program.collected, collectFunctions_fst] at hf
    refine ⟨hfunctions f hf, fun x hx => List.mem_append_right _ ?_⟩
    exact List.mem_flatMap.mpr ⟨f, hf, hx⟩
  rw [Program.checkProgram_eq]
  intro f hf
  simp only [List.append_nil, List.mem_append] at hf
  rcases hf with hf | hf | hf | hf
  · exact collectSignals_foundIn [] p.signals hsignals f hf
  · exact collectFunctions_foundIn [] p.functions hfunctions f hf
  · exact checkGlobals_foundIn hnames hdeclared p.globals [] [] (List.Subset.refl _) hglobals
      (List.subset_append_left _ _) f hf
  · exact checkBodies_foundIn hsurroundings _ hbodies f hf

end SceneScript
