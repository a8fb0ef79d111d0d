import SceneScript.Proofs.Typing.Edited

/-!
# Variables that need no `mut`

The flag `mut` of a local variable is read in one place only, where the variable itself is assigned;
and whoever assigns it leaves a note. So where no note about a variable is found its flag may go:
every expression keeps its type, every statement its findings, and of the warnings none is new.

* **`LetEdit.freeze`** — the change that takes `mut` away from chosen variables;
  **`Scope.freeze`** — the names that are visible then.
* **`typeOf_freeze`** — expressions keep their types.
* **`Check.Frozen`** — checks of code before and after the change, when nothing chosen is assigned;
  **`checkStmt_freeze`**, **`checkBody_freeze`** — statements and bodies are checked like that.
* **`checkProgram_freeze`** — so are whole scripts; **`lint_freeze`** — no warning is new.
-/

namespace SceneScript

variable {α β γ : Type} {chosen : Ident → Bool}

/-! ## The change -/

/-- Chosen variables lose their `mut`. -/
def LetEdit.freeze (chosen : Ident → Bool) : LetEdit β β :=
  ⟨fun id m => m && !chosen id, fun _ e => e, fun b => b⟩

/-- A variable after the change, which is about local ones. -/
def Variable.freeze (chosen : Ident → Bool) (v : Variable) : Variable :=
  { v with mutable := v.mutable && !(v.kind == .local && chosen v.id) }

/-- The visible variables after the change. -/
def Scope.freeze (chosen : Ident → Bool) (scope : Scope) : Scope :=
  scope.map fun frame => frame.map (Variable.freeze chosen)

/-- What code sees after the change. -/
def Surroundings.freeze (chosen : Ident → Bool) (s : Surroundings) : Surroundings :=
  { s with scope := s.scope.freeze chosen }

/-! ## What is visible -/

theorem Variable.freeze_of_not_local {v : Variable} (h : v.kind ≠ .local) :
    v.freeze chosen = v := by
  rw [freeze, beq_eq_false_iff_ne.mpr h, Bool.false_and, Bool.not_false, Bool.and_true]

theorem Variable.mutable_freeze {v : Variable} (h : chosen v.id = false) :
    (v.freeze chosen).mutable = v.mutable := by
  rw [freeze, h, Bool.and_false, Bool.not_false, Bool.and_true]

namespace Scope

theorem inFrame?_freeze (name : Text) (frame : List Variable) :
    inFrame? name (frame.map (Variable.freeze chosen)) =
      (inFrame? name frame).map (Variable.freeze chosen) :=
  List.find?_map

theorem find?_freeze (scope : Scope) (name : Text) :
    (scope.freeze chosen).find? name = (scope.find? name).map (Variable.freeze chosen) := by
  rw [find?, freeze, List.findSome?_map, find?, List.map_findSome?]
  congr 1
  exact funext fun frame => inFrame?_freeze name frame

theorem names_freeze (scope : Scope) : (scope.freeze chosen).names = scope.names := by
  rw [names, freeze, ← List.map_flatten, List.map_map]
  rfl

theorem define?_freeze (scope : Scope) (v : Variable) :
    (scope.freeze chosen).define? (v.freeze chosen) =
      (scope.define? v).map (Scope.freeze chosen) := by
  cases scope with
  | nil => rfl
  | cons frame frames =>
      have hframe : inFrame? (v.freeze chosen).id.name (frame.map (Variable.freeze chosen)) =
          (inFrame? v.id.name frame).map (Variable.freeze chosen) := inFrame?_freeze _ frame
      rw [freeze, List.map_cons, define?, define?, hframe, Option.isSome_map]
      split
      · rfl
      · rw [Option.map_some, freeze, List.map_cons, List.map_append]
        rfl

/-- A frame of variables that are not local stays as it is. -/
theorem freeze_of_not_local {frame : List Variable} (h : ∀ v ∈ frame, v.kind ≠ .local) :
    Scope.freeze chosen [frame] = [frame] :=
  congrArg (fun kept => [kept])
    ((List.map_congr_left fun v hv => Variable.freeze_of_not_local (h v hv)).trans (List.map_id _))

end Scope

/-! ## Expressions -/

variable (s : Surroundings)

theorem lookupVariable_freeze (id : Ident) :
    lookupVariable (s.freeze chosen).scope id =
      (do return (← lookupVariable s.scope id).map (Variable.freeze chosen)) := by
  rw [lookupVariable, lookupVariable, Surroundings.freeze, Scope.find?_freeze, Scope.names_freeze]
  cases s.scope.find? id.name <;> rfl

mutual

theorem typeOf_freeze : ∀ e : Expr, typeOf (s.freeze chosen) e = typeOf s e
  | .int _ _ _ => rfl
  | .float _ _ _ => rfl
  | .bool _ _ => rfl
  | .string _ _ => rfl
  | .self _ => rfl
  | .ident id => by
      rw [typeOf, typeOf, lookupVariable_freeze]
      simp only [bind_assoc, pure_bind]
      congr 1
      funext found
      cases found <;> rfl
  | .field _ object name => by rw [typeOf, typeOf, typeOf_freeze object]
  | .unary _ _ arg => by rw [typeOf, typeOf, typeOf_freeze arg]
  | .binary _ _ left right => by rw [typeOf, typeOf, typeOf_freeze left, typeOf_freeze right]
  | .struct _ _ fields => by rw [typeOf, typeOf, fieldTypes_freeze fields]
  | .call span callee args => by
      rw [typeOf, typeOf]
      cases Builtin.ofText? callee.name with
      | none =>
          simp only [typesOf_freeze args]
          rfl
      | some b =>
          cases b with
          | print => simp only [printTypes_freeze args]
          | emitSignal =>
              cases args with
              | nil => rfl
              | cons first rest =>
                  simp only [typesOf_freeze rest]
                  have hfirst := typeOf_freeze first
                  cases first with
                  | string nameSpan name => rfl
                  | _ => simp only [hfirst]
          | _ => simp only [typesOf_freeze args]

theorem typesOf_freeze : ∀ es : List Expr, typesOf (s.freeze chosen) es = typesOf s es
  | [] => rfl
  | e :: es => by rw [typesOf, typesOf, typeOf_freeze e, typesOf_freeze es]

theorem fieldTypes_freeze : ∀ fields : List (Ident × Expr),
    fieldTypes (s.freeze chosen) fields = fieldTypes s fields
  | [] => rfl
  | (_, e) :: rest => by rw [fieldTypes, fieldTypes, typeOf_freeze e, fieldTypes_freeze rest]

theorem printTypes_freeze : ∀ es : List Expr, printTypes (s.freeze chosen) es = printTypes s es
  | [] => rfl
  | e :: es => by rw [printTypes, printTypes, typeOf_freeze e, printTypes_freeze es]

end

theorem bindingType_freeze (declared : Option TypeRef) (init : Expr) (name : Text) :
    bindingType (s.freeze chosen) declared init name = bindingType s declared init name := by
  rw [bindingType, bindingType, typeOf_freeze]

theorem checkCondition_freeze (test : Expr) (statement : Conditional) :
    checkCondition (s.freeze chosen) test statement = checkCondition s test statement := by
  rw [checkCondition, checkCondition, typeOf_freeze]

theorem checkReturn_freeze (owner : Signature) (span : Span) (value : Option Expr) :
    checkReturn (s.freeze chosen) owner span value = checkReturn s owner span value := by
  cases value with
  | none => rfl
  | some e => rw [checkReturn, checkReturn, typeOf_freeze]

/-! ## Checks before and after the change -/

/-- None of the chosen variables is assigned. -/
def Unassigned (chosen : Ident → Bool) (found : List Finding) : Prop :=
  ∀ id, chosen id = true → Finding.written id ∉ found

/-- What becomes of a finding: a declared variable may have lost its `mut`. -/
inductive Finding.Frozen (chosen : Ident → Bool) : Finding → Finding → Prop where
  | same (f : Finding) : Frozen chosen f f
  | declared (v : Variable) : Frozen chosen (.declared v) (.declared (v.freeze chosen))

/-- What becomes of a check when nothing chosen is assigned in it: its value changes by `F`. -/
def Check.Frozen (chosen : Ident → Bool) (F : α → β) (x : Check α) (y : Check β) : Prop :=
  Unassigned chosen x.findings →
    y.value = F x.value ∧ List.Forall₂ (Finding.Frozen chosen) x.findings y.findings

theorem Finding.frozen_refl (found : List Finding) :
    List.Forall₂ (Finding.Frozen chosen) found found :=
  List.forall₂_same.mpr fun f _ => .same f

namespace Check

theorem Frozen.of_eq {x y : Check α} (h : y = x) : Frozen chosen (fun a => a) x y := fun _ =>
  ⟨congrArg Check.value h, h ▸ Finding.frozen_refl _⟩

theorem frozen_pure {F : α → β} {a : α} {b : β} (h : b = F a) :
    Frozen chosen F (pure a) (pure b) := fun _ => ⟨h, .nil⟩

theorem Frozen.bind {δ : Type} {F : α → β} {G : γ → δ} {x : Check α} {y : Check β}
    {f : α → Check γ} {g : β → Check δ} (h : Frozen chosen F x y)
    (hnext : ∀ a, Frozen chosen G (f a) (g (F a))) : Frozen chosen G (x >>= f) (y >>= g) := by
  intro hun
  obtain ⟨hvalue, hfound⟩ := h fun id hid hmem => hun id hid (List.mem_append_left _ hmem)
  obtain ⟨hvalue', hfound'⟩ :=
    hnext x.value fun id hid hmem => hun id hid (List.mem_append_right _ hmem)
  refine ⟨?_, ?_⟩
  · show (g y.value).value = G (f x.value).value
    rw [hvalue, hvalue']
  · show List.Forall₂ _ (x.findings ++ (f x.value).findings) (y.findings ++ (g y.value).findings)
    rw [hvalue]
    exact List.rel_append hfound hfound'

/-- The same check first, and then what changes. -/
theorem Frozen.after {G : α → β} {x : Check γ} {f : γ → Check α} {g : γ → Check β}
    (hnext : ∀ a, Frozen chosen G (f a) (g a)) : Frozen chosen G (x >>= f) (x >>= g) :=
  (Frozen.of_eq rfl).bind hnext

end Check

open Check (frozen_pure)

/-! ## Bodies -/

theorem declare_freeze (scope : Scope) (v : Variable) (duplicate : Problem) :
    Check.Frozen chosen (Scope.freeze chosen) (declare scope v duplicate)
      (declare (scope.freeze chosen) (v.freeze chosen) duplicate) := by
  rw [declare, declare, Scope.define?_freeze]
  cases scope.define? v with
  | none => exact fun _ => ⟨rfl, Finding.frozen_refl _⟩
  | some extended => exact fun _ => ⟨rfl, .cons (.declared v) .nil⟩

/-- The one place where the flag counts; the variable is not a chosen one. -/
theorem checkAssign_freeze (span : Span) (target : AssignTarget) (op : AssignOp) (value : Expr) :
    Check.Frozen chosen (fun a => a) (checkAssign s span target op value)
      (checkAssign (s.freeze chosen) span target op value) := by
  intro hun
  refine Check.Frozen.of_eq ?_ hun
  rw [checkAssign, checkAssign]
  rw [checkAssign] at hun
  simp only [typeOf_freeze, lookupVariable_freeze]
  cases hroot : target.root with
  | self selfSpan => rfl
  | name id =>
      simp only [hroot, lookupVariable] at hun ⊢
      cases hfound : s.scope.find? id.name with
      | none => rfl
      | some v =>
          simp only [hfound, pure_bind] at hun ⊢
          -- The assignment has left its note.
          have hother : chosen v.id = false := by
            by_contra hchosen
            exact hun v.id (eq_true_of_ne_false hchosen) (List.mem_append_left _ List.mem_cons_self)
          simp only [Option.map_some, Variable.mutable_freeze hother]
          rfl

mutual

theorem checkStmt_freeze (s : Surroundings) (owner : Signature) : ∀ st : Stmt Unit,
    Check.Frozen chosen (fun checked => (checked.1.edit (.freeze chosen), checked.2.freeze chosen))
      (checkStmt s owner st) (checkStmt (s.freeze chosen) owner (st.edit (.freeze chosen)))
  | .block b => by
      rw [Stmt.edit, checkStmt, checkStmt]
      exact (checkBlock_freeze s owner b).bind fun _ => frozen_pure rfl
  | .bind _ name mutable declared init _ => by
      rw [Stmt.edit, checkStmt, checkStmt, bindingType_freeze]
      refine Check.Frozen.after fun type => Check.Frozen.after fun _ => ?_
      exact (declare_freeze s.scope ⟨name, .local, type, mutable⟩ _).bind fun _ => frozen_pure rfl
  | .assign span target op value => by
      rw [Stmt.edit, checkStmt, checkStmt]
      exact (checkAssign_freeze s span target op value).bind fun _ => frozen_pure rfl
  | .cond c => by
      rw [Stmt.edit, checkStmt, checkStmt]
      exact (checkCond_freeze s owner c).bind fun _ => frozen_pure rfl
  | .loop _ test body => by
      rw [Stmt.edit, checkStmt, checkStmt, checkCondition_freeze]
      refine Check.Frozen.after fun _ => ?_
      exact (checkBlock_freeze s owner body).bind fun _ => frozen_pure rfl
  | .ret span value => by
      rw [Stmt.edit, checkStmt, checkStmt, checkReturn_freeze]
      exact Check.Frozen.after fun _ => frozen_pure rfl
  | .eval _ e => by
      rw [Stmt.edit, checkStmt, checkStmt, typeOf_freeze]
      exact Check.Frozen.after fun _ => frozen_pure rfl

theorem checkBlock_freeze (s : Surroundings) (owner : Signature) : ∀ b : Block Unit,
    Check.Frozen chosen (Block.edit (.freeze chosen)) (checkBlock s owner b)
      (checkBlock (s.freeze chosen) owner (b.edit (.freeze chosen)))
  | .mk _ body => by
      rw [Block.edit, checkBlock, checkBlock]
      exact (checkStmts_freeze { s with scope := [] :: s.scope } owner body).bind
        fun _ => frozen_pure rfl

theorem checkCond_freeze (s : Surroundings) (owner : Signature) : ∀ k : Cond Unit,
    Check.Frozen chosen (Cond.edit (.freeze chosen)) (checkCond s owner k)
      (checkCond (s.freeze chosen) owner (k.edit (.freeze chosen)))
  | .mk _ test consequent alternate => by
      rw [Cond.edit, checkCond, checkCond, checkCondition_freeze]
      refine Check.Frozen.after fun _ => ?_
      refine (checkBlock_freeze s owner consequent).bind fun _ => ?_
      exact (checkElse_freeze s owner alternate).bind fun _ => frozen_pure rfl

theorem checkElse_freeze (s : Surroundings) (owner : Signature) : ∀ a : Else Unit,
    Check.Frozen chosen (Else.edit (.freeze chosen)) (checkElse s owner a)
      (checkElse (s.freeze chosen) owner (a.edit (.freeze chosen)))
  | .absent => frozen_pure rfl
  | .block b => by
      rw [Else.edit, checkElse, checkElse]
      exact (checkBlock_freeze s owner b).bind fun _ => frozen_pure rfl
  | .cond k => by
      rw [Else.edit, checkElse, checkElse]
      exact (checkCond_freeze s owner k).bind fun _ => frozen_pure rfl

theorem checkStmts_freeze (s : Surroundings) (owner : Signature) : ∀ body : List (Stmt Unit),
    Check.Frozen chosen (stmtsEdit (.freeze chosen)) (checkStmts s owner body)
      (checkStmts (s.freeze chosen) owner (stmtsEdit (.freeze chosen) body))
  | [] => frozen_pure rfl
  | st :: rest => by
      rw [stmtsEdit, checkStmts, checkStmts]
      refine (checkStmt_freeze s owner st).bind fun checked => ?_
      exact (checkStmts_freeze { s with scope := checked.2 } owner rest).bind
        fun _ => frozen_pure rfl

end

theorem declareParams_freeze (owner : Signature) (params : List Param) :
    ∀ (scope : Scope) (types : List TypedName),
      Check.Frozen chosen (Scope.freeze chosen) (declareParams owner scope params types)
        (declareParams owner (scope.freeze chosen) params types) := by
  induction params with
  | nil => exact fun _ _ => frozen_pure rfl
  | cons p ps ih =>
      intro scope types
      rw [declareParams, declareParams]
      refine Check.Frozen.after fun _ => ?_
      have hparam : Variable.freeze chosen
          ⟨p.name, .param, (types.head?.map TypedName.type).getD .unknown, false⟩ =
          ⟨p.name, .param, (types.head?.map TypedName.type).getD .unknown, false⟩ :=
        Variable.freeze_of_not_local (by simp)
      rw [← hparam]
      exact (declare_freeze scope _ _).bind fun extended => ih extended types.tail

theorem checkBody_freeze (owner : Signature) (f : FunctionDecl Unit) :
    Check.Frozen chosen (FunctionDecl.edit (.freeze chosen)) (checkBody s owner f)
      (checkBody (s.freeze chosen) owner (f.edit (.freeze chosen))) := by
  rw [checkBody, checkBody, FunctionDecl.edit, Block.body_edit, Block.span_edit,
    Block.alwaysReturns_edit, ← stmtsEdit_eq]
  refine (declareParams_freeze owner f.params ([] :: s.scope) owner.params).bind fun scope => ?_
  refine (checkStmts_freeze { s with scope := scope } owner f.body.body).bind fun _ => ?_
  exact Check.Frozen.after fun _ => frozen_pure rfl

/-! ## Scripts -/

theorem checkBodies_freeze (collected : List (FunctionDecl Unit × Option Signature)) :
    Check.Frozen chosen (List.map (FunctionInfo.edit (.freeze chosen))) (checkBodies s collected)
      (checkBodies (s.freeze chosen)
        (collected.map fun entry => (entry.1.edit (.freeze chosen), entry.2))) := by
  induction collected with
  | nil => exact frozen_pure rfl
  | cons entry rest ih =>
      obtain ⟨f, signature⟩ := entry
      have hplain : plainSignature (f.edit (.freeze chosen)) = plainSignature f := rfl
      rw [List.map_cons, checkBodies, checkBodies, hplain]
      refine (checkBody_freeze s _ f).bind fun decl => ih.bind fun infos => ?_
      cases signature with
      | none => exact frozen_pure rfl
      | some signature => exact frozen_pure rfl

namespace Program

variable (p : Program Unit)

/-- The functions see globals only, which are as they were. -/
theorem checkedFunctions_freeze :
    Check.Frozen chosen (List.map (FunctionInfo.edit (.freeze chosen))) p.checkedFunctions
      (p.edit (.freeze chosen)).checkedFunctions := by
  rw [checkedFunctions, checkedFunctions, surroundings_edit, checkedGlobals_edit, collected_edit]
  generalize hs : p.surroundings false [p.checkedGlobals.value.map GlobalInfo.declared] = s
  have hglobals : s.freeze chosen = s := by
    rw [← hs, Surroundings.freeze, surroundings, Scope.freeze_of_not_local fun v hv => ?_]
    obtain ⟨g, -, rfl⟩ := List.mem_map.mp hv
    exact VariableKind.noConfusion
  have hbodies : Check.Frozen chosen _ _ (checkBodies (s.freeze chosen) _) :=
    checkBodies_freeze s p.collected.value
  rw [hglobals] at hbodies
  exact hbodies

end Program

/-- Where no chosen variable is assigned, a script is checked with the same result after the
    change. -/
theorem checkProgram_freeze {p : Program Unit} (h : Unassigned chosen (checkProgram p).findings) :
    (checkProgram (p.edit (.freeze chosen))).functions =
      (checkProgram p).functions.map (·.edit (.freeze chosen)) ∧
    (checkProgram (p.edit (.freeze chosen))).globals = (checkProgram p).globals ∧
    (checkProgram (p.edit (.freeze chosen))).signals = (checkProgram p).signals ∧
    List.Forall₂ (Finding.Frozen chosen) (checkProgram p).findings
      (checkProgram (p.edit (.freeze chosen))).findings := by
  rw [Program.checkProgram_eq] at h
  obtain ⟨hvalue, hfound⟩ := p.checkedFunctions_freeze fun id hid hmem => h id hid
    (List.mem_append_right _ (List.mem_append_right _ (List.mem_append_right _
      (List.mem_append_left _ hmem))))
  rw [Program.checkProgram_eq, Program.checkProgram_eq, Program.checkedGlobals_edit,
    Program.declared_edit, show (p.edit (.freeze chosen)).collected.findings =
      p.collected.findings by rw [Program.collected_edit]; exact List.append_nil _]
  refine ⟨hvalue, rfl, rfl, ?_⟩
  refine List.rel_append (Finding.frozen_refl _) (List.rel_append (Finding.frozen_refl _) ?_)
  exact List.rel_append (Finding.frozen_refl _) (List.rel_append hfound .nil)

/-! ## What is shown -/

section Shown

variable {found found' : List Finding} (h : List.Forall₂ (Finding.Frozen chosen) found found')
include h

/-- What is read off findings one by one, and does not tell the flags of variables. -/
theorem filterMap_freeze (view : Finding → Option α)
    (hview : ∀ v, view (.declared (v.freeze chosen)) = view (.declared v)) :
    found'.filterMap view = found.filterMap view := by
  induction h with
  | nil => rfl
  | cons hf _ ih =>
      cases hf with
      | same => rw [List.filterMap_cons, List.filterMap_cons, ih]
      | declared v => rw [List.filterMap_cons, List.filterMap_cons, ih, hview]

theorem findingDiagnostics_freeze : findingDiagnostics found' = findingDiagnostics found :=
  filterMap_freeze h _ fun _ => rfl

theorem findingBindings_freeze : findingBindings found' = findingBindings found :=
  filterMap_freeze h _ fun _ => rfl

theorem count_freeze {f : Finding} (hf : ∀ v, f ≠ .declared v) :
    found'.count f = found.count f := by
  induction h with
  | nil => rfl
  | cons hhead _ ih =>
      cases hhead with
      | same => rw [List.count_cons, List.count_cons, ih]
      | declared v =>
          rw [List.count_cons_of_ne (hf _).symm, List.count_cons_of_ne (hf _).symm, ih]

end Shown

/-- A variable that lost its `mut` has the warnings it had, up to the one about the `mut`. -/
theorem lintSymbol_freeze (rules : LintRules) (v : Variable) (reads writes : Nat) :
    (lintSymbol rules ⟨v.freeze chosen, reads, writes⟩).Sublist
      (lintSymbol rules ⟨v, reads, writes⟩) := by
  have hmut : (v.freeze chosen).mutable = true → v.mutable = true := fun h =>
    (Bool.and_eq_true_iff.mp h).1
  rw [lintSymbol, lintSymbol]
  show (if v.kind ≠ .local ∨ v.id.name.startsWith "_" then [] else _ ++ _).Sublist
    (if v.kind ≠ .local ∨ v.id.name.startsWith "_" then [] else _ ++ _)
  split
  · exact List.nil_sublist _
  · refine List.Sublist.append (List.Sublist.refl _) ?_
    split
    case isTrue hwarned =>
      rw [if_pos ⟨hwarned.1, hmut hwarned.2.1, hwarned.2.2⟩]
      exact List.Sublist.refl _
    case isFalse => exact List.nil_sublist _

/-- The symbol that a finding declares, given the uses of every declaration. -/
def Finding.symbol? (reads writes : Ident → Nat) : Finding → Option SymbolInfo
  | .declared v => some ⟨v, reads v.id, writes v.id⟩
  | _           => none

theorem findingSymbols_eq (found : List Finding) : findingSymbols found = found.filterMap
    (Finding.symbol? (fun id => found.count (.read id)) fun id => found.count (.written id)) :=
  List.filterMap_congr fun f _ => by cases f <;> rfl

theorem lintSymbols_freeze (rules : LintRules) {found found' : List Finding}
    (h : List.Forall₂ (Finding.Frozen chosen) found found') :
    ((findingSymbols found').flatMap (lintSymbol rules)).Sublist
      ((findingSymbols found).flatMap (lintSymbol rules)) := by
  have hreads : (fun id => found'.count (.read id)) = fun id => found.count (.read id) :=
    funext fun id => count_freeze h fun v => Finding.noConfusion
  have hwrites : (fun id => found'.count (.written id)) = fun id => found.count (.written id) :=
    funext fun id => count_freeze h fun v => Finding.noConfusion
  rw [findingSymbols_eq, findingSymbols_eq, hreads, hwrites]
  -- The counts are those of the whole list, the induction is on what is declared.
  generalize (fun id => found.count (.read id)) = reads
  generalize (fun id => found.count (.written id)) = writes
  clear hreads hwrites
  induction h with
  | nil => exact .slnil
  | cons hf _ ih =>
      cases hf with
      | declared v => exact List.Sublist.append (lintSymbol_freeze rules v _ _) ih
      | same =>
          rw [List.filterMap_cons, List.filterMap_cons]
          split
          · exact ih
          · exact List.Sublist.append (List.Sublist.refl _) ih

/-- No warning is new. -/
theorem lint_freeze {p : Program Unit} (h : Unassigned chosen (checkProgram p).findings)
    (rules : LintRules) :
    (lint rules (p.edit (.freeze chosen)) (checkProgram (p.edit (.freeze chosen))).symbols).Sublist
      (lint rules p (checkProgram p).symbols) := by
  refine List.Sublist.append (lintSymbols_freeze rules (checkProgram_freeze h).2.2.2) ?_
  have hdead : ((p.edit (.freeze chosen)).functions.flatMap fun f => f.body.unreachable).map
        (fun st => LintProblem.unreachable.diagnostic st.span) =
      (p.functions.flatMap fun f => f.body.unreachable).map
        fun st => LintProblem.unreachable.diagnostic st.span := by
    rw [Program.edit_functions, List.flatMap_map, List.map_flatMap, List.map_flatMap]
    congr 1
    funext f
    rw [FunctionDecl.edit, Block.unreachable_edit, List.map_map]
    exact List.map_congr_left fun st _ => congrArg _ (st.span_edit _)
  rw [hdead]

/-- Whoever is told that a `mut` is not needed has a variable that is not assigned. -/
theorem unassigned_of_reported {rules : LintRules} {p : Program Unit}
    (h : ∀ id, chosen id = true → ∃ symbol ∈ (checkProgram p).symbols, symbol.declared.id = id ∧
      (LintProblem.needlessMut id.name).diagnostic id.span ∈ lintSymbol rules symbol) :
    Unassigned chosen (checkProgram p).findings := by
  intro id hid hmem
  obtain ⟨symbol, hsymbol, rfl, hwarned⟩ := h id hid
  have hwrites : symbol.writes = 0 := by
    simp only [lintSymbol] at hwarned
    split at hwarned
    · cases hwarned
    · rcases List.mem_append.mp hwarned with hwarned | hwarned
      -- The other warning about variables has a code of its own.
      · split at hwarned
        · have hcode : "W003" = "W001" := congrArg Diagnostic.code (List.mem_singleton.mp hwarned)
          exact absurd hcode (by decide)
        · cases hwarned
      · split at hwarned
        case isTrue hcond => exact hcond.2.2
        case isFalse => cases hwarned
  obtain ⟨f, hf, hview⟩ := List.mem_filterMap.mp hsymbol
  split at hview
  · cases hview
    exact List.count_eq_zero.mp hwrites hmem
  · cases hview

end SceneScript
