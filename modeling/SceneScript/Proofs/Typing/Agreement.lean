import Mathlib.Data.List.Basic
import SceneScript.Typing

/-!
# Checking asks its surroundings little

Checking a piece of code asks three things of the functions and signals of the script: what stands
behind a name, which name was probably meant, and whether a global is being initialized. So two
surroundings that answer these questions alike cannot be told apart, except by the candidates that
a problem carries along and never shows.

* **`Finding.shown`** — what a finding shows: of a problem its diagnostic, without the candidates.
* **`ShownAlike`** — two lists of findings show the same up to their order; then their diagnostics,
  their bindings and the use counts of their symbols are the same up to their order.
* **`Check.Agree`** — two checks give one value and show the same findings.
* **`Surroundings.Agree`** — two surroundings answer every question alike; then bodies and globals
  are checked alike in them, by `checkBody_agree` and `checkGlobals_agree`.
-/

namespace SceneScript

/-! ## What findings show -/

/-- A finding as it is shown: a problem as its diagnostic, anything else as it is. -/
def Finding.shown : Finding → Diagnostic ⊕ Finding
  | .problem p span => .inl (p.diagnostic span)
  | finding         => .inr finding

/-- The symbol that a shown finding declares, given the uses of every declaration. -/
def shownSymbol (reads writes : Ident → Nat) : Diagnostic ⊕ Finding → Option SymbolInfo
  | .inr (.declared v) => some ⟨v, reads v.id, writes v.id⟩
  | _                  => none

/-- Two lists of findings show the same, up to their order. -/
def ShownAlike (found found' : List Finding) : Prop :=
  (found.map Finding.shown).Perm (found'.map Finding.shown)

namespace ShownAlike

variable {found found' more more' : List Finding}

theorem append (h : ShownAlike found found') (hmore : ShownAlike more more') :
    ShownAlike (found ++ more) (found' ++ more') := by
  rw [ShownAlike, List.map_append, List.map_append]
  exact List.Perm.append h hmore

theorem diagnostics (h : ShownAlike found found') :
    (findingDiagnostics found).Perm (findingDiagnostics found') := by
  have hview : ∀ l, findingDiagnostics l = (l.map Finding.shown).filterMap Sum.getLeft? := by
    intro l
    rw [List.filterMap_map]
    refine List.filterMap_congr fun finding _ => ?_
    cases finding <;> rfl
  rw [hview, hview]
  exact h.filterMap _

theorem bindings (h : ShownAlike found found') :
    (findingBindings found).Perm (findingBindings found') := by
  have hview : ∀ l, findingBindings ((l.map Finding.shown).filterMap Sum.getRight?) =
      findingBindings l := by
    intro l
    rw [findingBindings, List.filterMap_map, List.filterMap_filterMap]
    refine List.filterMap_congr fun finding _ => ?_
    cases finding <;> rfl
  rw [← hview found, ← hview found']
  exact (h.filterMap _).filterMap _

/-- A finding that is shown as it is has been found as often. -/
theorem count (h : ShownAlike found found') {finding : Finding}
    (hf : finding.shown = .inr finding) : found.count finding = found'.count finding := by
  have hshown : ∀ other : Finding, other.shown = .inr finding ↔ other = finding := by
    intro other
    constructor
    · intro heq
      cases other with
      | problem p span => cases heq
      | _ => exact Sum.inr.inj heq
    · rintro rfl
      exact hf
  have hview : ∀ l : List Finding,
      l.count finding = (l.map Finding.shown).countP fun x => decide (x = .inr finding) := by
    intro l
    rw [List.count, List.countP_map]
    refine List.countP_congr fun other _ => ?_
    rw [Function.comp_apply, beq_iff_eq, decide_eq_true_eq, hshown]
  rw [hview, hview, h.countP_eq]

theorem symbols (h : ShownAlike found found') :
    (findingSymbols found).Perm (findingSymbols found') := by
  have hview : ∀ l, findingSymbols l = (l.map Finding.shown).filterMap
      (shownSymbol (fun id => l.count (.read id)) fun id => l.count (.written id)) := by
    intro l
    rw [findingSymbols, List.filterMap_map]
    refine List.filterMap_congr fun finding _ => ?_
    cases finding <;> rfl
  have hreads : (fun id => found.count (.read id)) = fun id => found'.count (.read id) :=
    funext fun _ => h.count rfl
  have hwrites : (fun id => found.count (.written id)) = fun id => found'.count (.written id) :=
    funext fun _ => h.count rfl
  rw [hview, hview, hreads, hwrites]
  exact h.filterMap _

end ShownAlike

/-! ## Checks that agree -/

namespace Check

variable {α β : Type} {x y : Check α} {f g : α → Check β}

/-- Two checks give one value and show the same findings in the same order. -/
structure Agree (x y : Check α) : Prop where
  value    : x.value = y.value
  findings : x.findings.map Finding.shown = y.findings.map Finding.shown

theorem Agree.refl (x : Check α) : Agree x x := ⟨rfl, rfl⟩

theorem Agree.bind (h : Agree x y) (hnext : ∀ a, Agree (f a) (g a)) :
    Agree (x >>= f) (y >>= g) := by
  have hf : (x >>= f).findings = x.findings ++ (f x.value).findings := rfl
  have hg : (y >>= g).findings = y.findings ++ (g y.value).findings := rfl
  have hnext := hnext x.value
  refine ⟨?_, ?_⟩
  · show (f x.value).value = (g y.value).value
    rw [hnext.value, h.value]
  · rw [hf, hg, List.map_append, List.map_append, h.findings, hnext.findings, h.value]

theorem Agree.then (h : Agree x y) : Agree (x >>= f) (y >>= f) :=
  h.bind fun a => Agree.refl (f a)

theorem Agree.after (hnext : ∀ a, Agree (f a) (g a)) : Agree (x >>= f) (x >>= g) :=
  (Agree.refl x).bind hnext

theorem Agree.shownAlike (h : Agree x y) : ShownAlike x.findings y.findings :=
  List.Perm.of_eq h.findings

/-- Problems with one code, wording and hint are shown alike. -/
theorem agree_report {p p' : Problem} (span : Span) (hcode : p.code = p'.code)
    (hmessage : p.message = p'.message) (hhint : p.hint = p'.hint) :
    Agree (report span p) (report span p') := by
  refine ⟨rfl, ?_⟩
  show [Sum.inl (p.diagnostic span)] = [Sum.inl (p'.diagnostic span)]
  rw [Problem.diagnostic, Problem.diagnostic, hcode, hmessage, hhint]

end Check

open Check (report Agree.refl Agree.bind Agree.then Agree.after)

/-! ## Surroundings that agree -/

/-- Two surroundings have the same variables, and answer every question about the functions and
    the signals of the script alike. -/
structure Surroundings.Agree (s s' : Surroundings) : Prop where
  scope        : s.scope = s'.scope
  initializing : s.initializing = s'.initializing
  function     : ∀ name, s.function? name = s'.function? name
  signal       : ∀ name, s.signal? name = s'.signal? name
  meant        : ∀ typo, didYouMean typo s.callable = didYouMean typo s'.callable
  meantSignal  : ∀ typo, didYouMean typo (s.signals.map Signal.name) =
    didYouMean typo (s'.signals.map Signal.name)

variable {s s' : Surroundings}

theorem Surroundings.Agree.within (h : s.Agree s') {scope scope' : Scope}
    (hscope : scope = scope') :
    Surroundings.Agree { s with scope := scope } { s' with scope := scope' } :=
  ⟨hscope, h.initializing, h.function, h.signal, h.meant, h.meantSignal⟩

theorem Surroundings.Agree.inBlock (h : s.Agree s') :
    Surroundings.Agree { s with scope := [] :: s.scope } { s' with scope := [] :: s'.scope } :=
  h.within (congrArg ([] :: ·) h.scope)

/-! ## Expressions -/

theorem undefinedFunction_agree (h : s.Agree s') (span : Span) (name : Text) :
    Check.Agree (report span (.undefinedFunction name s.callable))
      (report span (.undefinedFunction name s'.callable)) :=
  Check.agree_report span rfl rfl (h.meant name)

theorem undefinedSignal_agree (h : s.Agree s') (span : Span) (name : Text) :
    Check.Agree (report span (.undefinedSignal name (s.signals.map Signal.name)))
      (report span (.undefinedSignal name (s'.signals.map Signal.name))) := by
  refine Check.agree_report span rfl rfl ?_
  show (didYouMean name _).orElse _ = (didYouMean name _).orElse _
  rw [h.meantSignal]

theorem checkEmission_agree (h : s.Agree s') (span nameSpan : Span) (name : Text)
    (args : List (Span × Ty)) :
    Check.Agree (checkEmission s span nameSpan name args)
      (checkEmission s' span nameSpan name args) := by
  rw [checkEmission, checkEmission, h.signal name]
  cases s'.signal? name with
  | none => exact undefinedSignal_agree h nameSpan name
  | some signal => exact Agree.refl _

mutual

theorem typeOf_agree (h : s.Agree s') : ∀ e : Expr, Check.Agree (typeOf s e) (typeOf s' e)
  | .int _ _ _ => Agree.refl _
  | .float _ _ _ => Agree.refl _
  | .bool _ _ => Agree.refl _
  | .string _ _ => Agree.refl _
  | .self _ => Agree.refl _
  | .ident id => by
      rw [typeOf, typeOf, h.scope]
      exact Agree.refl _
  | .field _ object name => by
      rw [typeOf, typeOf]
      exact (typeOf_agree h object).then
  | .unary _ _ arg => by
      rw [typeOf, typeOf]
      exact (typeOf_agree h arg).then
  | .binary _ _ left right => by
      rw [typeOf, typeOf]
      exact (typeOf_agree h left).bind fun _ => (typeOf_agree h right).then
  | .struct _ _ fields => by
      rw [typeOf, typeOf]
      exact (fieldTypes_agree h fields).then
  | .call span callee args => by
      rw [typeOf, typeOf]
      cases Builtin.ofText? callee.name with
      | none =>
          simp only [h.function callee.name]
          cases s'.function? callee.name with
          | none =>
              refine (typesOf_agree h args).bind fun _ => ?_
              exact (undefinedFunction_agree h callee.span callee.name).then
          | some f =>
              simp only [h.initializing]
              exact Agree.after fun _ => (typesOf_agree h args).then
      | some b =>
          cases b with
          | print => exact (printTypes_agree h args).then
          | emitSignal =>
              cases args with
              | nil => exact Agree.refl _
              | cons first rest =>
                  refine (typesOf_agree h rest).bind fun types => ?_
                  have hfirst := typeOf_agree h first
                  cases first with
                  | string nameSpan name =>
                      exact (checkEmission_agree h span nameSpan name types).then
                  | _ => exact hfirst.then
          | _ => exact (typesOf_agree h args).then

theorem typesOf_agree (h : s.Agree s') : ∀ es : List Expr,
    Check.Agree (typesOf s es) (typesOf s' es)
  | [] => Agree.refl _
  | e :: es => by
      rw [typesOf, typesOf]
      exact (typeOf_agree h e).bind fun _ => (typesOf_agree h es).then

theorem fieldTypes_agree (h : s.Agree s') : ∀ fields : List (Ident × Expr),
    Check.Agree (fieldTypes s fields) (fieldTypes s' fields)
  | [] => Agree.refl _
  | (_, e) :: rest => by
      rw [fieldTypes, fieldTypes]
      exact (typeOf_agree h e).bind fun _ => (fieldTypes_agree h rest).then

theorem printTypes_agree (h : s.Agree s') : ∀ es : List Expr,
    Check.Agree (printTypes s es) (printTypes s' es)
  | [] => Agree.refl _
  | e :: es => by
      rw [printTypes, printTypes]
      exact (typeOf_agree h e).bind fun _ => Agree.after fun _ => printTypes_agree h es

end

theorem bindingType_agree (h : s.Agree s') (declared : Option TypeRef) (init : Expr)
    (name : Text) :
    Check.Agree (bindingType s declared init name) (bindingType s' declared init name) :=
  (typeOf_agree h init).then

/-! ## Bodies -/

theorem checkAssign_agree (h : s.Agree s') (span : Span) (target : AssignTarget) (op : AssignOp)
    (value : Expr) :
    Check.Agree (checkAssign s span target op value) (checkAssign s' span target op value) := by
  rw [checkAssign, checkAssign]
  have hvalue := typeOf_agree h value
  cases target.root with
  | self selfSpan =>
      show Check.Agree (if _ then _ else _) (if _ then _ else _)
      split
      · exact Agree.after fun _ => hvalue.then
      · exact Agree.after fun _ => hvalue.then
  | name id =>
      rw [h.scope]
      refine Agree.after fun found => ?_
      cases found with
      | none => exact hvalue.then
      | some v =>
          refine Agree.after fun _ => Agree.after fun _ => Agree.after fun _ => ?_
          exact hvalue.then

theorem checkCondition_agree (h : s.Agree s') (test : Expr) (statement : Conditional) :
    Check.Agree (checkCondition s test statement) (checkCondition s' test statement) :=
  (typeOf_agree h test).then

theorem checkReturn_agree (h : s.Agree s') (owner : Signature) (span : Span)
    (value : Option Expr) :
    Check.Agree (checkReturn s owner span value) (checkReturn s' owner span value) := by
  cases value with
  | none => exact Agree.refl _
  | some e => exact (typeOf_agree h e).then

mutual

theorem checkStmt_agree {s s' : Surroundings} (owner : Signature) (h : s.Agree s') :
    ∀ st : Stmt Unit, Check.Agree (checkStmt s owner st) (checkStmt s' owner st)
  | .block b => by
      rw [checkStmt, checkStmt, h.scope]
      exact (checkBlock_agree owner h b).then
  | .bind _ name _ declared init _ => by
      rw [checkStmt, checkStmt, h.scope]
      exact (bindingType_agree h declared init name.name).then
  | .assign span target op value => by
      rw [checkStmt, checkStmt, h.scope]
      exact (checkAssign_agree h span target op value).then
  | .cond c => by
      rw [checkStmt, checkStmt, h.scope]
      exact (checkCond_agree owner h c).then
  | .loop _ test body => by
      rw [checkStmt, checkStmt, h.scope]
      refine (checkCondition_agree h test .whileTest).bind fun _ => ?_
      exact (checkBlock_agree owner h body).then
  | .ret span value => by
      rw [checkStmt, checkStmt, h.scope]
      exact (checkReturn_agree h owner span value).then
  | .eval _ e => by
      rw [checkStmt, checkStmt, h.scope]
      exact (typeOf_agree h e).then

theorem checkBlock_agree {s s' : Surroundings} (owner : Signature) (h : s.Agree s') :
    ∀ b : Block Unit, Check.Agree (checkBlock s owner b) (checkBlock s' owner b)
  | .mk _ body => by
      rw [checkBlock, checkBlock]
      exact (checkStmts_agree owner h.inBlock body).then

theorem checkCond_agree {s s' : Surroundings} (owner : Signature) (h : s.Agree s') :
    ∀ c : Cond Unit, Check.Agree (checkCond s owner c) (checkCond s' owner c)
  | .mk _ test consequent alternate => by
      rw [checkCond, checkCond]
      refine (checkCondition_agree h test .ifTest).bind fun _ => ?_
      refine (checkBlock_agree owner h consequent).bind fun _ => ?_
      exact (checkElse_agree owner h alternate).then

theorem checkElse_agree {s s' : Surroundings} (owner : Signature) (h : s.Agree s') :
    ∀ a : Else Unit, Check.Agree (checkElse s owner a) (checkElse s' owner a)
  | .absent => Agree.refl _
  | .block b => by
      rw [checkElse, checkElse]
      exact (checkBlock_agree owner h b).then
  | .cond c => by
      rw [checkElse, checkElse]
      exact (checkCond_agree owner h c).then

theorem checkStmts_agree {s s' : Surroundings} (owner : Signature) (h : s.Agree s') :
    ∀ ss : List (Stmt Unit), Check.Agree (checkStmts s owner ss) (checkStmts s' owner ss)
  | [] => Agree.refl _
  | st :: rest => by
      rw [checkStmts, checkStmts]
      refine (checkStmt_agree owner h st).bind fun checked => ?_
      exact (checkStmts_agree owner (h.within (Eq.refl checked.2)) rest).then

end

theorem checkBody_agree (h : s.Agree s') (owner : Signature) (f : FunctionDecl Unit) :
    Check.Agree (checkBody s owner f) (checkBody s' owner f) := by
  rw [checkBody, checkBody, h.scope]
  refine Agree.after fun scope => ?_
  exact (checkStmts_agree owner (h.within (Eq.refl scope)) f.body.body).then

/-! ## Globals -/

/-- Globals are checked alike when, in every scope, the initializers see the same. -/
theorem checkGlobals_agree {functions functions' : List Signature} {signals signals' : List Signal}
    (h : ∀ scope, Surroundings.Agree ⟨functions, signals, true, scope⟩
      ⟨functions', signals', true, scope⟩) (gs : List GlobalDecl) : ∀ before,
    Check.Agree (checkGlobals functions signals before gs)
      (checkGlobals functions' signals' before gs) := by
  induction gs with
  | nil => exact fun before => Agree.refl _
  | cons g gs ih =>
      intro before
      rw [checkGlobals, checkGlobals]
      refine (bindingType_agree (h _) g.declared g.init g.name.name).bind fun type => ?_
      refine Agree.after fun _ => ?_
      split
      · exact Agree.after fun _ => ih before
      · refine Agree.after fun _ => ?_
        cases g.exported with
        | none => exact Agree.after fun property => ih _
        | some mark => exact Agree.after fun property => ih _

end SceneScript
