import SceneScript.Proofs.Typing.Unread
import SceneScript.Proofs.Typing.Visible
import SceneScript.Proofs.Typing.Visits

/-!
# What is unknown has been reported

The type `unknown` goes with everything, so that one mistake is not reported over and over. A
single way to it without a report would switch checking off for all that follows. This file shows
that there is none: wherever checking settles on a type, either the type is known or a diagnostic
has been recorded before. So a script without diagnostics has no unknown type anywhere.

* **`Code.Sound`** — what holds of code when nothing was reported on the way to it;
  **`Part.sound`** — a part of sound code is sound.
* **`Code.Assigns`** — the types that checking a piece of code settles on;
  **`Program.Reaches.reported`** — when it is `unknown`, something was reported.
* **`Guarded`** — in a list of findings, a variable or binding without a storable type stands
  behind a diagnostic; **`checkProgram_guarded`**.
* **`checkProgram_unknown_reported`** — the main statement.
-/

namespace SceneScript

/-! ## Logs without problems -/

/-- No problem is among the findings. -/
def Spotless (log : List Finding) : Prop := ∀ q span, Finding.problem q span ∉ log

theorem spotless_append {a b : List Finding} : Spotless (a ++ b) ↔ Spotless a ∧ Spotless b := by
  simp only [Spotless, List.mem_append, not_or, forall_and]

theorem Spotless.of_prefix {a b : List Finding} (h : Spotless b) (hab : a <+: b) : Spotless a :=
  fun q span hmem => h q span (hab.subset hmem)

theorem spotless_iff {log : List Finding} : Spotless log ↔ findingDiagnostics log = [] := by
  rw [findingDiagnostics, List.filterMap_eq_nil_iff]
  constructor
  · intro h f hf
    cases f with
    | problem q span => exact absurd hf (h q span)
    | _ => rfl
  · intro h q span hmem
    cases h _ hmem

/-! ## What is known on the way -/

/-- A signature that fits the parameters of its function, all of whose types are known. -/
def Entered (entry : FunctionDecl Unit × Option Signature) : Prop :=
  (ownerOf entry).Known ∧ (ownerOf entry).params.length = entry.1.params.length

/-- What holds of a piece of code when nothing was reported on the way to it: the names that it can
    use have known types. -/
def Code.Sound (s : Surroundings) : Code → Prop
  | .signals _ _ | .signalParams _ _ _ | .functions _ _ | .params _ | .typeRef _ _ => True
  | .globals before _ => Known (s.initializer before)
  | .bodies entries   => Known s ∧ ∀ entry ∈ entries, Entered entry
  | .stmts owner _ | .stmt owner _ | .block owner _ | .cond owner _ | .els owner _ =>
      Known s ∧ owner.returns ≠ .unknown
  | .expr _ => Known s

/-- A global without problems is of a known type, and the ones behind it may use it. -/
theorem checkGlobal_known {s : Surroundings} {before : List GlobalInfo} {g : GlobalDecl}
    (hs : Known (s.initializer before))
    (h : (checkGlobal s.functions s.signals before g).Clean) :
    Known (s.initializer (checkGlobal s.functions s.signals before g).value) := by
  rw [checkGlobal] at h ⊢
  simp only [Check.clean_bind, Check.value_bind] at h ⊢
  obtain ⟨htype, -, hrest⟩ := h
  obtain ⟨-, -, -, hstorable⟩ := bindingType_clean hs htype
  rw [Surroundings.initializer] at hs hstorable
  generalize (bindingType ⟨s.functions, s.signals, true, [before.map GlobalInfo.declared]⟩
    g.declared g.init g.name.name).value = type at hstorable hrest ⊢
  cases hf : Scope.find? [before.map GlobalInfo.declared] g.name.name with
  | some v =>
      simp only [hf, Option.isSome_some, if_true, Check.clean_bind, Check.not_clean_report,
        false_and] at hrest
  | none =>
      have hnew : Scope.inFrame? g.name.name (before.map GlobalInfo.declared) = none := by
        rw [Scope.find?_cons, Option.or_eq_none_iff] at hf
        exact hf.1
      have hdef : Scope.define? [before.map GlobalInfo.declared]
          ⟨g.name, .global, type, g.mutable⟩ =
            some [before.map GlobalInfo.declared ++ [⟨g.name, .global, type, g.mutable⟩]] := by
        rw [Scope.define?, hnew]
        rfl
      have hknown := hs.define hstorable hdef
      simp only [Option.isSome_none, Bool.false_eq_true, if_false, Check.value_bind,
        Surroundings.initializer]
      cases g.exported <;>
        simpa only [Check.value_bind, Check.value_pure, List.map_append, List.map_cons,
          List.map_nil, GlobalInfo.declared] using hknown

/-- The parameters of a function without problems are known in its body. -/
theorem enterBody_known {s : Surroundings} {entry : FunctionDecl Unit × Option Signature}
    (hs : Known s) (hentry : Entered entry) (h : (enterBody s entry).Clean) :
    Known { s with scope := (enterBody s entry).value } := by
  obtain ⟨hval, hknown, -⟩ :=
    declareParams_clean hs.block hentry.2.symm hentry.1.params h
  rw [enterBody, hval]
  exact hknown

/-- **One step.** A part of sound code is sound when nothing was reported on the way to it. -/
theorem Part.sound {s s' : Surroundings} {c c' : Code} {found : List Finding}
    (h : Part s c found s' c') (hc : c.Sound s) (hspotless : Spotless found) : c'.Sound s' := by
  cases h with
  | signal | laterSignals | afterDuplicate | signalParam | laterSignalParams | functionParams
  | functionReturns | laterFunctions | param | laterParams | globalType | bindType => trivial
  | global | object | operand | left | right | fieldValue | printed | emitted | emittedName
  | builtinArg | undefinedArg | arg => exact hc
  | laterGlobals before g gs => exact checkGlobal_known hc hspotless
  | body entry rest =>
      have hentry := hc.2 entry List.mem_cons_self
      exact ⟨enterBody_known hc.1 hentry hspotless, hentry.1.returns⟩
  | laterBodies entry rest => exact ⟨hc.1, fun e he => hc.2 e (List.mem_cons_of_mem _ he)⟩
  | later owner st rest => exact ⟨(checkStmt_clean hc.1 hc.2 st hspotless).known hc.1, hc.2⟩
  | contents owner span body => exact ⟨hc.1.block, hc.2⟩
  | first | inner | branch | loopBody | consequent | alternate | elseBlock | elseCond => exact hc
  | init | assigned | loopTest | returned | evaluated | test => exact hc.1

/-- Functions that were entered without problems have known signatures. -/
theorem Program.collected_entered {p : Program Unit} (h : p.collected.Clean) :
    ∀ entry ∈ p.collected.value, Entered entry := by
  intro entry hentry
  obtain ⟨signature, hsome, hknown, hlength⟩ := collectFunctions_clean h entry hentry
  rw [Entered, ownerOf, hsome]
  exact ⟨hknown, hlength⟩

/-- What code of a script sees is known when its signatures have no problems and the variables are
    known. -/
theorem Program.surroundings_known {p : Program Unit} (hsignals : p.declared.Clean)
    (hfunctions : p.collected.Clean) (initializing : Bool) {scope : Scope}
    (hscope : ∀ name v, scope.find? name = some v → v.type.Storable) :
    Known (p.surroundings initializing scope) := by
  refine ⟨hscope, ?_, ?_⟩
  · intro name f hf
    obtain ⟨entry, hentry, hsome⟩ := List.mem_filterMap.mp (List.mem_of_find?_eq_some hf)
    obtain ⟨hknown, -⟩ := p.collected_entered hfunctions entry hentry
    rw [ownerOf, hsome] at hknown
    exact ⟨hknown.returns, hknown.params⟩
  · intro name signal hsignal
    exact collectSignals_clean hsignals signal (List.mem_of_find?_eq_some hsignal)

/-- The globals of a script are known when there was no problem up to the last of them. -/
theorem Program.checkedGlobals_known {p : Program Unit} (hsignals : p.declared.Clean)
    (hfunctions : p.collected.Clean) (hglobals : p.checkedGlobals.Clean) :
    Known (p.surroundings false [p.checkedGlobals.value.map GlobalInfo.declared]) :=
  p.surroundings_known hsignals hfunctions false (checkGlobals_clean
    (fun _ => p.surroundings_known hsignals hfunctions true)
    (fun before g after heq => by simp at heq) hglobals).storable

/-- **The whole way.** Code that a script is checked through to is sound when nothing was reported
    on the way. -/
theorem Program.Reaches.sound {p : Program Unit} {found : List Finding} {s : Surroundings}
    {c : Code} (h : p.Reaches found s c) (hspotless : Spotless found) : c.Sound s := by
  induction h with
  | signals => trivial
  | functions => trivial
  | globals =>
      obtain ⟨hsignals, hfunctions⟩ := spotless_append.mp hspotless
      exact p.surroundings_known hsignals hfunctions true fun name v hv => by cases hv
  | bodies =>
      obtain ⟨hbefore, hglobals⟩ := spotless_append.mp hspotless
      obtain ⟨hsignals, hfunctions⟩ := spotless_append.mp hbefore
      exact ⟨p.checkedGlobals_known hsignals hfunctions hglobals,
        p.collected_entered hfunctions⟩
  | part _ hpart ih =>
      obtain ⟨hfirst, hnext⟩ := spotless_append.mp hspotless
      exact hpart.sound (ih hfirst) hnext

/-! ## The types that are assigned -/

/-- `c.Assigns s found t`: checking `c` settles on the type `t` for an expression, an annotation, a
    binding, a target, a parameter or a result, after it has made the findings `found`. -/
inductive Code.Assigns (s : Surroundings) : Code → List Finding → Ty → Prop where
  | expr (e) : Assigns s (.expr e) (typeOf s e).findings (typeOf s e).value
  | typeRef (ref allowVoid) :
      Assigns s (.typeRef ref allowVoid) (resolveType ref allowVoid).findings
        (resolveType ref allowVoid).value
  | global (before g gs) :
      Assigns s (.globals before (g :: gs))
        (bindingType (s.initializer before) g.declared g.init g.name.name).findings
        (bindingType (s.initializer before) g.declared g.init g.name.name).value
  | bind (owner span name mutable declared init) :
      Assigns s (.stmt owner (.bind span name mutable declared init ()))
        (bindingType s declared init name.name).findings
        (bindingType s declared init name.name).value
  | target (owner span target op value) :
      Assigns s (.stmt owner (.assign span target op value)) (targetType s target op).findings
        (targetType s target op).value
  | param (entry rest) (q) (hq : q ∈ (ownerOf entry).params) :
      Assigns s (.bodies (entry :: rest)) [] q.type
  | returns (entry rest) : Assigns s (.bodies (entry :: rest)) [] (ownerOf entry).returns

namespace Code.Assigns

variable {s : Surroundings} {c : Code} {found : List Finding} {t : Ty}

/-- The findings up to the type are the first that checking the code makes. -/
theorem log (h : c.Assigns s found t) : found <+: c.log s := by
  cases h with
  | expr e => exact List.prefix_rfl
  | typeRef ref allowVoid => exact List.prefix_rfl
  | global before g gs =>
      rw [Code.log, checkGlobals]
      exact List.prefix_append _ _
  | bind owner span name mutable declared init =>
      rw [Code.log, checkStmt]
      exact List.prefix_append _ _
  | target owner span target op value =>
      rw [Code.log, checkStmt, checkAssign_eq]
      simp only [Check.findings_bind, List.append_assoc]
      exact List.prefix_append _ _
  | param => exact List.nil_prefix
  | returns => exact List.nil_prefix

end Code.Assigns

theorem targetType_known {s : Surroundings} (hs : Known s) {target : AssignTarget} {op : AssignOp}
    (h : (targetType s target op).Clean) : (targetType s target op).value ≠ .unknown := by
  rw [targetType] at h ⊢
  cases hroot : target.root with
  | self span =>
      by_cases hp : target.path.isEmpty = true
      · simp only [hroot, hp, if_true, Check.clean_bind, Check.not_clean_report, false_and] at h
      · simp only [hroot, hp, Bool.false_eq_true, if_false, Check.clean_bind, Check.value_bind,
          Check.value_pure] at h ⊢
        exact (pathType_clean (by decide) h.1).2.1
  | name id =>
      simp only [hroot, Check.clean_bind] at h
      obtain ⟨v, hv, hval⟩ := lookupVariable_clean h.1
      rw [hval] at h
      simp only [Check.clean_bind] at h
      simp only [Check.value_bind, hval, Check.value_pure]
      exact (pathType_clean (hs.visible _ v hv).1 h.2.2.1).2.1

/-- In sound code a type that was settled on without problems is known. -/
theorem Code.Assigns.known {s : Surroundings} {c : Code} {found : List Finding} {t : Ty}
    (h : c.Assigns s found t) (hc : c.Sound s) (hspotless : Spotless found) : t ≠ .unknown := by
  cases h with
  | expr e => exact (typeOf_clean hc e hspotless).known hc
  | typeRef ref allowVoid =>
      obtain ⟨hval, hknown, -⟩ := resolveType_clean hspotless
      rwa [hval]
  | global before g gs =>
      obtain ⟨-, -, -, hstorable⟩ := bindingType_clean hc hspotless
      exact hstorable.1
  | bind owner span name mutable declared init =>
      obtain ⟨-, -, -, hstorable⟩ := bindingType_clean hc.1 hspotless
      exact hstorable.1
  | target owner span target op value => exact targetType_known hc.1 hspotless
  | param entry rest q hq => exact ((hc.2 entry List.mem_cons_self).1.params q hq).1
  | returns entry rest => exact (hc.2 entry List.mem_cons_self).1.returns

/-- Wherever checking a script settles on `unknown`, it has recorded a diagnostic before. -/
theorem Program.Reaches.reported {p : Program Unit} {found more : List Finding} {s : Surroundings}
    {c : Code} (h : p.Reaches found s c) (ht : c.Assigns s more .unknown) :
    findingDiagnostics (found ++ more) ≠ [] := by
  intro hnil
  obtain ⟨hfound, hmore⟩ := spotless_append.mp (spotless_iff.mpr hnil)
  exact ht.known (h.sound hfound) hmore rfl

/-! ## Code that introduces nothing -/

/-- A problem or the use of a variable: nothing is introduced. -/
def Finding.Plain : Finding → Prop
  | .declared _ | .bound _ => False
  | _ => True

section Plain

variable {s : Surroundings}

theorem lookupVariable_plain (scope : Scope) (id : Ident) :
    (lookupVariable scope id).Finds Finding.Plain := by
  rw [lookupVariable]
  split
  · exact .pure
  · exact .andThen ⟨.reported trivial, .pure⟩

theorem fieldType_plain (base : Ty) (field : Ident) :
    (fieldType base field).Finds Finding.Plain := by
  rw [fieldType]
  repeat' split
  all_goals first | exact .pure | exact .andThen ⟨.reported trivial, .pure⟩

theorem unaryType_plain (op : UnaryOp) (t : Ty) (span : Span) :
    (unaryType op t span).Finds Finding.Plain := by
  rw [unaryType]
  repeat' split
  all_goals first | exact .pure | exact .andThen ⟨.reported trivial, .pure⟩

theorem binaryType_plain (op : BinaryOp) (l r : Ty) (span : Span) :
    (binaryType op l r span).Finds Finding.Plain := by
  unfold binaryType
  dsimp only
  repeat' split
  all_goals first
    | exact .pure
    | exact .andThen ⟨.reported trivial, .pure⟩
    | exact .andThen ⟨.reportIf trivial, .pure⟩

theorem checkFits_plain (problem : TypedName → Ty → Problem) :
    ∀ (params : List TypedName) (args : List (Span × Ty)),
      (checkFits problem params args).Finds Finding.Plain
  | [], _ => .pure
  | _ :: _, [] => .pure
  | _ :: params, _ :: rest => by
      rw [checkFits]
      exact .andThen ⟨.reportIf trivial, checkFits_plain problem params rest⟩

theorem checkArguments_plain (function : Text) (params : List TypedName) (span : Span)
    (args : List (Span × Ty)) : (checkArguments function params span args).Finds Finding.Plain := by
  rw [checkArguments]
  split
  · exact .reported trivial
  · exact checkFits_plain _ params args

theorem checkEmission_plain (span nameSpan : Span) (name : Text) (args : List (Span × Ty)) :
    (checkEmission s span nameSpan name args).Finds Finding.Plain := by
  rw [checkEmission]
  split
  · exact .reported trivial
  · split
    · exact .reported trivial
    · exact checkFits_plain _ _ args

theorem checkFields_plain (type : Ty) : ∀ (seen : List Text) (fields : List (Ident × Span × Ty)),
    (checkFields type seen fields).Finds Finding.Plain
  | _, [] => .pure
  | seen, (field, span, found) :: rest => by
      rw [checkFields]
      split
      · exact .andThen ⟨.reported trivial, checkFields_plain type _ rest⟩
      · split
        · exact .andThen ⟨.reported trivial, checkFields_plain type _ rest⟩
        · exact .andThen ⟨.reportIf trivial, checkFields_plain type _ rest⟩

theorem structType_plain (span : Span) (name : Ident) (fields : List (Ident × Span × Ty)) :
    (structType span name fields).Finds Finding.Plain := by
  rw [structType]
  split
  · exact .andThen ⟨.reported trivial, .pure⟩
  · split
    · exact .andThen ⟨.reported trivial, .pure⟩
    · exact .andThen ⟨checkFields_plain _ [] fields, .andThen ⟨.reportIf trivial, .pure⟩⟩

mutual

/-- An expression introduces nothing. -/
theorem typeOf_plain (s : Surroundings) : ∀ e : Expr, (typeOf s e).Finds Finding.Plain
  | .int _ _ _ => .pure
  | .float _ _ _ => .pure
  | .bool _ _ => .pure
  | .string _ _ => .pure
  | .self _ => .pure
  | .ident id => by
      rw [typeOf]
      refine .andThen ⟨lookupVariable_plain s.scope id, ?_⟩
      split
      · exact .andThen ⟨.noted trivial, .pure⟩
      · exact .pure
  | .field _ object name => by
      rw [typeOf]
      exact .andThen ⟨typeOf_plain s object, fieldType_plain _ name⟩
  | .unary span op arg => by
      rw [typeOf]
      exact .andThen ⟨typeOf_plain s arg, unaryType_plain op _ span⟩
  | .binary span op left right => by
      rw [typeOf]
      exact .andThen ⟨typeOf_plain s left,
        .andThen ⟨typeOf_plain s right, binaryType_plain op _ _ span⟩⟩
  | .struct span name fields => by
      rw [typeOf]
      exact .andThen ⟨fieldTypes_plain s fields, structType_plain span name _⟩
  | .call span callee args => by
      cases hb : Builtin.ofText? callee.name with
      | none =>
          cases hf : s.function? callee.name with
          | none =>
              rw [typeOf_undefined hb hf]
              exact .andThen ⟨typesOf_plain s args, .andThen ⟨.reported trivial, .pure⟩⟩
          | some f =>
              rw [typeOf_function hb hf]
              exact .andThen ⟨.reportIf trivial, .andThen ⟨typesOf_plain s args,
                .andThen ⟨checkArguments_plain _ _ span _, .pure⟩⟩⟩
      | some builtin =>
          cases hp : builtin.params? with
          | some params =>
              rw [typeOf_builtin hb hp]
              exact .andThen ⟨typesOf_plain s args,
                .andThen ⟨checkArguments_plain _ _ span _, .pure⟩⟩
          | none =>
              cases builtin with
              | print =>
                  rw [typeOf_print hb]
                  exact .andThen ⟨printTypes_plain s args, .pure⟩
              | emitSignal =>
                  rw [typeOf, hb]
                  dsimp only
                  cases args with
                  | nil => exact .andThen ⟨.reported trivial, .pure⟩
                  | cons first rest =>
                      have hfirst := typeOf_plain s first
                      refine .andThen ⟨typesOf_plain s rest, ?_⟩
                      cases first with
                      | string nameSpan name =>
                          exact .andThen ⟨checkEmission_plain span nameSpan name _, .pure⟩
                      | _ => exact .andThen ⟨hfirst, .andThen ⟨.reported trivial, .pure⟩⟩
              | _ => cases hp

theorem typesOf_plain (s : Surroundings) : ∀ es : List Expr, (typesOf s es).Finds Finding.Plain
  | [] => .pure
  | e :: es => by
      rw [typesOf]
      exact .andThen ⟨typeOf_plain s e, .andThen ⟨typesOf_plain s es, .pure⟩⟩

theorem fieldTypes_plain (s : Surroundings) : ∀ fields : List (Ident × Expr),
    (fieldTypes s fields).Finds Finding.Plain
  | [] => .pure
  | (_, e) :: rest => by
      rw [fieldTypes]
      exact .andThen ⟨typeOf_plain s e, .andThen ⟨fieldTypes_plain s rest, .pure⟩⟩

theorem printTypes_plain (s : Surroundings) : ∀ es : List Expr,
    (printTypes s es).Finds Finding.Plain
  | [] => .pure
  | e :: es => by
      rw [printTypes]
      exact .andThen ⟨typeOf_plain s e, .andThen ⟨.reportIf trivial, printTypes_plain s es⟩⟩

end

theorem resolveType_plain (ref : TypeRef) (allowVoid : Bool) :
    (resolveType ref allowVoid).Finds Finding.Plain := by
  rw [resolveType]
  repeat' split
  all_goals first | exact .pure | exact .andThen ⟨.reported trivial, .pure⟩

theorem bindingType_plain (s : Surroundings) (declared : Option TypeRef) (init : Expr)
    (name : Text) : (bindingType s declared init name).Finds Finding.Plain := by
  rw [bindingType]
  refine .andThen ⟨typeOf_plain s init, ?_⟩
  cases declared with
  | some ref =>
      exact .andThen ⟨resolveType_plain ref false, .andThen ⟨.reportIf trivial, .pure⟩⟩
  | none =>
      dsimp only
      split
      · exact .andThen ⟨.reported trivial, .pure⟩
      · exact .pure

theorem pathType_plain : ∀ (path : List Ident) (t : Ty) (throughNode : Bool),
    (pathType t throughNode path).Finds Finding.Plain
  | [], _, _ => .pure
  | seg :: rest, t, throughNode => by
      rw [pathType]
      exact .andThen ⟨fieldType_plain t seg, pathType_plain rest _ _⟩

theorem targetType_plain (s : Surroundings) (target : AssignTarget) (op : AssignOp) :
    (targetType s target op).Finds Finding.Plain := by
  rw [targetType]
  split
  · split
    · exact .andThen ⟨.reported trivial, .pure⟩
    · exact .andThen ⟨pathType_plain _ _ _, .pure⟩
  · refine .andThen ⟨lookupVariable_plain _ _, ?_⟩
    split
    · exact .pure
    · exact .andThen ⟨.noted trivial, .andThen ⟨pathType_plain _ _ _,
        .andThen ⟨.reportIf trivial, .pure⟩⟩⟩

theorem checkAssigned_plain (span : Span) (target : AssignTarget) (op : AssignOp) (value : Expr)
    (expected found : Ty) :
    (checkAssigned span target op value expected found).Finds Finding.Plain := by
  rw [checkAssigned]
  repeat' split
  all_goals first | exact .pure | exact .reported trivial | exact .reportIf trivial

theorem checkAssign_plain (s : Surroundings) (span : Span) (target : AssignTarget) (op : AssignOp)
    (value : Expr) : (checkAssign s span target op value).Finds Finding.Plain := by
  rw [checkAssign_eq]
  exact .andThen ⟨targetType_plain s target op,
    .andThen ⟨typeOf_plain s value, checkAssigned_plain span target op value _ _⟩⟩

theorem checkCondition_plain (s : Surroundings) (test : Expr) (statement : Conditional) :
    (checkCondition s test statement).Finds Finding.Plain :=
  .andThen ⟨typeOf_plain s test, .reportIf trivial⟩

theorem checkReturn_plain (s : Surroundings) (owner : Signature) (span : Span)
    (value : Option Expr) : (checkReturn s owner span value).Finds Finding.Plain := by
  unfold checkReturn
  cases value with
  | none => exact .reportIf trivial
  | some e =>
      refine .andThen ⟨typeOf_plain s e, ?_⟩
      split
      · exact .reported trivial
      · exact .reportIf trivial

theorem signalParams_plain (signal : Text) : ∀ (seen : List Text) (ps : List Param),
    (signalParams signal seen ps).Finds Finding.Plain
  | _, [] => .pure
  | _, q :: ps => by
      rw [signalParams]
      exact .andThen ⟨.reportIf trivial, .andThen ⟨resolveType_plain q.declared false,
        .andThen ⟨signalParams_plain signal _ ps, .pure⟩⟩⟩

theorem collectSignals_plain : ∀ (seen : List Text) (ds : List SignalDecl),
    (collectSignals seen ds).Finds Finding.Plain
  | _, [] => .pure
  | _, d :: ds => by
      rw [collectSignals]
      split
      · exact .andThen ⟨.reported trivial, collectSignals_plain _ ds⟩
      · exact .andThen ⟨signalParams_plain _ [] d.params,
          .andThen ⟨collectSignals_plain _ ds, .pure⟩⟩

theorem paramTypes_plain : ∀ ps : List Param, (paramTypes ps).Finds Finding.Plain
  | [] => .pure
  | q :: ps => by
      rw [paramTypes]
      exact .andThen ⟨resolveType_plain q.declared false, .andThen ⟨paramTypes_plain ps, .pure⟩⟩

theorem enterFunction_plain (seen : List Text) (f : FunctionDecl Unit) :
    (enterFunction seen f).Finds Finding.Plain := by
  have hsignature : (signatureOf f).Finds Finding.Plain := by
    rw [signatureOf]
    refine .andThen ⟨paramTypes_plain f.params, ?_⟩
    cases f.returns with
    | none => exact .pure
    | some ref => exact .andThen ⟨resolveType_plain ref true, .pure⟩
  rw [enterFunction]
  split
  · exact .andThen ⟨.reported trivial, .pure⟩
  · split
    · exact .andThen ⟨.reported trivial, .pure⟩
    · refine .andThen ⟨hsignature, ?_⟩
      split
      · exact .andThen ⟨.reportIf trivial, .pure⟩
      · exact .pure

theorem collectFunctions_plain : ∀ (seen : List Text) (fs : List (FunctionDecl Unit)),
    (collectFunctions seen fs).Finds Finding.Plain
  | _, [] => .pure
  | seen, f :: fs => by
      rw [collectFunctions_cons]
      exact .andThen ⟨enterFunction_plain seen f,
        .andThen ⟨collectFunctions_plain _ fs, .pure⟩⟩

theorem rangeNumbers_plain (type : Ty) : ∀ args : List Expr,
    (rangeNumbers type args).Finds Finding.Plain
  | [] => .pure
  | arg :: rest => by
      rw [rangeNumbers]
      split
      · exact .andThen ⟨rangeNumbers_plain type rest, .pure⟩
      · exact .andThen ⟨.reported trivial, .pure⟩

theorem rangeHint_plain (hint : HintCall) (type : Ty) :
    (rangeHint hint type).Finds Finding.Plain := by
  rw [rangeHint]
  split
  · exact .andThen ⟨.reported trivial, .pure⟩
  · split
    · exact .andThen ⟨.reported trivial, .pure⟩
    · refine .andThen ⟨rangeNumbers_plain type hint.args, ?_⟩
      dsimp only
      repeat' split
      all_goals first | exact .pure | exact .andThen ⟨.reported trivial, .pure⟩

theorem listedTexts_plain (hint : Text) : ∀ args : List Expr,
    (listedTexts hint args).Finds Finding.Plain
  | [] => .pure
  | arg :: rest => by
      rw [listedTexts]
      split
      · exact .andThen ⟨listedTexts_plain hint rest, .pure⟩
      · exact .andThen ⟨.reported trivial, .pure⟩

theorem hintTexts_plain (hint : HintCall) : (hintTexts hint).Finds Finding.Plain := by
  rw [hintTexts]
  split
  · exact .andThen ⟨.reported trivial, .pure⟩
  · exact listedTexts_plain _ hint.args

theorem checkHint_plain (hint : HintCall) (type : Ty) :
    (checkHint hint type).Finds Finding.Plain := by
  rw [checkHint]
  repeat' split
  all_goals first
    | exact rangeHint_plain hint type
    | exact .andThen ⟨hintTexts_plain hint, .pure⟩
    | exact .andThen ⟨.reported trivial, .pure⟩

theorem checkExport_plain (mark : ExportMark) (g : GlobalDecl) (type : Ty) :
    (checkExport mark g type).Finds Finding.Plain := by
  rw [checkExport]
  refine .andThen ⟨.reportIf trivial, ?_⟩
  split
  · exact .pure
  · split
    · exact .andThen ⟨.reported trivial, .pure⟩
    · refine .andThen ⟨.reportIf trivial, ?_⟩
      dsimp only
      split
      case' h_1 h hm => refine .andThen ⟨checkHint_plain h type, ?_⟩
      case' h_2 => refine .andThen ⟨.pure, ?_⟩
      all_goals
        repeat' split
        all_goals first | exact .pure | exact .andThen ⟨.reported trivial, .pure⟩

end Plain

/-! ## What is introduced is guarded -/

/-- What the finding introduces has a type that a variable may have. -/
def Finding.Storable : Finding → Prop
  | .declared v => v.type.Storable
  | .bound b    => b.type.Storable
  | _           => True

/-- Whatever is introduced without a type that a variable may have stands behind a diagnostic. -/
def Guarded (log : List Finding) : Prop :=
  ∀ before f after, log = before ++ f :: after → ¬ f.Storable → findingDiagnostics before ≠ []

theorem Finding.Plain.storable {f : Finding} (h : f.Plain) : f.Storable := by
  cases f with
  | declared v => exact h.elim
  | bound b => exact h.elim
  | _ => trivial

namespace Guarded

theorem of_storable {log : List Finding} (h : ∀ f ∈ log, f.Storable) : Guarded log := by
  rintro before f after rfl hf
  exact absurd (h f (List.mem_append_right _ List.mem_cons_self)) hf

/-- What comes second need only be guarded when nothing was reported first. -/
theorem append {a b : List Finding} (ha : Guarded a) (hb : Spotless a → Guarded b) :
    Guarded (a ++ b) := by
  intro before f after heq hf hnil
  have hspotless := spotless_iff.mpr hnil
  rcases List.append_eq_append_iff.mp heq with ⟨between, rfl, hrest⟩ | ⟨between, rfl, hrest⟩
  · -- The finding is in the second list, behind all of the first.
    obtain ⟨hfirst, hsecond⟩ := spotless_append.mp hspotless
    exact hb hfirst between f after hrest hf (spotless_iff.mp hsecond)
  · cases between with
    | nil =>
        rw [List.append_nil] at hb
        exact hb hspotless [] f after hrest.symm hf rfl
    | cons g between =>
        obtain ⟨rfl, -⟩ := List.cons.inj hrest
        exact ha before f between rfl hf hnil

variable {α β : Type}

theorem pure (a : α) : Guarded (Pure.pure a : Check α).findings :=
  of_storable fun _ hf => absurd hf List.not_mem_nil

theorem of_plain {x : Check α} (h : x.Finds Finding.Plain) : Guarded x.findings :=
  of_storable fun f hf => (h f hf).storable

theorem bound {b : Binding} (h : b.type.Storable) : Guarded (Check.note (.bound b)).findings :=
  of_storable (List.forall_mem_singleton.mpr h)

theorem declared {v : Variable} (h : v.type.Storable) :
    Guarded (Check.note (.declared v)).findings :=
  of_storable (List.forall_mem_singleton.mpr h)

theorem bind {x : Check α} {f : α → Check β} (hx : Guarded x.findings)
    (hf : x.Clean → Guarded (f x.value).findings) : Guarded (x >>= f).findings :=
  hx.append hf

theorem declare (scope : Scope) {v : Variable} (duplicate : Problem) (hv : v.type.Storable) :
    Guarded (declare scope v duplicate).findings := by
  rw [SceneScript.declare]
  split
  · exact bind (declared hv) fun _ => pure _
  · exact bind (of_plain (.reported trivial)) fun _ => pure _

end Guarded

mutual

/-- What a statement introduces is guarded. -/
theorem checkStmt_guarded {s : Surroundings} (hs : Known s) {owner : Signature}
    (ho : owner.returns ≠ .unknown) : ∀ st, Guarded (checkStmt s owner st).findings
  | .block b => by
      rw [checkStmt]
      exact (checkBlock_guarded hs ho b).bind fun _ => .pure _
  | .bind span name mutable declared init _ => by
      rw [checkStmt]
      refine (Guarded.of_plain (bindingType_plain s declared init name.name)).bind fun hclean => ?_
      obtain ⟨-, -, -, hstorable⟩ := bindingType_clean hs hclean
      exact (Guarded.bound hstorable).bind fun _ =>
        (Guarded.declare _ _ hstorable).bind fun _ => .pure _
  | .assign span target op value => by
      rw [checkStmt]
      exact (Guarded.of_plain (checkAssign_plain s span target op value)).bind fun _ => .pure _
  | .cond k => by
      rw [checkStmt]
      exact (checkCond_guarded hs ho k).bind fun _ => .pure _
  | .loop span test body => by
      rw [checkStmt]
      exact (Guarded.of_plain (checkCondition_plain s test _)).bind fun _ =>
        (checkBlock_guarded hs ho body).bind fun _ => .pure _
  | .ret span value => by
      rw [checkStmt]
      exact (Guarded.of_plain (checkReturn_plain s owner span value)).bind fun _ => .pure _
  | .eval span e => by
      rw [checkStmt]
      exact (Guarded.of_plain (typeOf_plain s e)).bind fun _ => .pure _

theorem checkBlock_guarded {s : Surroundings} (hs : Known s) {owner : Signature}
    (ho : owner.returns ≠ .unknown) : ∀ b, Guarded (checkBlock s owner b).findings
  | .mk span body => by
      rw [checkBlock]
      exact (checkStmts_guarded hs.block ho body).bind fun _ => .pure _

theorem checkCond_guarded {s : Surroundings} (hs : Known s) {owner : Signature}
    (ho : owner.returns ≠ .unknown) : ∀ k, Guarded (checkCond s owner k).findings
  | .mk span test consequent alternate => by
      rw [checkCond]
      exact (Guarded.of_plain (checkCondition_plain s test _)).bind fun _ =>
        (checkBlock_guarded hs ho consequent).bind fun _ =>
          (checkElse_guarded hs ho alternate).bind fun _ => .pure _

theorem checkElse_guarded {s : Surroundings} (hs : Known s) {owner : Signature}
    (ho : owner.returns ≠ .unknown) : ∀ a, Guarded (checkElse s owner a).findings
  | .absent => by
      rw [checkElse]
      exact .pure _
  | .block b => by
      rw [checkElse]
      exact (checkBlock_guarded hs ho b).bind fun _ => .pure _
  | .cond k => by
      rw [checkElse]
      exact (checkCond_guarded hs ho k).bind fun _ => .pure _

theorem checkStmts_guarded {s : Surroundings} (hs : Known s) {owner : Signature}
    (ho : owner.returns ≠ .unknown) : ∀ body, Guarded (checkStmts s owner body).findings
  | [] => by
      rw [checkStmts]
      exact .pure _
  | st :: rest => by
      rw [checkStmts]
      exact (checkStmt_guarded hs ho st).bind fun hclean =>
        (checkStmts_guarded ((checkStmt_clean hs ho st hclean).known hs) ho rest).bind
          fun _ => .pure _

end

theorem declareParams_guarded (owner : Signature) : ∀ (params : List Param) (scope : Scope)
    (types : List TypedName), params.length = types.length →
    (∀ t ∈ types, t.type.Storable) →
    Guarded (declareParams owner scope params types).findings
  | [], _, _, _, _ => .pure _
  | _ :: _, _, [], hn, _ => by cases hn
  | q :: ps, scope, t :: ts, hn, ht => by
      obtain ⟨hfirst, hrest⟩ := List.forall_mem_cons.mp ht
      rw [declareParams]
      exact (Guarded.bound hfirst).bind fun _ => (Guarded.declare _ _ hfirst).bind fun _ =>
        declareParams_guarded owner ps _ ts (Nat.succ.inj hn) hrest

theorem checkBody_guarded {s : Surroundings} (hs : Known s)
    {entry : FunctionDecl Unit × Option Signature} (hentry : Entered entry) :
    Guarded (checkBody s (ownerOf entry) entry.1).findings := by
  rw [checkBody]
  refine (declareParams_guarded (ownerOf entry) entry.1.params _ _ hentry.2.symm
    hentry.1.params).bind fun hclean => ?_
  exact (checkStmts_guarded (enterBody_known hs hentry hclean) hentry.1.returns
    entry.1.body.body).bind fun _ =>
      (Guarded.of_plain (.reportIf trivial)).bind fun _ => .pure _

theorem checkBodies_guarded {s : Surroundings} (hs : Known s) :
    ∀ entries : List (FunctionDecl Unit × Option Signature), (∀ entry ∈ entries, Entered entry) →
      Guarded (checkBodies s entries).findings
  | [], _ => .pure _
  | (f, signature) :: rest, h => by
      obtain ⟨hentry, hrest⟩ := List.forall_mem_cons.mp h
      rw [checkBodies]
      refine (checkBody_guarded hs hentry).bind fun _ =>
        (checkBodies_guarded hs rest hrest).bind fun _ => ?_
      cases signature <;> exact .pure _

theorem checkGlobals_guarded {s : Surroundings} : ∀ (gs : List GlobalDecl)
    (before : List GlobalInfo), Known (s.initializer before) →
      Guarded (checkGlobals s.functions s.signals before gs).findings
  | [], _, _ => .pure _
  | g :: gs, before, hs => by
      rw [checkGlobals_cons]
      refine Guarded.bind ?_ fun hclean =>
        checkGlobals_guarded gs _ (checkGlobal_known hs hclean)
      rw [checkGlobal]
      refine (Guarded.of_plain (bindingType_plain _ g.declared g.init g.name.name)).bind
        fun hclean => ?_
      obtain ⟨-, -, -, hstorable⟩ := bindingType_clean hs hclean
      refine (Guarded.bound hstorable).bind fun _ => ?_
      split
      · exact (Guarded.of_plain (.reported trivial)).bind fun _ => .pure _
      · refine (Guarded.declared hstorable).bind fun _ => ?_
        cases g.exported with
        | none => exact (Guarded.pure _).bind fun _ => .pure _
        | some mark =>
            exact (Guarded.of_plain (checkExport_plain mark g _)).bind fun _ => .pure _

/-- Whatever a script introduces without a type that a variable may have stands behind a
    diagnostic. -/
theorem checkProgram_guarded (p : Program Unit) : Guarded (checkProgram p).findings := by
  rw [Program.checkProgram_eq, List.append_nil]
  refine (Guarded.of_plain (collectSignals_plain [] p.signals)).append fun hsignals => ?_
  refine (Guarded.of_plain (collectFunctions_plain [] p.functions)).append fun hfunctions => ?_
  refine (checkGlobals_guarded (s := p.surroundings true []) p.globals [] ?_).append
    fun hglobals => ?_
  · exact p.surroundings_known hsignals hfunctions true fun name v hv => by cases hv
  · exact checkBodies_guarded (p.checkedGlobals_known hsignals hfunctions hglobals)
      p.collected.value (p.collected_entered hfunctions)

/-! ## Scripts without diagnostics -/

/-- All types in the result of checking a script are known, and no variable is `void`. -/
structure Checked.Settled (c : Checked) : Prop where
  globals   : ∀ g ∈ c.globals, g.type.Storable
  bindings  : ∀ b ∈ c.bindings, b.type.Storable
  symbols   : ∀ symbol ∈ c.symbols, symbol.declared.type.Storable
  functions : ∀ f ∈ c.functions, f.signature.Known
  signals   : ∀ signal ∈ c.signals, ∀ q ∈ signal.params, q.type.Storable

theorem checkProgram_settled {p : Program Unit} (h : (checkProgram p).diagnostics = []) :
    (checkProgram p).Settled := by
  have hspotless : Spotless (checkProgram p).findings := spotless_iff.mpr h
  have htyped := checkProgram_wellTyped hspotless
  -- Nothing was reported at all, so nothing can stand behind a report.
  have hstorable : ∀ f ∈ (checkProgram p).findings, f.Storable := by
    intro f hf
    by_contra hvague
    obtain ⟨before, after, heq⟩ := List.append_of_mem hf
    refine checkProgram_guarded p before f after heq hvague (spotless_iff.mp ?_)
    exact hspotless.of_prefix ⟨f :: after, heq.symm⟩
  refine ⟨?_, ?_, ?_, ?_, htyped.signals⟩
  · intro g hg
    obtain ⟨before, after, heq⟩ := List.append_of_mem hg
    exact (htyped.globals before g after heq).storable
  · intro b hb
    obtain ⟨f, hf, hsome⟩ := List.mem_filterMap.mp hb
    cases f with
    | bound b' =>
        cases hsome
        exact hstorable _ hf
    | _ => cases hsome
  · intro symbol hsymbol
    obtain ⟨f, hf, hsome⟩ := List.mem_filterMap.mp hsymbol
    cases f with
    | declared v =>
        cases hsome
        exact hstorable _ hf
    | _ => cases hsome
  · intro f hf
    exact ⟨(htyped.functions f hf).params, (htyped.functions f hf).returns⟩

/-- **Nothing is unknown without a diagnostic.** Whenever checking a script settles on the type
    `unknown`, a diagnostic has been recorded before; the same goes for every variable and binding
    that is introduced as `unknown` or `void`. So a script without diagnostics has only known
    types in its tables, and none of its expressions was found to be `unknown`. -/
theorem checkProgram_unknown_reported (p : Program Unit) :
    (∀ found s c more, p.Reaches found s c → c.Assigns s more .unknown →
      findingDiagnostics (found ++ more) ≠ [] ∧ found ++ more <+: (checkProgram p).findings) ∧
    Guarded (checkProgram p).findings ∧
    ((checkProgram p).diagnostics = [] → (checkProgram p).Settled ∧
      ∀ found s e, p.Reaches found s (.expr e) → (typeOf s e).value ≠ .unknown) := by
  refine ⟨?_, checkProgram_guarded p, ?_⟩
  · intro found s c more h ht
    exact ⟨h.reported ht, ((List.prefix_append_right_inj found).mpr ht.log).trans h.log⟩
  · intro hnone
    refine ⟨checkProgram_settled hnone, ?_⟩
    intro found s e h
    have hspotless : Spotless (found ++ (typeOf s e).findings) :=
      Spotless.of_prefix (spotless_iff.mpr hnone) h.log
    obtain ⟨hfound, hmore⟩ := spotless_append.mp hspotless
    exact (Code.Assigns.expr e).known (h.sound hfound) hmore

/-- `let gone = lost;`, where nothing is called `lost`. -/
def lostName : Program Unit :=
  ⟨.origin, [.global ⟨.origin, ⟨"gone", .origin⟩, false, none, .ident ⟨"lost", .origin⟩, none⟩]⟩

/-- A script with a global, a parameter, a result and a signal. -/
def doubling : Program Unit :=
  (parseSource
    "signal hit(by: i32); let base = 2; fn twice(n: i32) -> i32 { return n * base; }").program

/-- The name that is lost is unknown and was reported; the other script has no diagnostics, and
    nothing in it is unknown. -/
theorem checkProgram_unknown_reported_lostName :
    (∃ found s c more, lostName.Reaches found s c ∧ c.Assigns s more .unknown ∧
      findingDiagnostics (found ++ more) ≠ []) ∧
    (checkProgram doubling).diagnostics = [] ∧ (checkProgram doubling).Settled ∧
      ∀ found s e, doubling.Reaches found s (.expr e) → (typeOf s e).value ≠ .unknown := by
  have hinit : lostName.Reaches _ _ (.expr (.ident ⟨"lost", .origin⟩)) :=
    Program.Reaches.part .globals (.global [] _ [])
  have hunknown := Code.Assigns.expr (s := (lostName.surroundings true []).initializer [])
    (.ident ⟨"lost", .origin⟩)
  have hclean : (checkProgram doubling).diagnostics = [] := by decide +kernel
  exact ⟨⟨_, _, _, _, hinit, hunknown,
      ((checkProgram_unknown_reported lostName).1 _ _ _ _ hinit hunknown).1⟩,
    hclean, (checkProgram_unknown_reported doubling).2.2 hclean⟩

end SceneScript
