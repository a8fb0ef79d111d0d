import SceneScript.Proofs.Typing.Reordering
import SceneScript.Proofs.Syntax.Parts
import SceneScript.Proofs.Typing.Shape
import SceneScript.Proofs.Typing.Sound

/-!
# What checking comes to

Checking a script goes through its declarations, their statements and the expressions in them,
and leaves its findings on the way. This file follows it: every piece of code that checking
comes to is there with what it sees and with the findings that were made before.

* **`Code`**, **`Code.log`** — a piece of code, and what checking it finds.
* **`Part`** — one step from a piece of code to a piece of it; **`Part.log`** — what is found in
  the part is found in the whole, after the findings on the way.
* **`Program.Reaches`** — the code that checking a script comes to; **`Reaches.log`**.
* **`Program.types_part`** — no expression of a script is passed over.
-/

namespace SceneScript

open Check (report reportIf)

/-! ## Checks of single declarations -/

namespace Check

variable {α β : Type}

@[simp] theorem findings_pure (a : α) : (pure a : Check α).findings = [] := rfl

@[simp] theorem findings_bind (x : Check α) (f : α → Check β) :
    (x >>= f).findings = x.findings ++ (f x.value).findings := rfl

end Check

/-- The signature under which a function is entered; none when its name is taken. -/
def enterFunction (seen : List Text) (f : FunctionDecl Unit) : Check (Option Signature) := do
  if (Builtin.ofText? f.name.name).isSome then
    Check.report f.name.span (.builtinRedefined f.name.name)
    return none
  if f.name.name ∈ seen then
    Check.report f.name.span (.duplicateFunction f.name.name)
    return none
  let signature ← signatureOf f
  match Lifecycle.ofFunction? f.name.name with
  | some k =>
      Check.reportIf (!fitsLifecycle signature k) f.name.span (.lifecycleSignature k)
  | none => pure ()
  return some signature

/-- The names that are taken once a function has been entered. -/
def takenNames (seen : List Text) (f : FunctionDecl Unit) : Option Signature → List Text
  | some _ => f.name.name :: seen
  | none   => seen

theorem collectFunctions_cons (seen : List Text) (f : FunctionDecl Unit)
    (fs : List (FunctionDecl Unit)) :
    collectFunctions seen (f :: fs) = (do
      let signature ← enterFunction seen f
      let rest ← collectFunctions (takenNames seen f signature) fs
      return (f, signature) :: rest) := by
  rw [collectFunctions, enterFunction]
  by_cases hb : (Builtin.ofText? f.name.name).isSome = true
  · simp only [if_pos hb, bind_assoc, pure_bind, takenNames]
  · by_cases hs : f.name.name ∈ seen
    · simp only [if_neg hb, if_pos hs, bind_assoc, pure_bind, takenNames]
    · simp only [if_neg hb, if_neg hs, bind_assoc]
      cases Lifecycle.ofFunction? f.name.name <;> simp only [bind_assoc, pure_bind, takenNames]

/-- Checks one global and puts it behind the ones before it, unless its name is taken. -/
def checkGlobal (functions : List Signature) (signals : List Signal) (before : List GlobalInfo)
    (g : GlobalDecl) : Check (List GlobalInfo) := do
  let scope : Scope := [before.map GlobalInfo.declared]
  let type ← bindingType ⟨functions, signals, true, scope⟩ g.declared g.init g.name.name
  Check.note (.bound ⟨.globalDeclaration, g.name.name, g.span, type⟩)
  if (scope.find? g.name.name).isSome then
    Check.report g.name.span (.duplicateGlobal g.name.name)
    return before
  else
    Check.note (.declared ⟨g.name, .global, type, g.mutable⟩)
    let property ← match g.exported with
      | some mark => checkExport mark g type
      | none      => pure none
    return before ++ [⟨g, type, property⟩]

theorem checkGlobals_cons (functions : List Signature) (signals : List Signal)
    (before : List GlobalInfo) (g : GlobalDecl) (gs : List GlobalDecl) :
    checkGlobals functions signals before (g :: gs) = (do
      let before ← checkGlobal functions signals before g
      checkGlobals functions signals before gs) := by
  rw [checkGlobals, checkGlobal]
  simp only [bind_assoc]
  congr 1
  funext type
  congr 1
  funext _
  split
  · simp only [bind_assoc, pure_bind]
  · cases g.exported <;> simp only [bind_assoc, pure_bind]

/-- The type of an assignment target, `unknown` after reporting why it has none. -/
def targetType (s : Surroundings) (target : AssignTarget) (op : AssignOp) : Check Ty := do
  match target.root with
  | .self _ =>
      if target.path.isEmpty then
        Check.report target.span .assignSelf
        return .unknown
      let (expected, _) ← pathType .node false target.path
      return expected
  | .name id =>
      match ← lookupVariable s.scope id with
      | none   => return .unknown
      | some v =>
          Check.note (.written v.id)
          let (expected, throughNode) ← pathType v.type false target.path
          Check.reportIf (!v.mutable && !throughNode) target.span
            (.assignImmutable op v.id.name (v.kind == .param))
          return expected

/-- Nothing is checked against a target without a type. -/
theorem checkAssigned_unknown (span : Span) (target : AssignTarget) (op : AssignOp) (value : Expr)
    (found : Ty) : checkAssigned span target op value .unknown found = pure () := by
  rw [checkAssigned]
  exact if_pos (.inl rfl)

theorem checkAssign_eq (s : Surroundings) (span : Span) (target : AssignTarget) (op : AssignOp)
    (value : Expr) : checkAssign s span target op value = (do
      let expected ← targetType s target op
      let found ← typeOf s value
      checkAssigned span target op value expected found) := by
  rw [checkAssign, targetType]
  cases target.root with
  | self root =>
      dsimp only
      split
      · simp only [bind_assoc, pure_bind, checkAssigned_unknown]
      · simp only [bind_assoc, pure_bind]
  | name id =>
      simp only [bind_assoc]
      congr 1
      funext found
      cases found with
      | none => simp only [pure_bind, checkAssigned_unknown]
      | some v => simp only [bind_assoc, pure_bind]

/-! ## The calls -/

section Calls

variable {s : Surroundings} {span : Span} {callee : Ident} {args : List Expr}

theorem typeOf_print (hb : Builtin.ofText? callee.name = some .print) :
    typeOf s (.call span callee args) = (do
      printTypes s args
      return .void) := by
  rw [typeOf, hb]

/-- An emission whose first argument is no literal. -/
theorem typeOf_emit_computed (hb : Builtin.ofText? callee.name = some .emitSignal) {first : Expr}
    {rest : List Expr} (hfirst : ∀ span t, first ≠ .string span t) :
    typeOf s (.call span callee (first :: rest)) = (do
      let _ ← typesOf s rest
      let _ ← typeOf s first
      Check.report first.span .emitNameNotLiteral
      return .void) := by
  rw [typeOf, hb]
  cases first with
  | string nameSpan name => exact absurd rfl (hfirst nameSpan name)
  | _ => rfl

/-- What an emission finds begins with what its other arguments find. -/
theorem typesOf_isPrefix_emit (hb : Builtin.ofText? callee.name = some .emitSignal) (first : Expr)
    (rest : List Expr) :
    (typesOf s rest).findings <+: (typeOf s (.call span callee (first :: rest))).findings := by
  rw [typeOf, hb]
  simp only [Check.findings_bind]
  exact List.prefix_append _ _

theorem typeOf_builtin {b : Builtin} (hb : Builtin.ofText? callee.name = some b)
    {params : List TypedName} (hp : b.params? = some params) :
    typeOf s (.call span callee args) = (do
      let types ← typesOf s args
      checkArguments callee.name params span types
      return b.returns) := by
  rw [typeOf, hb]
  cases b <;> cases hp <;> rfl

theorem typeOf_undefined (hb : Builtin.ofText? callee.name = none)
    (hf : s.function? callee.name = none) :
    typeOf s (.call span callee args) = (do
      let _ ← typesOf s args
      Check.report callee.span (.undefinedFunction callee.name s.callable)
      return .unknown) := by
  rw [typeOf, hb]
  simp only [hf]

theorem typeOf_function (hb : Builtin.ofText? callee.name = none) {f : Signature}
    (hf : s.function? callee.name = some f) :
    typeOf s (.call span callee args) = (do
      Check.reportIf s.initializing callee.span (.callInInitializer callee.name)
      let types ← typesOf s args
      checkArguments callee.name f.params span types
      return f.returns) := by
  rw [typeOf, hb]
  simp only [hf]

theorem typesOf_log (s : Surroundings) (a : List Expr) (x : Expr) (b : List Expr) :
    (typesOf s a).findings ++ (typeOf s x).findings <+: (typesOf s (a ++ x :: b)).findings := by
  induction a with
  | nil =>
      rw [List.nil_append, typesOf, typesOf]
      exact List.prefix_append _ _
  | cons e es ih =>
      rw [List.cons_append, typesOf, typesOf]
      simpa only [Check.findings_bind, Check.findings_pure, List.append_nil, List.append_assoc,
        List.prefix_append_right_inj] using ih

theorem fieldTypes_log (s : Surroundings) (a : List (Ident × Expr)) (x : Ident × Expr)
    (b : List (Ident × Expr)) :
    (fieldTypes s a).findings ++ (typeOf s x.2).findings <+:
      (fieldTypes s (a ++ x :: b)).findings := by
  induction a with
  | nil =>
      rw [List.nil_append, fieldTypes, fieldTypes]
      exact List.prefix_append _ _
  | cons e es ih =>
      rw [List.cons_append, fieldTypes, fieldTypes]
      simpa only [Check.findings_bind, Check.findings_pure, List.append_nil, List.append_assoc,
        List.prefix_append_right_inj] using ih

theorem printTypes_log (s : Surroundings) (a : List Expr) (x : Expr) (b : List Expr) :
    (printTypes s a).findings ++ (typeOf s x).findings <+:
      (printTypes s (a ++ x :: b)).findings := by
  induction a with
  | nil =>
      rw [List.nil_append, printTypes, printTypes]
      exact List.prefix_append _ _
  | cons e es ih =>
      rw [List.cons_append, printTypes, printTypes]
      simpa only [Check.findings_bind, List.append_assoc, List.prefix_append_right_inj] using ih

end Calls

/-! ## Code and its parts -/

/-- A piece of code that checking comes to, with what the pass over it carries along. -/
inductive Code where
  | signals (seen : List Text) (decls : List SignalDecl)
  | signalParams (signal : Text) (seen : List Text) (params : List Param)
  | functions (seen : List Text) (decls : List (FunctionDecl Unit))
  | params (params : List Param)
  | typeRef (ref : TypeRef) (allowVoid : Bool)
  | globals (before : List GlobalInfo) (decls : List GlobalDecl)
  | bodies (entries : List (FunctionDecl Unit × Option Signature))
  | stmts (owner : Signature) (body : List (Stmt Unit))
  | stmt (owner : Signature) (st : Stmt Unit)
  | block (owner : Signature) (b : Block Unit)
  | cond (owner : Signature) (k : Cond Unit)
  | els (owner : Signature) (a : Else Unit)
  | expr (e : Expr)

/-- What checking a piece of code finds. -/
def Code.log (s : Surroundings) : Code → List Finding
  | .signals seen decls              => (collectSignals seen decls).findings
  | .signalParams signal seen ps     => (SceneScript.signalParams signal seen ps).findings
  | .functions seen decls            => (collectFunctions seen decls).findings
  | .params ps                       => (paramTypes ps).findings
  | .typeRef ref allowVoid           => (resolveType ref allowVoid).findings
  | .globals before decls            => (checkGlobals s.functions s.signals before decls).findings
  | .bodies entries                  => (checkBodies s entries).findings
  | .stmts owner body                => (checkStmts s owner body).findings
  | .stmt owner st                   => (checkStmt s owner st).findings
  | .block owner b                   => (checkBlock s owner b).findings
  | .cond owner k                    => (checkCond s owner k).findings
  | .els owner a                     => (checkElse s owner a).findings
  | .expr e                          => (typeOf s e).findings

/-- What the initializers of globals see. -/
def Surroundings.initializer (s : Surroundings) (before : List GlobalInfo) : Surroundings :=
  ⟨s.functions, s.signals, true, [before.map GlobalInfo.declared]⟩

/-- The signature under which the body of a function is checked. -/
def ownerOf (entry : FunctionDecl Unit × Option Signature) : Signature :=
  entry.2.getD (plainSignature entry.1)

/-- The scope of a body with the parameters declared. -/
def enterBody (s : Surroundings) (entry : FunctionDecl Unit × Option Signature) : Check Scope :=
  declareParams (ownerOf entry) ([] :: s.scope) entry.1.params (ownerOf entry).params

/-- `Part s c found s' c'`: checking `c`, which sees `s`, goes into its part `c'`, which sees
    `s'`, after it has made the findings `found`. -/
inductive Part (s : Surroundings) : Code → List Finding → Surroundings → Code → Prop where
  -- Signals and functions
  | signal (seen d ds) (hnew : d.name.name ∉ seen) :
      Part s (.signals seen (d :: ds)) [] s (.signalParams d.name.name [] d.params)
  | laterSignals (seen d ds) (hnew : d.name.name ∉ seen) :
      Part s (.signals seen (d :: ds)) (signalParams d.name.name [] d.params).findings
        s (.signals (d.name.name :: seen) ds)
  | afterDuplicate (seen d ds) (hseen : d.name.name ∈ seen) :
      Part s (.signals seen (d :: ds))
        (report d.name.span (.duplicateSignal d.name.name)).findings s (.signals seen ds)
  | signalParam (signal seen p ps) :
      Part s (.signalParams signal seen (p :: ps))
        (reportIf (decide (p.name.name ∈ seen)) p.name.span
          (.duplicateSignalParam p.name.name signal)).findings s (.typeRef p.declared false)
  | laterSignalParams (signal seen p ps) :
      Part s (.signalParams signal seen (p :: ps))
        ((reportIf (decide (p.name.name ∈ seen)) p.name.span
          (.duplicateSignalParam p.name.name signal)).findings ++
            (resolveType p.declared false).findings)
        s (.signalParams signal (p.name.name :: seen) ps)
  | functionParams (seen f fs) (hown : Builtin.ofText? f.name.name = none)
      (hnew : f.name.name ∉ seen) : Part s (.functions seen (f :: fs)) [] s (.params f.params)
  | functionReturns (seen f fs ref) (hown : Builtin.ofText? f.name.name = none)
      (hnew : f.name.name ∉ seen) (href : f.returns = some ref) :
      Part s (.functions seen (f :: fs)) (paramTypes f.params).findings s (.typeRef ref true)
  | laterFunctions (seen f fs) :
      Part s (.functions seen (f :: fs)) (enterFunction seen f).findings
        s (.functions (takenNames seen f (enterFunction seen f).value) fs)
  | param (p ps) : Part s (.params (p :: ps)) [] s (.typeRef p.declared false)
  | laterParams (p ps) :
      Part s (.params (p :: ps)) (resolveType p.declared false).findings s (.params ps)
  -- Globals and bodies
  | global (before g gs) :
      Part s (.globals before (g :: gs)) [] (s.initializer before) (.expr g.init)
  | globalType (before g gs ref) (href : g.declared = some ref) :
      Part s (.globals before (g :: gs)) (typeOf (s.initializer before) g.init).findings
        (s.initializer before) (.typeRef ref false)
  | laterGlobals (before g gs) :
      Part s (.globals before (g :: gs)) (checkGlobal s.functions s.signals before g).findings
        s (.globals (checkGlobal s.functions s.signals before g).value gs)
  | body (entry rest) :
      Part s (.bodies (entry :: rest)) (enterBody s entry).findings
        { s with scope := (enterBody s entry).value } (.stmts (ownerOf entry) entry.1.body.body)
  | laterBodies (entry rest) :
      Part s (.bodies (entry :: rest)) (checkBody s (ownerOf entry) entry.1).findings
        s (.bodies rest)
  -- Statements
  | first (owner st rest) : Part s (.stmts owner (st :: rest)) [] s (.stmt owner st)
  | later (owner st rest) :
      Part s (.stmts owner (st :: rest)) (checkStmt s owner st).findings
        { s with scope := (checkStmt s owner st).value.2 } (.stmts owner rest)
  | inner (owner b) : Part s (.stmt owner (.block b)) [] s (.block owner b)
  | init (owner span name mutable declared init) :
      Part s (.stmt owner (.bind span name mutable declared init ())) [] s (.expr init)
  | bindType (owner span name mutable ref init) :
      Part s (.stmt owner (.bind span name mutable (some ref) init ())) (typeOf s init).findings
        s (.typeRef ref false)
  | assigned (owner span target op value) :
      Part s (.stmt owner (.assign span target op value)) (targetType s target op).findings
        s (.expr value)
  | branch (owner k) : Part s (.stmt owner (.cond k)) [] s (.cond owner k)
  | loopTest (owner span test body) : Part s (.stmt owner (.loop span test body)) [] s (.expr test)
  | loopBody (owner span test body) :
      Part s (.stmt owner (.loop span test body)) (checkCondition s test .whileTest).findings
        s (.block owner body)
  | returned (owner span e) : Part s (.stmt owner (.ret span (some e))) [] s (.expr e)
  | evaluated (owner span e) : Part s (.stmt owner (.eval span e)) [] s (.expr e)
  | contents (owner span body) :
      Part s (.block owner (.mk span body)) [] { s with scope := [] :: s.scope }
        (.stmts owner body)
  | test (owner span test consequent alternate) :
      Part s (.cond owner (.mk span test consequent alternate)) [] s (.expr test)
  | consequent (owner span test consequent alternate) :
      Part s (.cond owner (.mk span test consequent alternate))
        (checkCondition s test .ifTest).findings s (.block owner consequent)
  | alternate (owner span test consequent alternate) :
      Part s (.cond owner (.mk span test consequent alternate))
        ((checkCondition s test .ifTest).findings ++ (checkBlock s owner consequent).findings)
        s (.els owner alternate)
  | elseBlock (owner b) : Part s (.els owner (.block b)) [] s (.block owner b)
  | elseCond (owner k) : Part s (.els owner (.cond k)) [] s (.cond owner k)
  -- Expressions
  | object (span object name) : Part s (.expr (.field span object name)) [] s (.expr object)
  | operand (span op arg) : Part s (.expr (.unary span op arg)) [] s (.expr arg)
  | left (span op left right) : Part s (.expr (.binary span op left right)) [] s (.expr left)
  | right (span op left right) :
      Part s (.expr (.binary span op left right)) (typeOf s left).findings s (.expr right)
  | fieldValue (span name a x b) :
      Part s (.expr (.struct span name (a ++ x :: b))) (fieldTypes s a).findings s (.expr x.2)
  | printed (span callee a x b) (hb : Builtin.ofText? callee.name = some .print) :
      Part s (.expr (.call span callee (a ++ x :: b))) (printTypes s a).findings s (.expr x)
  | emitted (span callee first a x b) (hb : Builtin.ofText? callee.name = some .emitSignal) :
      Part s (.expr (.call span callee (first :: (a ++ x :: b)))) (typesOf s a).findings
        s (.expr x)
  | emittedName (span callee first rest) (hb : Builtin.ofText? callee.name = some .emitSignal)
      (hfirst : ∀ span t, first ≠ .string span t) :
      Part s (.expr (.call span callee (first :: rest))) (typesOf s rest).findings s (.expr first)
  | builtinArg (span callee a x b builtin params)
      (hb : Builtin.ofText? callee.name = some builtin) (hp : builtin.params? = some params) :
      Part s (.expr (.call span callee (a ++ x :: b))) (typesOf s a).findings s (.expr x)
  | undefinedArg (span callee a x b) (hb : Builtin.ofText? callee.name = none)
      (hf : s.function? callee.name = none) :
      Part s (.expr (.call span callee (a ++ x :: b))) (typesOf s a).findings s (.expr x)
  | arg (span callee a x b f) (hb : Builtin.ofText? callee.name = none)
      (hf : s.function? callee.name = some f) :
      Part s (.expr (.call span callee (a ++ x :: b)))
        ((reportIf s.initializing callee.span (.callInInitializer callee.name)).findings ++
          (typesOf s a).findings) s (.expr x)

/-- What checking finds in a part it finds in the whole, after the findings on the way to the
    part. -/
theorem Part.log {s s' : Surroundings} {c c' : Code} {found : List Finding}
    (h : Part s c found s' c') : found ++ c'.log s' <+: c.log s := by
  cases h with
  | signal seen d ds hnew =>
      rw [Code.log, Code.log, collectSignals, if_neg hnew]
      exact List.prefix_append _ _
  | laterSignals seen d ds hnew =>
      rw [Code.log, Code.log, collectSignals, if_neg hnew]
      simp only [Check.findings_bind, Check.findings_pure, List.append_nil, List.prefix_rfl]
  | afterDuplicate seen d ds hseen =>
      rw [Code.log, Code.log, collectSignals, if_pos hseen]
      exact List.prefix_rfl
  | signalParam signal seen p ps =>
      rw [Code.log, Code.log, signalParams]
      simp only [Check.findings_bind, List.prefix_append_right_inj, List.prefix_append]
  | laterSignalParams signal seen p ps =>
      rw [Code.log, Code.log, signalParams]
      simp only [Check.findings_bind, Check.findings_pure, List.append_assoc, List.append_nil,
        List.prefix_rfl]
  | functionParams seen f fs hown hnew =>
      rw [Code.log, Code.log, collectFunctions_cons, enterFunction, hown, signatureOf]
      simp only [Option.isSome_none, Bool.false_eq_true, if_false, if_neg hnew,
        Check.findings_bind, List.append_assoc]
      exact List.prefix_append _ _
  | functionReturns seen f fs ref hown hnew href =>
      rw [Code.log, Code.log, collectFunctions_cons, enterFunction, hown, signatureOf]
      simp only [Option.isSome_none, Bool.false_eq_true, if_false, if_neg hnew, href,
        Check.findings_bind, List.append_assoc, List.prefix_append_right_inj]
      exact List.prefix_append _ _
  | laterFunctions seen f fs =>
      rw [Code.log, Code.log, collectFunctions_cons]
      simp only [Check.findings_bind, Check.findings_pure, List.append_nil, List.prefix_rfl]
  | param p ps =>
      rw [Code.log, Code.log, paramTypes]
      exact List.prefix_append _ _
  | laterParams p ps =>
      rw [Code.log, Code.log, paramTypes]
      simp only [Check.findings_bind, Check.findings_pure, List.append_nil, List.prefix_rfl]
  | global before g gs =>
      rw [Code.log, Code.log, checkGlobals, bindingType]
      simp only [Check.findings_bind, List.append_assoc]
      exact List.prefix_append _ _
  | globalType before g gs ref href =>
      rw [Code.log, Code.log, checkGlobals, bindingType, href]
      simp only [Check.findings_bind, List.append_assoc, Surroundings.initializer,
        List.prefix_append_right_inj]
      exact List.prefix_append _ _
  | laterGlobals before g gs =>
      rw [Code.log, Code.log, checkGlobals_cons]
      exact List.prefix_rfl
  | body entry rest =>
      obtain ⟨f, signature⟩ := entry
      rw [Code.log, Code.log, checkBodies, checkBody]
      simp only [Check.findings_bind, List.append_assoc]
      exact (List.prefix_append_right_inj _).mpr (List.prefix_append _ _)
  | laterBodies entry rest =>
      obtain ⟨f, signature⟩ := entry
      rw [Code.log, Code.log, checkBodies]
      simp only [Check.findings_bind]
      exact (List.prefix_append_right_inj _).mpr (List.prefix_append _ _)
  | first owner st rest =>
      rw [Code.log, Code.log, checkStmts]
      exact List.prefix_append _ _
  | later owner st rest =>
      rw [Code.log, Code.log, checkStmts]
      simp only [Check.findings_bind, Check.findings_pure, List.append_nil, List.prefix_rfl]
  | inner owner b =>
      rw [Code.log, Code.log, checkStmt]
      exact List.prefix_append _ _
  | init owner span name mutable declared init =>
      rw [Code.log, Code.log, checkStmt, bindingType]
      simp only [Check.findings_bind, List.append_assoc]
      exact List.prefix_append _ _
  | bindType owner span name mutable ref init =>
      rw [Code.log, Code.log, checkStmt, bindingType]
      simp only [Check.findings_bind, List.append_assoc, List.prefix_append_right_inj]
      exact List.prefix_append _ _
  | assigned owner span target op value =>
      rw [Code.log, Code.log, checkStmt, checkAssign_eq]
      simp only [Check.findings_bind, List.append_assoc, List.prefix_append_right_inj]
      exact List.prefix_append _ _
  | branch owner k =>
      rw [Code.log, Code.log, checkStmt]
      exact List.prefix_append _ _
  | loopTest owner span test body =>
      rw [Code.log, Code.log, checkStmt, checkCondition]
      simp only [Check.findings_bind, List.append_assoc]
      exact List.prefix_append _ _
  | loopBody owner span test body =>
      rw [Code.log, Code.log, checkStmt]
      simp only [Check.findings_bind, Check.findings_pure, List.append_nil, List.prefix_rfl]
  | returned owner span e =>
      rw [Code.log, Code.log, checkStmt, checkReturn]
      simp only [Check.findings_bind, List.append_assoc]
      exact List.prefix_append _ _
  | evaluated owner span e =>
      rw [Code.log, Code.log, checkStmt]
      exact List.prefix_append _ _
  | contents owner span body =>
      rw [Code.log, Code.log, checkBlock]
      exact List.prefix_append _ _
  | test owner span test consequent alternate =>
      rw [Code.log, Code.log, checkCond, checkCondition]
      simp only [Check.findings_bind, List.append_assoc]
      exact List.prefix_append _ _
  | consequent owner span test consequent alternate =>
      rw [Code.log, Code.log, checkCond]
      simp only [Check.findings_bind, List.prefix_append_right_inj, List.prefix_append]
  | alternate owner span test consequent alternate =>
      rw [Code.log, Code.log, checkCond]
      simp only [Check.findings_bind, Check.findings_pure, List.append_assoc, List.append_nil,
        List.prefix_rfl]
  | elseBlock owner b =>
      rw [Code.log, Code.log, checkElse]
      exact List.prefix_append _ _
  | elseCond owner k =>
      rw [Code.log, Code.log, checkElse]
      exact List.prefix_append _ _
  | object span object name =>
      rw [Code.log, Code.log, typeOf]
      exact List.prefix_append _ _
  | operand span op arg =>
      rw [Code.log, Code.log, typeOf]
      exact List.prefix_append _ _
  | left span op left right =>
      rw [Code.log, Code.log, typeOf]
      exact List.prefix_append _ _
  | right span op left right =>
      rw [Code.log, Code.log, typeOf]
      simp only [Check.findings_bind, List.prefix_append_right_inj, List.prefix_append]
  | fieldValue span name a x b =>
      rw [Code.log, Code.log, typeOf]
      exact (fieldTypes_log s a x b).trans (List.prefix_append _ _)
  | printed span callee a x b hb =>
      rw [Code.log, Code.log, typeOf_print hb]
      exact (printTypes_log s a x b).trans (List.prefix_append _ _)
  | emitted span callee first a x b hb =>
      exact (typesOf_log s a x b).trans (typesOf_isPrefix_emit hb first (a ++ x :: b))
  | emittedName span callee first rest hb hfirst =>
      rw [Code.log, Code.log, typeOf_emit_computed hb hfirst]
      simp only [Check.findings_bind, List.prefix_append_right_inj, List.prefix_append]
  | builtinArg span callee a x b builtin params hb hp =>
      rw [Code.log, Code.log, typeOf_builtin hb hp]
      exact (typesOf_log s a x b).trans (List.prefix_append _ _)
  | undefinedArg span callee a x b hb hf =>
      rw [Code.log, Code.log, typeOf_undefined hb hf]
      exact (typesOf_log s a x b).trans (List.prefix_append _ _)
  | arg span callee a x b f hb hf =>
      rw [Code.log, Code.log, typeOf_function hb hf, List.append_assoc]
      simp only [Check.findings_bind, List.prefix_append_right_inj]
      exact (typesOf_log s a x b).trans (List.prefix_append _ _)

/-! ## The code of a script -/

/-- `p.Reaches found s c`: checking the script `p` comes to the code `c`, which sees `s`, after it
    has made the findings `found`. -/
inductive Program.Reaches (p : Program Unit) : List Finding → Surroundings → Code → Prop where
  | signals : p.Reaches [] ⟨[], [], false, []⟩ (.signals [] p.signals)
  | functions :
      p.Reaches p.declared.findings ⟨[], p.declared.value, false, []⟩ (.functions [] p.functions)
  | globals :
      p.Reaches (p.declared.findings ++ p.collected.findings) (p.surroundings true [])
        (.globals [] p.globals)
  | bodies :
      p.Reaches (p.declared.findings ++ p.collected.findings ++ p.checkedGlobals.findings)
        (p.surroundings false [p.checkedGlobals.value.map GlobalInfo.declared])
        (.bodies p.collected.value)
  | part {found more s s' c c'} (h : p.Reaches found s c) (hpart : Part s c more s' c') :
      p.Reaches (found ++ more) s' c'

variable {p : Program Unit} {s : Surroundings} {found : List Finding}

/-- The findings on the way to a piece of code, and then those of the code, are the first findings
    of the script. -/
theorem Program.Reaches.log {c : Code} (h : p.Reaches found s c) :
    found ++ c.log s <+: (checkProgram p).findings := by
  rw [checkProgram_eq]
  induction h with
  | signals => exact List.prefix_append _ _
  | functions => exact (List.prefix_append_right_inj _).mpr (List.prefix_append _ _)
  | globals =>
      simp only [List.append_assoc, List.prefix_append_right_inj]
      exact List.prefix_append _ _
  | bodies =>
      simp only [List.append_assoc, List.prefix_append_right_inj]
      exact List.prefix_append _ _
  | part _ hpart ih =>
      rw [List.append_assoc]
      exact ((List.prefix_append_right_inj _).mpr hpart.log).trans ih

/-! ## No expression is passed over -/

/-- Typing `e` types `x` as an operand, an argument or the value of a field. -/
def Operand (s : Surroundings) (e x : Expr) : Prop := ∃ found, Part s (.expr e) found s (.expr x)

theorem Program.Reaches.operands {e x : Expr} (h : p.Reaches found s (.expr e))
    (hx : Relation.ReflTransGen (Operand s) e x) : ∃ found', p.Reaches found' s (.expr x) := by
  induction hx with
  | refl => exact ⟨found, h⟩
  | tail _ hstep ih =>
      obtain ⟨found', hreach⟩ := ih
      obtain ⟨more, hpart⟩ := hstep
      exact ⟨found' ++ more, hreach.part hpart⟩

mutual

/-- Typing an expression types all its parts, but for the literal that names a signal. -/
theorem Expr.operands (s : Surroundings) {x : Expr} (hx : ∀ span t, x ≠ .string span t) :
    ∀ e : Expr, x ∈ e.parts → Relation.ReflTransGen (Operand s) e x
  | .int _ _ _, h => by cases List.mem_singleton.mp h; exact .refl
  | .float _ _ _, h => by cases List.mem_singleton.mp h; exact .refl
  | .bool _ _, h => by cases List.mem_singleton.mp h; exact .refl
  | .string span t, h => absurd (List.mem_singleton.mp h) (hx span t)
  | .self _, h => by cases List.mem_singleton.mp h; exact .refl
  | .ident _, h => by cases List.mem_singleton.mp h; exact .refl
  | .field span object name, h => by
      rcases List.mem_cons.mp h with rfl | h
      · exact .refl
      · exact (Expr.operands s hx object h).head ⟨_, .object span object name⟩
  | .unary span op arg, h => by
      rcases List.mem_cons.mp h with rfl | h
      · exact .refl
      · exact (Expr.operands s hx arg h).head ⟨_, .operand span op arg⟩
  | .binary span op left right, h => by
      rcases List.mem_cons.mp h with rfl | h
      · exact .refl
      · rcases List.mem_append.mp h with h | h
        · exact (Expr.operands s hx left h).head ⟨_, .left span op left right⟩
        · exact (Expr.operands s hx right h).head ⟨_, .right span op left right⟩
  | .struct span name fields, h => by
      rcases List.mem_cons.mp h with rfl | h
      · exact .refl
      · obtain ⟨a, y, b, rfl, hy⟩ := fields_operands s hx fields h
        exact hy.head ⟨_, .fieldValue span name a y b⟩
  | .call span callee args, h => by
      rcases List.mem_cons.mp h with rfl | h
      · exact .refl
      · cases hb : Builtin.ofText? callee.name with
        | none =>
            obtain ⟨a, y, b, rfl, hy⟩ := exprs_operands s hx args h
            cases hf : s.function? callee.name with
            | none => exact hy.head ⟨_, .undefinedArg span callee a y b hb hf⟩
            | some f => exact hy.head ⟨_, .arg span callee a y b f hb hf⟩
        | some builtin =>
            cases hp : builtin.params? with
            | some params =>
                obtain ⟨a, y, b, rfl, hy⟩ := exprs_operands s hx args h
                exact hy.head ⟨_, .builtinArg span callee a y b builtin params hb hp⟩
            | none =>
                -- Two built-in functions take any number of arguments.
                cases builtin with
                | print =>
                    obtain ⟨a, y, b, rfl, hy⟩ := exprs_operands s hx args h
                    exact hy.head ⟨_, .printed span callee a y b hb⟩
                | emitSignal =>
                    cases args with
                    | nil => cases h
                    | cons first rest =>
                        rcases List.mem_append.mp h with h | h
                        · refine (Expr.operands s hx first h).head
                            ⟨_, .emittedName span callee first rest hb ?_⟩
                          rintro nameSpan t rfl
                          exact hx nameSpan t (List.mem_singleton.mp h)
                        · obtain ⟨a, y, b, rfl, hy⟩ := exprs_operands s hx rest h
                          exact hy.head ⟨_, .emitted span callee first a y b hb⟩
                | _ => cases hp

theorem exprs_operands (s : Surroundings) {x : Expr} (hx : ∀ span t, x ≠ .string span t) :
    ∀ es : List Expr, x ∈ exprsParts es →
      ∃ a y b, es = a ++ y :: b ∧ Relation.ReflTransGen (Operand s) y x
  | [], h => by cases h
  | e :: es, h => by
      rcases List.mem_append.mp h with h | h
      · exact ⟨[], e, es, rfl, Expr.operands s hx e h⟩
      · obtain ⟨a, y, b, rfl, hy⟩ := exprs_operands s hx es h
        exact ⟨e :: a, y, b, rfl, hy⟩

theorem fields_operands (s : Surroundings) {x : Expr} (hx : ∀ span t, x ≠ .string span t) :
    ∀ fields : List (Ident × Expr), x ∈ fieldsParts fields →
      ∃ a y b, fields = a ++ y :: b ∧ Relation.ReflTransGen (Operand s) y.2 x
  | [], h => by cases h
  | (name, e) :: rest, h => by
      rcases List.mem_append.mp h with h | h
      · exact ⟨[], (name, e), rest, rfl, Expr.operands s hx e h⟩
      · obtain ⟨a, y, b, rfl, hy⟩ := fields_operands s hx rest h
        exact ⟨(name, e) :: a, y, b, rfl, hy⟩

end

/-- The script `p` is checked through to the expression `x`. -/
def Program.Types (p : Program Unit) (x : Expr) : Prop := ∃ found s, p.Reaches found s (.expr x)

theorem Program.Reaches.types {e x : Expr} (hx : ∀ span t, x ≠ .string span t)
    (h : p.Reaches found s (.expr e)) (hmem : x ∈ e.parts) : p.Types x := by
  obtain ⟨found', hreach⟩ := h.operands (Expr.operands s hx e hmem)
  exact ⟨found', s, hreach⟩

section Statements

variable {owner : Signature} {x : Expr}

mutual

/-- Checking a statement types all expressions in it. -/
theorem Stmt.reaches (hx : ∀ span t, x ≠ .string span t) : ∀ (st : Stmt Unit)
    {s : Surroundings} {found : List Finding}, p.Reaches found s (.stmt owner st) →
    x ∈ st.parts → p.Types x
  | .block b, _, _, h, hmem => Block.reaches hx b (h.part (.inner owner b)) hmem
  | .bind span name mutable declared init _, _, _, h, hmem =>
      (h.part (.init owner span name mutable declared init)).types hx hmem
  | .assign span target op value, _, _, h, hmem =>
      (h.part (.assigned owner span target op value)).types hx hmem
  | .cond k, _, _, h, hmem => Cond.reaches hx k (h.part (.branch owner k)) hmem
  | .loop span test body, _, _, h, hmem => by
      rcases List.mem_append.mp hmem with hmem | hmem
      · exact (h.part (.loopTest owner span test body)).types hx hmem
      · exact Block.reaches hx body (h.part (.loopBody owner span test body)) hmem
  | .ret _ none, _, _, _, hmem => by cases hmem
  | .ret span (some e), _, _, h, hmem => (h.part (.returned owner span e)).types hx hmem
  | .eval span e, _, _, h, hmem => (h.part (.evaluated owner span e)).types hx hmem

theorem Block.reaches (hx : ∀ span t, x ≠ .string span t) : ∀ (b : Block Unit)
    {s : Surroundings} {found : List Finding}, p.Reaches found s (.block owner b) →
    x ∈ b.parts → p.Types x
  | .mk span body, _, _, h, hmem => stmts_reaches hx body (h.part (.contents owner span body)) hmem

theorem Cond.reaches (hx : ∀ span t, x ≠ .string span t) : ∀ (k : Cond Unit)
    {s : Surroundings} {found : List Finding}, p.Reaches found s (.cond owner k) →
    x ∈ k.parts → p.Types x
  | .mk span test consequent alternate, _, _, h, hmem => by
      rcases List.mem_append.mp hmem with hmem | hmem
      · rcases List.mem_append.mp hmem with hmem | hmem
        · exact (h.part (.test owner span test consequent alternate)).types hx hmem
        · exact Block.reaches hx consequent
            (h.part (.consequent owner span test consequent alternate)) hmem
      · exact Else.reaches hx alternate
          (h.part (.alternate owner span test consequent alternate)) hmem

theorem Else.reaches (hx : ∀ span t, x ≠ .string span t) : ∀ (a : Else Unit)
    {s : Surroundings} {found : List Finding}, p.Reaches found s (.els owner a) →
    x ∈ a.parts → p.Types x
  | .absent, _, _, _, hmem => by cases hmem
  | .block b, _, _, h, hmem => Block.reaches hx b (h.part (.elseBlock owner b)) hmem
  | .cond k, _, _, h, hmem => Cond.reaches hx k (h.part (.elseCond owner k)) hmem

theorem stmts_reaches (hx : ∀ span t, x ≠ .string span t) : ∀ (body : List (Stmt Unit))
    {s : Surroundings} {found : List Finding}, p.Reaches found s (.stmts owner body) →
    x ∈ stmtsParts body → p.Types x
  | [], _, _, _, hmem => by cases hmem
  | st :: rest, _, _, h, hmem => by
      rcases List.mem_append.mp hmem with hmem | hmem
      · exact Stmt.reaches hx st (h.part (.first owner st rest)) hmem
      · exact stmts_reaches hx rest (h.part (.later owner st rest)) hmem

end

end Statements

theorem globals_reach {g : GlobalDecl} : ∀ {gs : List GlobalDecl} {before : List GlobalInfo}
    {found : List Finding}, p.Reaches found s (.globals before gs) → g ∈ gs →
    ∃ found' s', p.Reaches found' s' (.expr g.init)
  | [], _, _, _, hg => by cases hg
  | g' :: gs, before, _, h, hg => by
      rcases List.mem_cons.mp hg with rfl | hg
      · exact ⟨_, _, h.part (.global before g gs)⟩
      · exact globals_reach (h.part (.laterGlobals before g' gs)) hg

theorem bodies_reach {entry : FunctionDecl Unit × Option Signature} :
    ∀ {entries : List (FunctionDecl Unit × Option Signature)} {found : List Finding},
    p.Reaches found s (.bodies entries) → entry ∈ entries →
    ∃ found' s', p.Reaches found' s' (.stmts (ownerOf entry) entry.1.body.body)
  | [], _, _, hentry => by cases hentry
  | entry' :: rest, _, h, hentry => by
      rcases List.mem_cons.mp hentry with rfl | hentry
      · exact ⟨_, _, h.part (.body entry rest)⟩
      · exact bodies_reach (h.part (.laterBodies entry' rest)) hentry

/-- All expressions in the initializers of globals and in the bodies of functions are typed, but for
    the literals that name signals. -/
theorem Program.types_part (p : Program Unit) {x : Expr} (hx : ∀ span t, x ≠ .string span t)
    (h : (∃ g ∈ p.globals, x ∈ g.init.parts) ∨ ∃ f ∈ p.functions, x ∈ f.body.parts) :
    p.Types x := by
  rcases h with ⟨g, hg, hmem⟩ | ⟨f, hf, hmem⟩
  · obtain ⟨found, s, hreach⟩ := globals_reach .globals hg
    exact hreach.types hx hmem
  · rw [← collectFunctions_fst p.functions []] at hf
    obtain ⟨entry, hentry, rfl⟩ := List.mem_map.mp hf
    obtain ⟨found, s, hreach⟩ := bodies_reach .bodies hentry
    generalize entry.1.body = body at hreach hmem
    cases body with
    | mk span body => exact stmts_reaches hx body hreach hmem

end SceneScript
