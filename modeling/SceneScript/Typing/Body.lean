import SceneScript.Typing.Expr
import SceneScript.Ast.Returns

/-!
# Typing function bodies

Statements are checked in order; each sees the scope that the ones before it leave, and a
block gives its additions up at its end. Checking a statement yields the same statement with
the type of every variable declaration written into it.
-/

namespace SceneScript

/-- The part of a binding that a declaration in a body makes: its type is noted, and the scope
    gains the variable unless the innermost frame has one of that name. -/
def declare (scope : Scope) (v : Variable) (duplicate : Problem) : Check Scope := do
  match scope.define? v with
  | some extended =>
      Check.note (.declared v)
      return extended
  | none =>
      Check.report v.id.span duplicate
      return scope

/-- The type that an assignment path leads to, and whether it passes through a node. -/
def pathType : Ty → Bool → List Ident → Check (Ty × Bool)
  | t, throughNode, []           => return (t, throughNode)
  | t, throughNode, seg :: rest  => do
      let next ← fieldType t seg
      pathType next (throughNode || t == .node) rest

/-- Checks the value of an assignment against the type of its target. -/
def checkAssigned (span : Span) (target : AssignTarget) (op : AssignOp) (value : Expr)
    (expected found : Ty) : Check Unit := do
  if expected = .unknown ∨ found = .unknown then return ()
  if op = .set then
    Check.reportIf (!found.assignable expected) value.span
      (.assignMismatch op target.text expected found)
  else if op = .add ∧ expected = .string ∧ found = .string then return ()
  else if !expected.isNumeric || !found.isNumeric then
    Check.report span (.combineOperands op expected found)
  else
    Check.reportIf (!(expected.numericResult found).assignable expected) value.span
      (.assignMismatch op target.text expected found)

/-- Checks an assignment. Writing through a node changes the host's object and not the
    variable, so it is allowed on an immutable one. -/
def checkAssign (s : Surroundings) (span : Span) (target : AssignTarget) (op : AssignOp)
    (value : Expr) : Check Unit := do
  match target.root with
  | .self _ =>
      if target.path.isEmpty then
        Check.report target.span .assignSelf
        let _ ← typeOf s value
        return ()
      let (expected, _) ← pathType .node false target.path
      let found ← typeOf s value
      checkAssigned span target op value expected found
  | .name id =>
      match ← lookupVariable s.scope id with
      | none =>
          let _ ← typeOf s value
          return ()
      | some v =>
          Check.note (.written v.id)
          let (expected, throughNode) ← pathType v.type false target.path
          Check.reportIf (!v.mutable && !throughNode) target.span
            (.assignImmutable op v.id.name (v.kind == .param))
          let found ← typeOf s value
          checkAssigned span target op value expected found

/-- Checks a condition. -/
def checkCondition (s : Surroundings) (test : Expr) (statement : Conditional) : Check Unit := do
  let t ← typeOf s test
  Check.reportIf (t != .bool && t != .unknown) test.span (.conditionType statement t)

/-- Checks a `return` against the signature of its function. -/
def checkReturn (s : Surroundings) (owner : Signature) (span : Span) (value : Option Expr) :
    Check Unit := do
  match value with
  | none =>
      Check.reportIf (owner.returns != .void && owner.returns != .unknown) span
        (.returnWithoutValue owner.name owner.returns)
  | some e =>
      let t ← typeOf s e
      if owner.returns = .void then
        Check.report e.span (.returnFromVoid owner.name t)
      else
        Check.reportIf (!t.assignable owner.returns) e.span (.returnMismatch owner.returns t)

mutual

/-- Checks a statement and gives it with its bindings typed, and the scope after it. -/
def checkStmt (s : Surroundings) (owner : Signature) :
    Stmt Unit → Check (Stmt Ty × Scope)
  | .block b => do
      let b ← checkBlock s owner b
      return (.block b, s.scope)
  | .bind span name mutable declared init _ => do
      let type ← bindingType s declared init name.name
      Check.note (.bound ⟨.letStatement, name.name, span, type⟩)
      let scope ← declare s.scope ⟨name, .local, type, mutable⟩ (.duplicateLocal name.name)
      return (.bind span name mutable declared init type, scope)
  | .assign span target op value => do
      checkAssign s span target op value
      return (.assign span target op value, s.scope)
  | .cond c => do
      let c ← checkCond s owner c
      return (.cond c, s.scope)
  | .loop span test body => do
      checkCondition s test .whileTest
      let body ← checkBlock s owner body
      return (.loop span test body, s.scope)
  | .ret span value => do
      checkReturn s owner span value
      return (.ret span value, s.scope)
  | .eval span e => do
      let _ ← typeOf s e
      return (.eval span e, s.scope)

/-- Checks a block in a frame of its own. -/
def checkBlock (s : Surroundings) (owner : Signature) : Block Unit → Check (Block Ty)
  | .mk span body => do
      let body ← checkStmts { s with scope := [] :: s.scope } owner body
      return .mk span body

/-- Checks a conditional. -/
def checkCond (s : Surroundings) (owner : Signature) : Cond Unit → Check (Cond Ty)
  | .mk span test consequent alternate => do
      checkCondition s test .ifTest
      let consequent ← checkBlock s owner consequent
      let alternate ← checkElse s owner alternate
      return .mk span test consequent alternate

/-- Checks what follows a consequent. -/
def checkElse (s : Surroundings) (owner : Signature) : Else Unit → Check (Else Ty)
  | .absent  => return .absent
  | .block b => do return .block (← checkBlock s owner b)
  | .cond c  => do return .cond (← checkCond s owner c)

/-- Checks statements, each in the scope that the one before leaves. -/
def checkStmts (s : Surroundings) (owner : Signature) : List (Stmt Unit) → Check (List (Stmt Ty))
  | []         => return []
  | st :: rest => do
      let (st, scope) ← checkStmt s owner st
      let rest ← checkStmts { s with scope := scope } owner rest
      return st :: rest

end

/-- Declares parameters with the types of a signature. -/
def declareParams (owner : Signature) : Scope → List Param → List TypedName → Check Scope
  | scope, [], _          => return scope
  | scope, p :: ps, types => do
      let type := (types.head?.map TypedName.type).getD .unknown
      Check.note (.bound ⟨.parameter, p.name.name, p.span, type⟩)
      let scope ← declare scope ⟨p.name, .param, type, false⟩
        (.duplicateParam p.name.name owner.name)
      declareParams owner scope ps types.tail

/-- Checks the body of a function. The body shares the frame of the parameters. -/
def checkBody (s : Surroundings) (owner : Signature) (f : FunctionDecl Unit) :
    Check (FunctionDecl Ty) := do
  let scope ← declareParams owner ([] :: s.scope) f.params owner.params
  let body ← checkStmts { s with scope := scope } owner f.body.body
  Check.reportIf
    (owner.returns != .void && owner.returns != .unknown && !f.body.alwaysReturns)
    f.name.span (.missingReturn owner.name owner.returns)
  return ⟨f.span, f.name, f.params, f.returns, .mk f.body.span body⟩

end SceneScript
