import SceneScript.Proofs.Eval.Raising
import SceneScript.Proofs.Eval.Returns
import SceneScript.Proofs.Eval.Sound

/-!
# Functions that return their results

A function with a result faults when its body ends and has not returned one. Where the body of
every such function always returns, this fault is never raised, whatever the code does otherwise
and whatever the host answers: nothing is asked of the types, and the host may do as it likes.

* **`Complete`** — a computation never stops because a function ended without its result;
  `Plain.complete` for the steps between calls.
* **`Machine.ReturnsResults`** — the bodies of all functions with a result always return.
* **`Machine.CompleteAt`** — every part of the evaluator is complete at one amount of fuel;
  `Machine.completeAt` by induction.
-/

namespace SceneScript

variable {σ α β : Type}

/-- A function with a result ended without it. -/
def FaultCause.isNoReturn : FaultCause → Bool
  | .noReturn _ _ => true
  | _             => false

/-- No fault of the computation says that a function ended without its result. -/
def Complete (x : Eval σ α) : Prop :=
  ∀ w f w', x w = .error (.fault f) w' → f.cause.isNoReturn = false

namespace Complete

variable {x : Eval σ α}

theorem bind {f : α → Eval σ β} (hx : Complete x)
    (hf : ∀ w a w', x w = .ok a w' → Complete (f a)) : Complete (x >>= f) := by
  intro w e w'' he
  cases hrun : x w with
  | ok a w' =>
      rw [bind_of_ok hrun] at he
      exact hf w a w' hrun w' e w'' he
  | error e' w' =>
      cases (bind_of_error hrun).symm.trans he
      exact hx w e w'' hrun

theorem inFunction (hx : Complete x) (name : Text) : Complete (Eval.inFunction name x) := by
  intro w e w' he
  obtain ⟨f, hf, rfl⟩ := Eval.inFunction_error he
  rw [Fault.within_cause]
  exact hx w f w' hf

end Complete

theorem complete_pure (a : α) : Complete (pure a : Eval σ α) := fun _ _ _ => nofun

theorem complete_outOfFuel : Complete (throw .outOfFuel : Eval σ α) := fun _ _ _ => nofun

/-- A fault that no call raises is not the one of a function without its result. -/
theorem Plain.complete {x : Eval σ α} (h : Plain x) : Complete x := by
  intro w f w' hf
  obtain ⟨-, hcall⟩ := h w f w' hf
  cases hcause : f.cause <;> first | rfl | (rw [hcause] at hcall; cases hcall)

theorem complete_raise {cause : FaultCause} (h : cause.isNoReturn = false) (span : Option Span) :
    Complete (Eval.raise cause span : Eval σ α) := by
  intro w f w' hf
  cases hf
  exact h

namespace Machine

variable {m : Machine σ}

/-! ## The whole evaluator -/

/-- A call is complete if its body has returned where there is a result to return. -/
theorem complete_conclude {f : FunctionInfo} {flow : Flow}
    (h : f.signature.returns = .void ∨ flow.fallsThrough = false) :
    Complete (conclude f flow : Eval σ Value) := by
  cases flow with
  | returned v =>
      rw [conclude]
      split <;> exact complete_pure _
  | next locals =>
      rw [conclude, if_pos (h.resolve_right Bool.noConfusion)]
      exact complete_pure _

/-- The body of every function with a result always returns. -/
def ReturnsResults (m : Machine σ) : Prop :=
  ∀ f ∈ m.functions, f.signature.returns = .void ∨ f.decl.body.alwaysReturns = true

/-- A body that always returns does not fall through. -/
theorem fallsThrough_of_alwaysReturns {depth fuel : Nat} {locals : Locals} {b : Block Ty}
    {w w' : World σ} {flow : Flow} (h : b.alwaysReturns = true)
    (hrun : m.execAll depth fuel locals b.body w = .ok flow w') : flow.fallsThrough = false := by
  cases b with
  | mk span body =>
      have hclosed := (ends_of_ok hrun).mp (closed_execAll m depth fuel locals body w)
      cases hflow : flow.fallsThrough with
      | false => rfl
      | true => exact ((hclosed hflow).symm.trans h).symm

/-- Every part of the evaluator is complete at one amount of fuel. -/
structure CompleteAt (m : Machine σ) (fuel : Nat) : Prop where
  eval         : ∀ depth locals e, Complete (m.eval depth locals fuel e)
  condition    : ∀ depth locals e, Complete (m.condition depth locals fuel e)
  evalAll      : ∀ depth locals es, Complete (m.evalAll depth locals fuel es)
  evalFields   : ∀ depth locals fields, Complete (m.evalFields depth locals fuel fields)
  callBuiltin  : ∀ depth locals b span callee args,
    Complete (m.callBuiltin depth locals fuel b span callee args)
  argumentText : ∀ depth locals span callee args,
    Complete (m.argumentText depth locals fuel span callee args)
  call         : ∀ depth name args span, Complete (m.call depth fuel name args span)
  exec         : ∀ depth locals st, Complete (m.exec depth fuel locals st)
  execAll      : ∀ depth locals body, Complete (m.execAll depth fuel locals body)
  execBlock    : ∀ depth locals b, Complete (m.execBlock depth fuel locals b)
  execCond     : ∀ depth locals c, Complete (m.execCond depth fuel locals c)
  execLoop     : ∀ depth locals test body, Complete (m.execLoop depth fuel locals test body)

namespace CompleteAt

variable {fuel : Nat}

theorem zero (m : Machine σ) : CompleteAt m 0 where
  eval _ _ _             := complete_outOfFuel
  condition _ _ _        := complete_outOfFuel
  evalAll _ _ _          := complete_outOfFuel
  evalFields _ _ _       := complete_outOfFuel
  callBuiltin _ _ _ _ _ _ := complete_outOfFuel
  argumentText _ _ _ _ _ := complete_outOfFuel
  call _ _ _ _           := complete_outOfFuel
  exec _ _ _             := complete_outOfFuel
  execAll _ _ _          := complete_outOfFuel
  execBlock _ _ _        := complete_outOfFuel
  execCond _ _ _         := complete_outOfFuel
  execLoop _ _ _ _       := complete_outOfFuel

variable (ih : CompleteAt m fuel) (depth : Nat) (locals : Locals)

include ih

theorem binary_succ (span : Span) (op : BinaryOp) (left right : Expr) :
    Complete (m.eval depth locals (fuel + 1) (.binary span op left right)) := by
  by_cases hop : op.IsLogic
  · have answer : Complete (do return Value.bool (← m.condition depth locals fuel right)) :=
      (ih.condition depth locals right).bind fun _ _ _ _ => complete_pure _
    rcases hop with rfl | rfl
    · refine (ih.condition depth locals left).bind fun _ b _ _ => ?_
      cases b with
      | true => exact answer
      | false => exact complete_pure _
    · refine (ih.condition depth locals left).bind fun _ b _ _ => ?_
      cases b with
      | true => exact complete_pure _
      | false => exact answer
  · rw [eval_operator hop]
    refine (ih.eval depth locals left).bind fun _ u _ _ => ?_
    exact (ih.eval depth locals right).bind fun _ v _ _ => (plain_binary span op u v).complete

theorem eval_succ (e : Expr) : Complete (m.eval depth locals (fuel + 1) e) := by
  cases e with
  | int _ _ _ => exact complete_pure _
  | float _ _ _ => exact complete_pure _
  | bool _ _ => exact complete_pure _
  | string _ _ => exact complete_pure _
  | ident id => exact (plain_lookup locals id).complete
  | self _ => exact complete_pure _
  | field span object name =>
      refine (ih.eval depth locals object).bind fun _ base _ _ => ?_
      exact (plain_readField base span name).complete
  | unary span op arg =>
      refine (ih.eval depth locals arg).bind fun _ v _ _ => ?_
      exact (plain_unary span op v).complete
  | binary span op left right => exact ih.binary_succ depth locals span op left right
  | struct span name fields =>
      refine (ih.evalFields depth locals fields).bind fun _ values _ _ => ?_
      split
      · exact complete_pure _
      · exact complete_raise rfl _
  | call span callee args =>
      rw [Machine.eval]
      split
      · exact ih.callBuiltin depth locals _ span callee args
      · refine (ih.evalAll depth locals args).bind fun _ values _ _ => ?_
        exact ih.call depth callee.name values (some span)

theorem condition_succ (e : Expr) : Complete (m.condition depth locals (fuel + 1) e) := by
  refine (ih.eval depth locals e).bind fun _ v _ _ => ?_
  cases v with
  | bool b => exact complete_pure b
  | _ => exact complete_raise rfl _

theorem evalAll_succ (es : List Expr) : Complete (m.evalAll depth locals (fuel + 1) es) := by
  cases es with
  | nil => exact complete_pure _
  | cons e es =>
      refine (ih.eval depth locals e).bind fun _ v _ _ => ?_
      exact (ih.evalAll depth locals es).bind fun _ vs _ _ => complete_pure _

theorem evalFields_succ (fields : List (Ident × Expr)) :
    Complete (m.evalFields depth locals (fuel + 1) fields) := by
  cases fields with
  | nil => exact complete_pure _
  | cons entry rest =>
      refine (ih.eval depth locals entry.2).bind fun _ v _ _ => ?_
      exact (ih.evalFields depth locals rest).bind fun _ vs _ _ => complete_pure _

theorem argumentText_succ (span : Span) (callee : Ident) (args : List Expr) :
    Complete (m.argumentText depth locals (fuel + 1) span callee args) := by
  cases args with
  | nil => exact complete_raise rfl _
  | cons arg rest =>
      refine (ih.eval depth locals arg).bind fun _ v _ _ => ?_
      exact (plain_textArgument arg.span callee.name v).complete

theorem callBuiltin_succ (b : Builtin) (span : Span) (callee : Ident) (args : List Expr) :
    Complete (m.callBuiltin depth locals (fuel + 1) b span callee args) := by
  have text := ih.argumentText depth locals span callee args
  cases b with
  | print =>
      refine (ih.evalAll depth locals args).bind fun _ values _ _ => ?_
      exact ((plain_ofHost _).bind fun _ => plain_pure _).complete
  | emitSignal =>
      cases args with
      | nil => exact complete_raise rfl _
      | cons first rest =>
          cases first with
          | string nameSpan name =>
              rw [Machine.callBuiltin]
              split
              · exact complete_raise rfl _
              · refine (ih.evalAll depth locals rest).bind fun _ values _ _ => ?_
                exact (plain_asked span fun _ => plain_pure _).complete
          | _ => exact complete_raise rfl _
  | getParent => exact (plain_asked span fun r => plain_found span rfl r).complete
  | getNode =>
      exact text.bind fun _ _ _ _ => (plain_asked span fun r => plain_found span rfl r).complete
  | hasNode => exact text.bind fun _ _ _ _ => (plain_asked span fun r => plain_pure _).complete
  | findChild =>
      exact text.bind fun _ _ _ _ => (plain_asked span fun r => plain_found span rfl r).complete

/-- The one case that the induction is about: the body of a function with a result returns, so its
    call is not left without one. -/
theorem call_succ (hm : m.ReturnsResults) (name : Text) (args : List Value)
    (span : Option Span) : Complete (m.call depth (fuel + 1) name args span) := by
  rw [Machine.call]
  cases hf : m.function? name with
  | none => exact complete_raise rfl _
  | some f =>
      by_cases hdeep : m.maxDepth ≤ depth
      · simp only [if_pos hdeep]
        exact complete_raise rfl _
      · simp only [if_neg hdeep]
        refine Complete.inFunction ?_ name
        refine (ih.execAll (depth + 1) _ f.decl.body.body).bind fun _ flow _ hrun => ?_
        refine complete_conclude ((hm f (List.mem_of_find?_eq_some hf)).imp_right fun hret => ?_)
        exact fallsThrough_of_alwaysReturns hret hrun

theorem exec_succ (st : Stmt Ty) : Complete (m.exec depth (fuel + 1) locals st) := by
  cases st with
  | block b => exact ih.execBlock depth locals b
  | bind span name mutable declared init type =>
      exact (ih.eval depth locals init).bind fun _ v _ _ => complete_pure _
  | assign span target op value =>
      refine (ih.eval depth locals value).bind fun _ rhs _ _ => ?_
      exact ((plain_assign locals span target op rhs).bind fun _ => plain_pure _).complete
  | cond c => exact ih.execCond depth locals c
  | loop span test body => exact ih.execLoop depth locals test body
  | ret span value =>
      cases value with
      | none => exact complete_pure _
      | some e => exact (ih.eval depth locals e).bind fun _ v _ _ => complete_pure _
  | eval span e => exact (ih.eval depth locals e).bind fun _ _ _ _ => complete_pure _

theorem execAll_succ (body : List (Stmt Ty)) :
    Complete (m.execAll depth (fuel + 1) locals body) := by
  cases body with
  | nil => exact complete_pure _
  | cons st rest =>
      refine (ih.exec depth locals st).bind fun _ flow _ _ => ?_
      cases flow with
      | next locals' => exact ih.execAll depth locals' rest
      | returned v => exact complete_pure _

theorem execBlock_succ (b : Block Ty) : Complete (m.execBlock depth (fuel + 1) locals b) := by
  cases b with
  | mk span body =>
      refine (ih.execAll depth ([] :: locals) body).bind fun _ flow _ _ => ?_
      cases flow with
      | next inner => exact complete_pure _
      | returned v => exact complete_pure _

theorem execCond_succ (c : Cond Ty) : Complete (m.execCond depth (fuel + 1) locals c) := by
  cases c with
  | mk span test consequent alternate =>
      refine (ih.condition depth locals test).bind fun _ taken _ _ => ?_
      cases taken with
      | true => exact ih.execBlock depth locals consequent
      | false =>
          cases alternate with
          | absent => exact complete_pure _
          | block b => exact ih.execBlock depth locals b
          | cond c => exact ih.execCond depth locals c

theorem execLoop_succ (test : Expr) (body : Block Ty) :
    Complete (m.execLoop depth (fuel + 1) locals test body) := by
  refine (ih.condition depth locals test).bind fun _ again _ _ => ?_
  cases again with
  | true =>
      refine (ih.execBlock depth locals body).bind fun _ flow _ _ => ?_
      cases flow with
      | next locals' => exact ih.execLoop depth locals' test body
      | returned v => exact complete_pure _
  | false => exact complete_pure _

end CompleteAt

/-- Where the bodies of all functions with a result always return, no call is left without its
    result, whatever the fuel. -/
theorem completeAt (hm : m.ReturnsResults) (fuel : Nat) : CompleteAt m fuel := by
  induction fuel with
  | zero => exact .zero m
  | succ fuel ih =>
      exact
        { eval         := ih.eval_succ
          condition    := ih.condition_succ
          evalAll      := ih.evalAll_succ
          evalFields   := ih.evalFields_succ
          callBuiltin  := ih.callBuiltin_succ
          argumentText := ih.argumentText_succ
          call         := fun depth => ih.call_succ depth hm
          exec         := ih.exec_succ
          execAll      := ih.execAll_succ
          execBlock    := ih.execBlock_succ
          execCond     := ih.execCond_succ
          execLoop     := ih.execLoop_succ }

end Machine

end SceneScript
