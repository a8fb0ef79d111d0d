import SceneScript.Proofs.Eval.Edited
import SceneScript.Proofs.Typing.Freezing

/-!
# Running code does not look at `mut`

The flag of a variable is a matter of checking. A machine whose functions lost some of their flags
does what it did before: the same values, the same faults, the same changes to globals and host.

* **`Machine.FrozenAt`** — every part of the evaluator is the same on both machines, at one amount
  of fuel; **`Machine.frozenAt`** by induction.
-/

namespace SceneScript

namespace Machine

variable {σ : Type} {m : Machine σ} {chosen : Ident → Bool}

/-! ## The whole evaluator -/

/-- Every part of the evaluator is the same on both machines, at one amount of fuel. -/
structure FrozenAt (m : Machine σ) (chosen : Ident → Bool) (fuel : Nat) : Prop where
  eval         : ∀ depth locals e,
    (m.edit (.freeze chosen)).eval depth locals fuel e = m.eval depth locals fuel e
  condition    : ∀ depth locals e,
    (m.edit (.freeze chosen)).condition depth locals fuel e = m.condition depth locals fuel e
  evalAll      : ∀ depth locals es,
    (m.edit (.freeze chosen)).evalAll depth locals fuel es = m.evalAll depth locals fuel es
  evalFields   : ∀ depth locals fields,
    (m.edit (.freeze chosen)).evalFields depth locals fuel fields =
      m.evalFields depth locals fuel fields
  callBuiltin  : ∀ depth locals b span callee args,
    (m.edit (.freeze chosen)).callBuiltin depth locals fuel b span callee args =
      m.callBuiltin depth locals fuel b span callee args
  argumentText : ∀ depth locals span callee args,
    (m.edit (.freeze chosen)).argumentText depth locals fuel span callee args =
      m.argumentText depth locals fuel span callee args
  call         : ∀ depth name args span,
    (m.edit (.freeze chosen)).call depth fuel name args span = m.call depth fuel name args span
  exec         : ∀ depth locals st,
    (m.edit (.freeze chosen)).exec depth fuel locals (st.edit (.freeze chosen)) =
      m.exec depth fuel locals st
  execAll      : ∀ depth locals body,
    (m.edit (.freeze chosen)).execAll depth fuel locals (stmtsEdit (.freeze chosen) body) =
      m.execAll depth fuel locals body
  execBlock    : ∀ depth locals b,
    (m.edit (.freeze chosen)).execBlock depth fuel locals (b.edit (.freeze chosen)) =
      m.execBlock depth fuel locals b
  execCond     : ∀ depth locals k,
    (m.edit (.freeze chosen)).execCond depth fuel locals (k.edit (.freeze chosen)) =
      m.execCond depth fuel locals k
  execLoop     : ∀ depth locals test body,
    (m.edit (.freeze chosen)).execLoop depth fuel locals test (body.edit (.freeze chosen)) =
      m.execLoop depth fuel locals test body

namespace FrozenAt

variable {fuel : Nat}

theorem zero (m : Machine σ) (chosen : Ident → Bool) : FrozenAt m chosen 0 :=
  ⟨fun _ _ _ => rfl, fun _ _ _ => rfl, fun _ _ _ => rfl, fun _ _ _ => rfl,
    fun _ _ _ _ _ _ => rfl, fun _ _ _ _ _ => rfl, fun _ _ _ _ => rfl, fun _ _ _ => rfl,
    fun _ _ _ => rfl, fun _ _ _ => rfl, fun _ _ _ => rfl, fun _ _ _ _ => rfl⟩

variable (ih : FrozenAt m chosen fuel) (depth : Nat) (locals : Locals)
include ih

theorem eval_succ (e : Expr) :
    (m.edit (.freeze chosen)).eval depth locals (fuel + 1) e =
      m.eval depth locals (fuel + 1) e := by
  cases e with
  | binary span op left right =>
      cases op <;> simp only [Machine.eval, ih.eval, ih.condition] <;> rfl
  | call span callee args =>
      simp only [Machine.eval, ih.callBuiltin, ih.evalAll, ih.call]
  | field _ _ _ =>
      simp only [Machine.eval, ih.eval]
      rfl
  | unary _ _ _ => simp only [Machine.eval, ih.eval]
  | struct _ _ _ => simp only [Machine.eval, ih.evalFields]
  | _ => rfl

theorem callBuiltin_succ (b : Builtin) (span : Span) (callee : Ident) (args : List Expr) :
    (m.edit (.freeze chosen)).callBuiltin depth locals (fuel + 1) b span callee args =
      m.callBuiltin depth locals (fuel + 1) b span callee args := by
  cases b with
  | emitSignal =>
      simp only [Machine.callBuiltin, ih.evalAll]
      rfl
  | print =>
      simp only [Machine.callBuiltin, ih.evalAll]
      rfl
  | getParent => rfl
  | _ =>
      simp only [Machine.callBuiltin, ih.argumentText]
      rfl

theorem call_succ (name : Text) (args : List Value) (span : Option Span) :
    (m.edit (.freeze chosen)).call depth (fuel + 1) name args span =
      m.call depth (fuel + 1) name args span := by
  rw [Machine.call, Machine.call, function?_edit]
  cases m.function? name with
  | none => rfl
  | some f =>
      have hbody : (f.edit (.freeze chosen)).decl.body.body =
          stmtsEdit (.freeze chosen) f.decl.body.body :=
        (Block.body_edit _ _).trans (stmtsEdit_eq _ _).symm
      simp only [Option.map_some, hbody, ih.execAll]
      rfl

theorem exec_succ (st : Stmt Ty) :
    (m.edit (.freeze chosen)).exec depth (fuel + 1) locals (st.edit (.freeze chosen)) =
      m.exec depth (fuel + 1) locals st := by
  cases st with
  | block b => exact ih.execBlock depth locals b
  | bind span name mutable declared init type =>
      simp only [Stmt.edit, Machine.exec, ih.eval]
      rfl
  | assign span target op value => simp only [Stmt.edit, Machine.exec, ih.eval, assign_edit]
  | cond k => exact ih.execCond depth locals k
  | loop span test body => exact ih.execLoop depth locals test body
  | ret span value =>
      cases value with
      | none => rfl
      | some e => simp only [Stmt.edit, Machine.exec, ih.eval]
  | eval span e => simp only [Stmt.edit, Machine.exec, ih.eval]

theorem execCond_succ (k : Cond Ty) :
    (m.edit (.freeze chosen)).execCond depth (fuel + 1) locals (k.edit (.freeze chosen)) =
      m.execCond depth (fuel + 1) locals k := by
  cases k with
  | mk span test consequent alternate =>
      cases alternate <;>
        simp only [Cond.edit, Else.edit, Machine.execCond, ih.condition, ih.execBlock, ih.execCond]

end FrozenAt

/-- Every part of the evaluator is the same on both machines. -/
theorem frozenAt (m : Machine σ) (chosen : Ident → Bool) : ∀ fuel, FrozenAt m chosen fuel
  | 0        => FrozenAt.zero m chosen
  | fuel + 1 =>
    have ih := frozenAt m chosen fuel
    { eval         := ih.eval_succ
      condition    := fun depth locals e => by rw [Machine.condition, Machine.condition, ih.eval]
      evalAll      := fun depth locals es => by
        cases es with
        | nil => rfl
        | cons e es => rw [Machine.evalAll, Machine.evalAll, ih.eval, ih.evalAll]
      evalFields   := fun depth locals fields => by
        cases fields with
        | nil => rfl
        | cons field rest =>
            rw [Machine.evalFields, Machine.evalFields, ih.eval, ih.evalFields]
      callBuiltin  := ih.callBuiltin_succ
      argumentText := fun depth locals span callee args => by
        cases args with
        | nil => rfl
        | cons arg rest => rw [Machine.argumentText, Machine.argumentText, ih.eval]
      call         := ih.call_succ
      exec         := ih.exec_succ
      execAll      := fun depth locals body => by
        cases body with
        | nil => rfl
        | cons st rest =>
            simp only [stmtsEdit, Machine.execAll, ih.exec, ih.execAll]
      execBlock    := fun depth locals b => by
        cases b with
        | mk span body => simp only [Block.edit, Machine.execBlock, ih.execAll]
      execCond     := ih.execCond_succ
      execLoop     := fun depth locals test body => by
        simp only [Machine.execLoop, ih.condition, ih.execBlock, ih.execLoop] }

end Machine

end SceneScript
