import Mathlib.Algebra.Order.BigOperators.Group.List
import Mathlib.Algebra.Order.Ring.Nat
import SceneScript.Proofs.Eval.Sound
import SceneScript.Proofs.Typing.Shape

/-!
# Code without loops ends

Without loops the evaluator only ever goes on to a smaller piece of code, or into the body of a
function, one call deeper. The pieces are finite and so are the depths, so with enough fuel the
evaluator never runs out of it, however the functions call each other, and what it does no longer
depends on the fuel.

* **`Steady x y`** — `y` does what `x` does, which is not to run out of fuel.
* **`Machine.LoopFree`** — no function of the machine contains a loop.
* **`Machine.callFuel`** — fuel for whatever a call at a depth leads to.
* **`Machine.SteadyAt`** — with one more unit of fuel the evaluator does the same, for every piece
  of code that the fuel is enough for; `Machine.steadyAt` by induction.
-/

namespace SceneScript

variable {σ α β : Type}

/-! ## Computations that do not run out of fuel -/

/-- The second computation does what the first does, which is not to run out of fuel. -/
def Steady (x y : Eval σ α) : Prop := ∀ w, y w = x w ∧ ∀ w', x w ≠ .error .outOfFuel w'

namespace Steady

variable {x y : Eval σ α} {f g : α → Eval σ β}

theorem bind (h : Steady x y) (hnext : ∀ a, Steady (f a) (g a)) :
    Steady (x >>= f) (y >>= g) := by
  intro w
  obtain ⟨hsame, hfuel⟩ := h w
  cases hx : x w with
  | ok a w' =>
      rw [hx] at hsame
      rw [bind_of_ok hx, bind_of_ok hsame]
      exact hnext a w'
  | error e w' =>
      rw [hx] at hsame
      rw [bind_of_error hx, bind_of_error hsame]
      refine ⟨rfl, fun w'' he => hfuel w' ?_⟩
      rw [hx, (EStateM.Result.error.inj he).1]

theorem inFunction (h : Steady x y) (name : Text) :
    Steady (Eval.inFunction name x) (Eval.inFunction name y) := by
  intro w
  obtain ⟨hsame, hfuel⟩ := h w
  rw [Eval.inFunction, Eval.inFunction, hsame]
  refine ⟨rfl, fun w' he => ?_⟩
  cases hx : x w with
  | ok a w'' =>
      rw [hx] at he
      cases he
  | error e w'' =>
      cases e with
      | fault f =>
          rw [hx] at he
          cases he
      | outOfFuel => exact hfuel w'' hx

end Steady

theorem steady_pure (a : α) : Steady (pure a : Eval σ α) (pure a) :=
  fun _ => ⟨rfl, fun _ => nofun⟩

theorem steady_raise (cause : FaultCause) (span : Option Span) :
    Steady (Eval.raise cause span : Eval σ α) (Eval.raise cause span) :=
  fun _ => ⟨rfl, fun _ => nofun⟩

theorem steady_get : Steady (get : Eval σ (World σ)) get := fun _ => ⟨rfl, fun _ => nofun⟩

theorem steady_ofHost (call : HostCall σ α) : Steady (Eval.ofHost call) (Eval.ofHost call) := by
  refine fun w => ⟨rfl, fun w' => ?_⟩
  rw [Eval.ofHost]
  split <;>
  · intro h
    cases h

namespace Machine

variable {m : Machine σ}

/-! ## Steps -/

theorem steady_settle (span : Span) (r : Except FaultCause Value) :
    Steady (settle span r : Eval σ Value) (settle span r) := by
  cases r with
  | ok v => exact steady_pure v
  | error cause => exact steady_raise cause _

theorem steady_binary (span : Span) (op : BinaryOp) (l r : Value) :
    Steady (m.binary span op l r) (m.binary span op l r) := by
  rcases binary_cases span op l r with ⟨a, b, answer, hask⟩ | ⟨result, -, -, hknown⟩
  · rw [hask]
    exact (steady_ofHost _).bind fun _ => steady_pure _
  · rw [hknown]
    exact steady_settle span result

theorem steady_checkAlive (ref : NodeRef) (span : Span) :
    Steady (m.checkAlive ref span) (m.checkAlive ref span) := by
  refine (steady_ofHost _).bind fun alive => ?_
  split
  · exact steady_raise _ _
  · exact steady_pure _

theorem steady_found (span : Span) (cause : FaultCause) (r : Option NodeRef) :
    Steady (found span cause r : Eval σ Value) (found span cause r) := by
  cases r with
  | none => exact steady_raise cause _
  | some ref => exact steady_pure _

theorem steady_lookup (locals : Locals) (id : Ident) :
    Steady (lookup locals id : Eval σ Value) (lookup locals id) := by
  refine steady_get.bind fun w => ?_
  split
  · exact steady_pure _
  · exact steady_raise _ _

theorem steady_readField (base : Value) (span : Span) (field : Ident) :
    Steady (m.readField base span field) (m.readField base span field) := by
  unfold readField
  split
  · split
    · exact steady_raise _ _
    · exact (steady_checkAlive _ _).bind fun _ => steady_ofHost _
  · split
    · exact steady_pure _
    · exact steady_raise _ _

theorem steady_combine (old rhs : Value) (op : AssignOp) (span : Span) :
    Steady (m.combine old rhs op span) (m.combine old rhs op span) := by
  unfold combine
  split
  · exact steady_pure _
  · exact (steady_binary _ _ _ _).bind fun v => steady_pure _

theorem steady_writePath (rhs : Value) (op : AssignOp) (span : Span) (path : List Text) :
    ∀ base, Steady (m.writePath rhs op span base path) (m.writePath rhs op span base path) := by
  induction path with
  | nil =>
      intro base
      rw [writePath]
      exact steady_raise _ _
  | cons name rest ih =>
      intro base
      have next : ∀ old, Steady (m.nextValue rhs op span old rest)
          (m.nextValue rhs op span old rest) := by
        intro old
        cases rest with
        | nil => exact steady_combine old rhs op span
        | cons name' rest' => exact ih old
      by_cases hn : base.type = .node
      · cases base <;> cases hn
        rename_i ref
        cases hf : NodeField.ofText? name with
        | none =>
            simp only [writePath, hf]
            exact steady_raise _ _
        | some field =>
            rw [writePath_node hf]
            refine (steady_checkAlive ref span).bind fun _ => (steady_ofHost _).bind fun old => ?_
            exact (next old).bind fun v => (steady_ofHost _).bind fun _ => steady_pure _
      · cases hold : base.getNamed? name with
        | none =>
            rw [writePath_missing hn hold]
            exact steady_raise _ _
        | some old =>
            rw [writePath_value hn hold]
            refine (next old).bind fun v => ?_
            split
            · exact steady_pure _
            · exact steady_raise _ _

theorem steady_store (locals : Locals) (name : Text) (value : Value) :
    Steady (store locals name value : Eval σ Locals) (store locals name value) := by
  unfold store
  split
  · exact steady_pure _
  · exact fun w => ⟨rfl, fun _ => nofun⟩

theorem steady_assign (locals : Locals) (span : Span) (target : AssignTarget) (op : AssignOp)
    (rhs : Value) :
    Steady (m.assign locals span target op rhs) (m.assign locals span target op rhs) := by
  unfold assign
  dsimp only
  generalize target.path.map Ident.name = path
  cases target.root with
  | self _ => exact (steady_writePath _ _ _ path _).bind fun _ => steady_pure _
  | name id =>
      refine (steady_lookup locals id).bind fun current => ?_
      cases path with
      | nil => exact (steady_combine _ _ _ _).bind fun next => steady_store locals id.name next
      | cons name rest =>
          refine (steady_writePath _ _ _ (name :: rest) _).bind fun next => ?_
          exact steady_store locals id.name next

theorem steady_conclude (f : FunctionInfo) (flow : Flow) :
    Steady (conclude f flow : Eval σ Value) (conclude f flow) := by
  cases flow with
  | returned v =>
      rw [conclude]
      split <;> exact steady_pure _
  | next _ =>
      rw [conclude]
      split
      · exact steady_pure _
      · exact steady_raise _ _

theorem steady_textArgument (span : Span) (function : Text) (v : Value) :
    Steady (textArgument span function v : Eval σ Text) (textArgument span function v) := by
  unfold textArgument
  split
  · exact steady_pure _
  · exact steady_raise _ _

/-! ## Fuel -/

/-- No function of the machine contains a loop. -/
def LoopFree (m : Machine σ) : Prop := ∀ f ∈ m.functions, f.decl.body.tree.Avoids .whileStatement

/-- Fuel for the body of any function. -/
noncomputable def bodyFuel (m : Machine σ) : Nat :=
  (m.functions.map fun f => 2 * sizeOf f.decl.body).sum

/-- Fuel for whatever a call at a depth leads to: some for each depth that is left, and one unit to
    find that none is. -/
noncomputable def callFuel (m : Machine σ) (depth : Nat) : Nat :=
  (m.maxDepth - depth).toNat * (m.bodyFuel + 1) + 1

theorem callFuel_pos (m : Machine σ) (depth : Nat) : 1 ≤ m.callFuel depth := Nat.le_add_left ..

theorem callFuel_succ {depth : Nat} (h : ¬m.maxDepth ≤ depth) :
    m.callFuel depth = m.callFuel (depth + 1) + m.bodyFuel + 1 := by
  have hleft : (m.maxDepth - (depth : Nat)).toNat = (m.maxDepth - (depth + 1 : Nat)).toNat + 1 := by
    omega
  rw [callFuel, callFuel, hleft, Nat.succ_mul]
  omega

theorem le_bodyFuel {f : FunctionInfo} (h : f ∈ m.functions) :
    2 * sizeOf f.decl.body ≤ m.bodyFuel :=
  List.le_sum_of_mem (List.mem_map_of_mem h)

/-! ## The whole evaluator -/

/-- Code that an amount of fuel is enough for does the same with one unit more: twice its size, and
    what the calls in it need. -/
structure SteadyAt (m : Machine σ) (fuel : Nat) : Prop where
  eval : ∀ depth locals e, 2 * sizeOf e + m.callFuel depth ≤ fuel →
    Steady (m.eval depth locals fuel e) (m.eval depth locals (fuel + 1) e)
  condition : ∀ depth locals e, 2 * sizeOf e + m.callFuel depth + 1 ≤ fuel →
    Steady (m.condition depth locals fuel e) (m.condition depth locals (fuel + 1) e)
  evalAll : ∀ depth locals es, 2 * sizeOf es + m.callFuel depth ≤ fuel →
    Steady (m.evalAll depth locals fuel es) (m.evalAll depth locals (fuel + 1) es)
  evalFields : ∀ depth locals fields, 2 * sizeOf fields + m.callFuel depth ≤ fuel →
    Steady (m.evalFields depth locals fuel fields) (m.evalFields depth locals (fuel + 1) fields)
  callBuiltin : ∀ depth locals b span callee args, 2 * sizeOf args + m.callFuel depth + 1 ≤ fuel →
    Steady (m.callBuiltin depth locals fuel b span callee args)
      (m.callBuiltin depth locals (fuel + 1) b span callee args)
  argumentText : ∀ depth locals span callee args, 2 * sizeOf args + m.callFuel depth ≤ fuel →
    Steady (m.argumentText depth locals fuel span callee args)
      (m.argumentText depth locals (fuel + 1) span callee args)
  call : ∀ depth name args span, m.callFuel depth ≤ fuel →
    Steady (m.call depth fuel name args span) (m.call depth (fuel + 1) name args span)
  exec : ∀ depth locals st, st.tree.Avoids .whileStatement →
    2 * sizeOf st + m.callFuel depth ≤ fuel →
    Steady (m.exec depth fuel locals st) (m.exec depth (fuel + 1) locals st)
  execAll : ∀ depth locals body, (∀ t ∈ stmtTrees body, t.Avoids .whileStatement) →
    2 * sizeOf body + m.callFuel depth ≤ fuel →
    Steady (m.execAll depth fuel locals body) (m.execAll depth (fuel + 1) locals body)
  execBlock : ∀ depth locals b, b.tree.Avoids .whileStatement →
    2 * sizeOf b + m.callFuel depth ≤ fuel →
    Steady (m.execBlock depth fuel locals b) (m.execBlock depth (fuel + 1) locals b)
  execCond : ∀ depth locals c, c.tree.Avoids .whileStatement →
    2 * sizeOf c + m.callFuel depth ≤ fuel →
    Steady (m.execCond depth fuel locals c) (m.execCond depth (fuel + 1) locals c)

namespace SteadyAt

variable {fuel : Nat}

theorem zero (m : Machine σ) : SteadyAt m 0 := by
  have hpos : ∀ n depth, ¬n + m.callFuel depth ≤ 0 := by
    intro n depth h
    have := m.callFuel_pos depth
    omega
  exact
    { eval         := fun depth _ _ h => absurd h (hpos _ depth)
      condition    := fun depth _ _ h => absurd (Nat.le_of_succ_le h) (hpos _ depth)
      evalAll      := fun depth _ _ h => absurd h (hpos _ depth)
      evalFields   := fun depth _ _ h => absurd h (hpos _ depth)
      callBuiltin  := fun depth _ _ _ _ _ h => absurd (Nat.le_of_succ_le h) (hpos _ depth)
      argumentText := fun depth _ _ _ _ h => absurd h (hpos _ depth)
      call         := fun depth _ _ _ h => absurd (Nat.zero_add _ ▸ h) (hpos 0 depth)
      exec         := fun depth _ _ _ h => absurd h (hpos _ depth)
      execAll      := fun depth _ _ _ h => absurd h (hpos _ depth)
      execBlock    := fun depth _ _ _ h => absurd h (hpos _ depth)
      execCond     := fun depth _ _ _ h => absurd h (hpos _ depth) }

variable (ih : SteadyAt m fuel) (depth : Nat) (locals : Locals)

include ih

theorem binary_succ (span : Span) (op : BinaryOp) (left right : Expr)
    (h : 2 * sizeOf (Expr.binary span op left right) + m.callFuel depth ≤ fuel + 1) :
    Steady (m.eval depth locals (fuel + 1) (.binary span op left right))
      (m.eval depth locals (fuel + 2) (.binary span op left right)) := by
  rw [Expr.binary.sizeOf_spec] at h
  by_cases hop : op.IsLogic
  · rcases hop with rfl | rfl
    · refine (ih.condition depth locals left (by omega)).bind fun b => ?_
      cases b with
      | true => exact (ih.condition depth locals right (by omega)).bind fun b' => steady_pure _
      | false => exact steady_pure _
    · refine (ih.condition depth locals left (by omega)).bind fun b => ?_
      cases b with
      | true => exact steady_pure _
      | false => exact (ih.condition depth locals right (by omega)).bind fun b' => steady_pure _
  · rw [eval_operator hop, eval_operator hop]
    refine (ih.eval depth locals left (by omega)).bind fun l => ?_
    exact (ih.eval depth locals right (by omega)).bind fun r => steady_binary span op l r

theorem eval_succ (e : Expr) (h : 2 * sizeOf e + m.callFuel depth ≤ fuel + 1) :
    Steady (m.eval depth locals (fuel + 1) e) (m.eval depth locals (fuel + 2) e) := by
  cases e with
  | int _ n _ => exact steady_pure _
  | float _ x _ => exact steady_pure _
  | bool _ b => exact steady_pure _
  | string _ t => exact steady_pure _
  | ident id => exact steady_lookup locals id
  | self _ => exact steady_pure _
  | field span object name =>
      rw [Expr.field.sizeOf_spec] at h
      refine (ih.eval depth locals object (by omega)).bind fun base => ?_
      exact steady_readField base span name
  | unary span op arg =>
      rw [Expr.unary.sizeOf_spec] at h
      exact (ih.eval depth locals arg (by omega)).bind fun v => steady_settle _ _
  | binary span op left right => exact ih.binary_succ depth locals span op left right h
  | struct span name fields =>
      rw [Expr.struct.sizeOf_spec] at h
      refine (ih.evalFields depth locals fields (by omega)).bind fun values => ?_
      split
      · exact steady_pure _
      · exact steady_raise _ _
  | call span callee args =>
      rw [Expr.call.sizeOf_spec] at h
      rw [Machine.eval, Machine.eval]
      split
      · exact ih.callBuiltin depth locals _ span callee args (by omega)
      · refine (ih.evalAll depth locals args (by omega)).bind fun values => ?_
        exact ih.call depth callee.name values (some span) (by omega)

theorem condition_succ (e : Expr) (h : 2 * sizeOf e + m.callFuel depth + 1 ≤ fuel + 1) :
    Steady (m.condition depth locals (fuel + 1) e) (m.condition depth locals (fuel + 2) e) := by
  refine (ih.eval depth locals e (by omega)).bind fun v => ?_
  cases v with
  | bool b => exact steady_pure b
  | _ => exact steady_raise _ _

theorem evalAll_succ (es : List Expr) (h : 2 * sizeOf es + m.callFuel depth ≤ fuel + 1) :
    Steady (m.evalAll depth locals (fuel + 1) es) (m.evalAll depth locals (fuel + 2) es) := by
  cases es with
  | nil => exact steady_pure _
  | cons e es =>
      rw [List.cons.sizeOf_spec] at h
      refine (ih.eval depth locals e (by omega)).bind fun v => ?_
      exact (ih.evalAll depth locals es (by omega)).bind fun vs => steady_pure _

theorem evalFields_succ (fields : List (Ident × Expr))
    (h : 2 * sizeOf fields + m.callFuel depth ≤ fuel + 1) :
    Steady (m.evalFields depth locals (fuel + 1) fields)
      (m.evalFields depth locals (fuel + 2) fields) := by
  cases fields with
  | nil => exact steady_pure _
  | cons entry rest =>
      obtain ⟨name, e⟩ := entry
      rw [List.cons.sizeOf_spec, Prod.mk.sizeOf_spec] at h
      refine (ih.eval depth locals e (by omega)).bind fun v => ?_
      exact (ih.evalFields depth locals rest (by omega)).bind fun vs => steady_pure _

theorem argumentText_succ (span : Span) (callee : Ident) (args : List Expr)
    (h : 2 * sizeOf args + m.callFuel depth ≤ fuel + 1) :
    Steady (m.argumentText depth locals (fuel + 1) span callee args)
      (m.argumentText depth locals (fuel + 2) span callee args) := by
  cases args with
  | nil => exact steady_raise _ _
  | cons arg rest =>
      rw [List.cons.sizeOf_spec] at h
      refine (ih.eval depth locals arg (by omega)).bind fun v => ?_
      exact steady_textArgument arg.span callee.name v

theorem callBuiltin_succ (b : Builtin) (span : Span) (callee : Ident) (args : List Expr)
    (h : 2 * sizeOf args + m.callFuel depth + 1 ≤ fuel + 1) :
    Steady (m.callBuiltin depth locals (fuel + 1) b span callee args)
      (m.callBuiltin depth locals (fuel + 2) b span callee args) := by
  -- What is asked of the host takes no fuel, so only the arguments matter.
  have text := ih.argumentText depth locals span callee args (by omega)
  have asked : ∀ {call : HostCall σ (Option NodeRef)} {f : Option NodeRef → Eval σ Value},
      (∀ r, Steady (f r) (f r)) →
      Steady (m.checkAlive m.self span >>= fun _ => Eval.ofHost call >>= f)
        (m.checkAlive m.self span >>= fun _ => Eval.ofHost call >>= f) := fun hf =>
    (steady_checkAlive m.self span).bind fun _ => (steady_ofHost _).bind hf
  cases b with
  | print =>
      refine (ih.evalAll depth locals args (by omega)).bind fun values => ?_
      exact (steady_ofHost _).bind fun _ => steady_pure _
  | emitSignal =>
      cases args with
      | nil => exact steady_raise _ _
      | cons first rest =>
          rw [List.cons.sizeOf_spec] at h
          cases first with
          | string nameSpan name =>
              rw [Machine.callBuiltin, Machine.callBuiltin]
              split
              · exact steady_raise _ _
              · refine (ih.evalAll depth locals rest (by omega)).bind fun values => ?_
                refine (steady_checkAlive m.self span).bind fun _ => ?_
                exact (steady_ofHost _).bind fun _ => steady_pure _
          | _ => exact steady_raise _ _
  | getParent => exact asked fun r => steady_found span _ r
  | getNode => exact text.bind fun path => asked fun r => steady_found span _ r
  | hasNode => exact text.bind fun path => asked fun r => steady_pure _
  | findChild => exact text.bind fun name => asked fun r => steady_found span _ r

theorem call_succ (hm : m.LoopFree) (name : Text) (args : List Value) (span : Option Span)
    (h : m.callFuel depth ≤ fuel + 1) :
    Steady (m.call depth (fuel + 1) name args span) (m.call depth (fuel + 2) name args span) := by
  rw [Machine.call, Machine.call]
  cases hf : m.function? name with
  | none => exact steady_raise _ _
  | some f =>
      by_cases hdeep : m.maxDepth ≤ depth
      · simp only [if_pos hdeep]
        exact steady_raise _ _
      · simp only [if_neg hdeep]
        have hmem : f ∈ m.functions := List.mem_of_find?_eq_some hf
        have hloop := hm f hmem
        have hsize := le_bodyFuel hmem
        rw [callFuel_succ hdeep] at h
        refine Steady.inFunction ?_ name
        cases hbody : f.decl.body with
        | mk span body =>
            rw [hbody, Block.mk.sizeOf_spec] at hsize
            rw [hbody, Block.tree] at hloop
            refine (ih.execAll (depth + 1) _ body hloop.child (by omega)).bind fun flow => ?_
            exact steady_conclude f flow

theorem exec_succ (st : Stmt Ty) (hst : st.tree.Avoids .whileStatement)
    (h : 2 * sizeOf st + m.callFuel depth ≤ fuel + 1) :
    Steady (m.exec depth (fuel + 1) locals st) (m.exec depth (fuel + 2) locals st) := by
  cases st with
  | block b =>
      rw [Stmt.block.sizeOf_spec] at h
      exact ih.execBlock depth locals b hst (by omega)
  | bind span name mutable declared init type =>
      rw [Stmt.bind.sizeOf_spec] at h
      exact (ih.eval depth locals init (by omega)).bind fun v => steady_pure _
  | assign span target op value =>
      rw [Stmt.assign.sizeOf_spec] at h
      refine (ih.eval depth locals value (by omega)).bind fun rhs => ?_
      exact (steady_assign locals span target op rhs).bind fun _ => steady_pure _
  | cond c =>
      rw [Stmt.cond.sizeOf_spec] at h
      exact ih.execCond depth locals c hst (by omega)
  | loop span test body => exact absurd rfl hst.kind
  | ret span value =>
      cases value with
      | none => exact steady_pure _
      | some e =>
          rw [Stmt.ret.sizeOf_spec, Option.some.sizeOf_spec] at h
          exact (ih.eval depth locals e (by omega)).bind fun v => steady_pure _
  | eval span e =>
      rw [Stmt.eval.sizeOf_spec] at h
      exact (ih.eval depth locals e (by omega)).bind fun _ => steady_pure _

theorem execAll_succ (body : List (Stmt Ty))
    (hbody : ∀ t ∈ stmtTrees body, t.Avoids .whileStatement)
    (h : 2 * sizeOf body + m.callFuel depth ≤ fuel + 1) :
    Steady (m.execAll depth (fuel + 1) locals body) (m.execAll depth (fuel + 2) locals body) := by
  cases body with
  | nil => exact steady_pure _
  | cons st rest =>
      rw [List.cons.sizeOf_spec] at h
      obtain ⟨hst, hrest⟩ := List.forall_mem_cons.mp hbody
      refine (ih.exec depth locals st hst (by omega)).bind fun flow => ?_
      cases flow with
      | next locals' => exact ih.execAll depth locals' rest hrest (by omega)
      | returned v => exact steady_pure _

theorem execBlock_succ (b : Block Ty) (hb : b.tree.Avoids .whileStatement)
    (h : 2 * sizeOf b + m.callFuel depth ≤ fuel + 1) :
    Steady (m.execBlock depth (fuel + 1) locals b) (m.execBlock depth (fuel + 2) locals b) := by
  cases b with
  | mk span body =>
      rw [Block.mk.sizeOf_spec] at h
      refine (ih.execAll depth ([] :: locals) body hb.child (by omega)).bind fun flow => ?_
      cases flow with
      | next inner => exact steady_pure _
      | returned v => exact steady_pure _

theorem execCond_succ (c : Cond Ty) (hc : c.tree.Avoids .whileStatement)
    (h : 2 * sizeOf c + m.callFuel depth ≤ fuel + 1) :
    Steady (m.execCond depth (fuel + 1) locals c) (m.execCond depth (fuel + 2) locals c) := by
  cases c with
  | mk span test consequent alternate =>
      rw [Cond.mk.sizeOf_spec] at h
      rw [Cond.tree] at hc
      obtain ⟨-, hrest⟩ := List.forall_mem_cons.mp hc.child
      obtain ⟨hcons, halt⟩ := List.forall_mem_cons.mp hrest
      refine (ih.condition depth locals test (by omega)).bind fun taken => ?_
      cases taken with
      | true => exact ih.execBlock depth locals consequent hcons (by omega)
      | false =>
          cases alternate with
          | absent => exact steady_pure _
          | block b =>
              rw [Else.block.sizeOf_spec] at h
              exact ih.execBlock depth locals b (halt _ List.mem_cons_self) (by omega)
          | cond c =>
              rw [Else.cond.sizeOf_spec] at h
              exact ih.execCond depth locals c (halt _ List.mem_cons_self) (by omega)

end SteadyAt

theorem steadyAt (hm : m.LoopFree) (fuel : Nat) : SteadyAt m fuel := by
  induction fuel with
  | zero => exact .zero m
  | succ fuel ih =>
      exact
        { eval         := ih.eval_succ
          condition    := ih.condition_succ
          evalAll      := ih.evalAll_succ
          evalFields   := ih.evalFields_succ
          callBuiltin  := ih.callBuiltin_succ
          argumentText := ih.argumentText_succ
          call         := fun depth => ih.call_succ depth hm
          exec         := ih.exec_succ
          execAll      := ih.execAll_succ
          execBlock    := ih.execBlock_succ
          execCond     := ih.execCond_succ }

end Machine

/-! ## Enough fuel -/

/-- From so much fuel on the computation does not run out of it, and more makes no difference. -/
def SteadyFrom (x : Nat → Eval σ α) (enough : Nat) : Prop :=
  ∀ fuel, enough ≤ fuel → Steady (x enough) (x fuel)

theorem steadyFrom_of_succ {x : Nat → Eval σ α} {enough : Nat}
    (h : ∀ fuel, enough ≤ fuel → Steady (x fuel) (x (fuel + 1))) : SteadyFrom x enough := by
  intro fuel hle
  induction fuel, hle using Nat.le_induction with
  | base => exact fun w => ⟨rfl, (h enough (Nat.le_refl _) w).2⟩
  | succ fuel hle ih =>
      intro w
      obtain ⟨hsame, hfuel⟩ := ih w
      exact ⟨(h fuel hle w).1.trans hsame, hfuel⟩

namespace Machine

variable {m : Machine σ}

theorem steadyFrom_eval (hm : m.LoopFree) (depth : Nat) (locals : Locals) (e : Expr) :
    SteadyFrom (fun fuel => m.eval depth locals fuel e) (2 * sizeOf e + m.callFuel depth) :=
  steadyFrom_of_succ fun fuel hle => (steadyAt hm fuel).eval depth locals e hle

theorem steadyFrom_call (hm : m.LoopFree) (depth : Nat) (name : Text) (args : List Value)
    (span : Option Span) :
    SteadyFrom (fun fuel => m.call depth fuel name args span) (m.callFuel depth) :=
  steadyFrom_of_succ fun fuel hle => (steadyAt hm fuel).call depth name args span hle

end Machine

end SceneScript
