import SceneScript.Proofs.Eval.Moments
import SceneScript.Proofs.Stack.Balance

/-!
# Two evaluators

On a host that does not come back, the evaluator with a stack does what `Machine.eval` does: the
frames on the stack are the locals that `Machine.eval` is given, and the open calls are its depth.

* **`Mirrors`** — a computation on the stack does what one with its locals at hand does, and gives
  the stack back as it was.
* **`Leads`** — the same of statements, which end in three ways.
* **`OnStack.mirrorsAt`** — both evaluators agree, by induction on the fuel.
-/

namespace SceneScript

variable {σ α β : Type} {s : Stack σ}

/-- A script on a host that does not come back. -/
def Reentrant.ofHost (host : Host σ) (script : Script) (a : Attachment) : Reentrant σ :=
  ⟨host.replying, script, a⟩

/-! ## Expressions -/

/-- With the calls and frames of `s`, in any world, `x` does what `y` does and gives calls and
    frames back. -/
def Mirrors (x : OnStack σ α) (y : Eval σ α) (s : Stack σ) : Prop :=
  ∀ w, x { s with world := w } = OnStack.lift y { s with world := w }

theorem OnStack.lift_of_ok {y : Eval σ α} {a : α} {w : World σ} (h : y s.world = .ok a w) :
    lift y s = .ok a { s with world := w } := by
  rw [lift, h]

theorem OnStack.lift_of_error {y : Eval σ α} {e : Halt} {w : World σ}
    (h : y s.world = .error e w) : lift y s = .error (.halt e) { s with world := w } := by
  rw [lift, h]

theorem mirrors_lift (y : Eval σ α) : Mirrors (OnStack.lift y) y s := fun _ => rfl

theorem mirrors_pure (a : α) : Mirrors (pure a) (pure a) s := fun _ => rfl

theorem mirrors_outOfFuel :
    Mirrors (throw (.halt .outOfFuel) : OnStack σ α) (throw .outOfFuel) s := fun _ => rfl

theorem mirrors_lookup (id : Ident) :
    Mirrors (OnStack.seeing fun locals => Machine.lookup locals id) (Machine.lookup s.frames id)
      s := fun _ => rfl

theorem Mirrors.bind {x : OnStack σ α} {y : Eval σ α} {f : α → OnStack σ β} {g : α → Eval σ β}
    (h : Mirrors x y s) (hnext : ∀ a, Mirrors (f a) (g a) s) :
    Mirrors (x >>= f) (y >>= g) s := by
  intro w
  cases hy : y w with
  | ok a w' =>
      rw [bind_of_ok ((h w).trans (OnStack.lift_of_ok hy)), hnext a w']
      simp only [OnStack.lift, bind_of_ok hy]
  | error e w' =>
      rw [bind_of_error ((h w).trans (OnStack.lift_of_error hy))]
      exact (OnStack.lift_of_error (bind_of_error hy)).symm

/-! ## The host -/

section Asking

open Instance (machine)

variable {host : Host σ} {script : Script} {a : Attachment}
  {call : Text → List Value → OnStack σ Value}

/-- An operation that does not come back does what it does to the state of the host. -/
theorem mirrors_ofCall {p : Reentrant σ} (x : HostCall σ α) :
    Mirrors (OnStack.ask p call (.ofCall x)) (Eval.ofHost x) s := by
  intro w
  rw [HostReply.ofCall, OnStack.ask, OnStack.lift, Eval.ofHost]
  refine (bind_of_ok (x := (get : OnStack σ (Stack σ))) rfl).trans ?_
  dsimp only
  cases x w.host with
  | ok a state => rfl
  | error m state => rfl

theorem mirrors_checkAlive (ref : NodeRef) (span : Span) :
    Mirrors (OnStack.checkAlive (.ofHost host script a) call ref span)
      ((machine host script a).checkAlive ref span) s := by
  refine (mirrors_ofCall (host.isAlive ref)).bind fun alive => ?_
  split
  · exact mirrors_lift _
  · exact mirrors_pure ()

theorem mirrors_readField (base : Value) (span : Span) (field : Ident) :
    Mirrors (OnStack.readField (.ofHost host script a) call base span field)
      ((machine host script a).readField base span field) s := by
  unfold OnStack.readField
  split
  · next ref =>
      rw [Machine.readField]
      cases NodeField.ofText? field.name with
      | none => exact mirrors_lift _
      | some f => exact (mirrors_checkAlive ref span).bind fun _ => mirrors_ofCall _
  · next hbase =>
      rw [Machine.readField]
      · cases base.getNamed? field.name with
        | none => exact mirrors_lift _
        | some v => exact mirrors_pure v
      · exact hbase

theorem mirrors_equal (l r : Value) :
    Mirrors (OnStack.equal (.ofHost host script a) call l r) ((machine host script a).equal l r)
      s := by
  cases l with
  | node b =>
      cases r with
      | node c => exact mirrors_ofCall (host.sameNode b c)
      | _ => exact fun _ => rfl
  | _ => exact fun _ => rfl

theorem mirrors_binary (span : Span) (op : BinaryOp) (l r : Value) :
    Mirrors (OnStack.binary (.ofHost host script a) call span op l r)
      ((machine host script a).binary span op l r) s := by
  cases op with
  | eq => exact (mirrors_equal l r).bind fun _ => mirrors_pure _
  | ne => exact (mirrors_equal l r).bind fun _ => mirrors_pure _
  | _ => exact mirrors_lift _

theorem mirrors_combine (old rhs : Value) (op : AssignOp) (span : Span) :
    Mirrors (OnStack.combine (.ofHost host script a) call old rhs op span)
      ((machine host script a).combine old rhs op span) s := by
  rw [OnStack.combine, Machine.combine]
  cases op.arithmetic? with
  | none => exact mirrors_pure _
  | some op => exact (mirrors_binary span op old rhs).bind fun _ => mirrors_pure _

/-- Writing at a path, by induction on the path. -/
theorem mirrors_nextValue (rhs : Value) (op : AssignOp) (span : Span) (path : List Text) :
    ∀ base, Mirrors (OnStack.nextValue (.ofHost host script a) call rhs op span base path)
      ((machine host script a).nextValue rhs op span base path) s := by
  induction path with
  | nil => exact fun base => mirrors_combine base rhs op span
  | cons name rest ih =>
      intro base
      show Mirrors _ ((machine host script a).writePath rhs op span base (name :: rest)) s
      unfold OnStack.nextValue
      split
      · next ref =>
          cases hf : NodeField.ofText? name with
          | none =>
              simp only [Machine.writePath, hf]
              exact mirrors_lift _
          | some field =>
              rw [Machine.writePath_node hf]
              refine (mirrors_checkAlive ref span).bind fun _ => ?_
              refine (mirrors_ofCall (host.getProperty ref field)).bind fun old => ?_
              refine (ih old).bind fun next => ?_
              exact (mirrors_ofCall (host.setProperty ref field next)).bind fun _ => mirrors_pure _
      · next hbase =>
          have hn : base.type ≠ .node := by
            intro h
            cases base <;> cases h
            exact hbase _ rfl
          cases hold : base.getNamed? name with
          | none =>
              rw [Machine.writePath_missing hn hold]
              exact mirrors_lift _
          | some old =>
              rw [Machine.writePath_value hn hold]
              refine (ih old).bind fun next => ?_
              cases base.setNamed? name next with
              | some rebuilt => exact mirrors_pure rebuilt
              | none => exact mirrors_lift _

theorem mirrors_search (span : Span) (cause : FaultCause) (x : HostCall σ (Option NodeRef)) :
    Mirrors (OnStack.search (.ofHost host script a) call span cause (.ofCall x))
      (do
        (machine host script a).checkAlive a.self span
        Machine.found span cause (← Eval.ofHost x)) s :=
  (mirrors_checkAlive a.self span).bind fun _ => (mirrors_ofCall x).bind fun _ => mirrors_lift _

end Asking

/-! ## Statements -/

/-- The end of a statement with locals at hand, and its end on the stack. As many calls are open as
    the statement found; the frames are the locals behind it, or what is left of them when it ends
    the function. -/
inductive Unwinds (depth : Nat) :
    EStateM.Result Halt (World σ) Flow → EStateM.Result Unwind (Stack σ) Unit → Prop where
  | next (frames : Locals) (w : World σ) :
      Unwinds depth (.ok (.next frames) w) (.ok () ⟨depth, frames, w⟩)
  | returned (v : Value) (frames : Locals) (w : World σ) :
      Unwinds depth (.ok (.returned v) w) (.error (.returned v) ⟨depth, frames, w⟩)
  | halted (h : Halt) (frames : Locals) (w : World σ) :
      Unwinds depth (.error h w) (.error (.halt h) ⟨depth, frames, w⟩)

/-- With the calls and frames of `s`, in any world, both computations end so. -/
def Leads (x : OnStack σ Unit) (y : Eval σ Flow) (s : Stack σ) : Prop :=
  ∀ w, Unwinds s.depth (y w) (x { s with world := w })

theorem leads_next : Leads (pure ()) (pure (.next s.frames)) s := fun w => .next _ w

theorem leads_outOfFuel : Leads (throw (.halt .outOfFuel)) (throw .outOfFuel) s :=
  fun w => .halted _ _ w

theorem leads_returned (v : Value) : Leads (throw (.returned v)) (pure (.returned v)) s :=
  fun w => .returned v _ w

/-- A statement that begins with an expression. -/
theorem Mirrors.leads {x : OnStack σ α} {y : Eval σ α} {f : α → OnStack σ Unit}
    {g : α → Eval σ Flow} (h : Mirrors x y s) (hnext : ∀ a, Leads (f a) (g a) s) :
    Leads (x >>= f) (y >>= g) s := by
  intro w
  cases hy : y w with
  | ok a w' =>
      rw [bind_of_ok ((h w).trans (OnStack.lift_of_ok hy)), bind_of_ok hy]
      exact hnext a w'
  | error e w' =>
      rw [bind_of_error ((h w).trans (OnStack.lift_of_error hy)), bind_of_error hy]
      exact .halted e _ w'

/-- A statement with something behind it, which finds at least one frame too. -/
theorem Leads.bind {x x' : OnStack σ Unit} {y : Eval σ Flow} {y' : Locals → Eval σ Flow}
    {g : Flow → Eval σ Flow} (h : Leads x y s) (hx : OnStack.Levels x) (hs : s.frames ≠ [])
    (hg : ∀ frames, g (.next frames) = y' frames)
    (hreturned : ∀ v, g (.returned v) = pure (.returned v))
    (hnext : ∀ frames, frames ≠ [] → Leads x' (y' frames) { s with frames := frames }) :
    Leads (x >>= fun _ => x') (y >>= g) s := by
  intro w
  have hend := h w
  have hlength := (hx { s with world := w }).2
  generalize hr : x { s with world := w } = q at hend
  generalize hy : y w = r at hend
  cases hend with
  | next frames w' =>
      rw [OnStack.after_of_ok hr] at hlength
      have hframes : frames ≠ [] :=
        List.ne_nil_of_length_pos (hlength ▸ List.length_pos_of_ne_nil hs)
      rw [bind_of_ok hr, bind_of_ok hy, hg]
      exact hnext frames hframes w'
  | returned v frames w' =>
      rw [bind_of_error hr, bind_of_ok hy, hreturned]
      exact .returned v frames w'
  | halted e frames w' =>
      rw [bind_of_error hr, bind_of_error hy]
      exact .halted e frames w'

/-- The frame of a block is gone behind it, also when the block is left by a return or a fault. -/
theorem Leads.block {x : OnStack σ Unit} {y : Eval σ Flow} {g : Flow → Eval σ Flow}
    (h : Leads x y s.push) (hg : ∀ frames, g (.next frames) = pure (.next frames.tail))
    (hreturned : ∀ v, g (.returned v) = pure (.returned v)) :
    Leads (modify Stack.push >>= fun _ => OnStack.ensuring x Stack.pop) (y >>= g) s := by
  intro w
  have hend := h w
  show Unwinds _ _ (OnStack.ensuring x Stack.pop { s.push with world := w })
  rw [OnStack.ensuring]
  generalize x { s.push with world := w } = q at hend
  generalize hy : y w = r at hend
  cases hend with
  | next frames w' =>
      rw [bind_of_ok hy, hg]
      exact .next _ w'
  | returned v frames w' =>
      rw [bind_of_ok hy, hreturned]
      exact .returned v _ w'
  | halted e frames w' =>
      rw [bind_of_error hy]
      exact .halted e _ w'

/-- A declaration, where there is a frame for it. -/
theorem leads_declare (hs : s.frames ≠ []) (name : Text) (value : Value) :
    Leads (modify fun s => s.declare name value) (pure (.next (s.frames.declare name value)))
      s := by
  obtain ⟨depth, frames, world⟩ := s
  cases frames with
  | nil => exact absurd rfl hs
  | cons frame frames => exact fun w => .next _ w

theorem leads_store (name : Text) (value : Value) :
    Leads (modify fun s => s.store name value)
      (Machine.store s.frames name value >>= fun l => pure (.next l)) s := by
  intro w
  show Unwinds s.depth _ (.ok () (Stack.store { s with world := w } name value))
  rw [Stack.store, Machine.store]
  dsimp only
  cases s.frames.assign? name value with
  | some changed => exact .next changed w
  | none => exact .next s.frames _

theorem leads_assign {host : Host σ} {script : Script} {a : Attachment}
    {call : Text → List Value → OnStack σ Value} (span : Span) (target : AssignTarget)
    (op : AssignOp) (rhs : Value) :
    Leads (OnStack.assign (.ofHost host script a) call span target op rhs)
      ((Instance.machine host script a).assign s.frames span target op rhs >>=
        fun l => pure (.next l)) s := by
  obtain ⟨place, root, path⟩ := target
  cases root with
  | self _ =>
      cases path with
      | nil => exact fun w => .halted _ s.frames w
      | cons id path =>
          show Leads _ (((Instance.machine host script a).nextValue rhs op span (.node a.self)
            ((id :: path).map Ident.name) >>= fun _ => pure s.frames) >>=
              fun l => pure (.next l)) s
          rw [bind_assoc]
          exact (mirrors_nextValue rhs op span _ _).leads fun _ => leads_next
  | name id =>
      rw [Machine.assign_name, bind_assoc]
      refine (mirrors_lookup id).leads fun current => ?_
      rw [bind_assoc]
      exact (mirrors_nextValue rhs op span _ current).leads fun next => leads_store id.name next

/-! ## Calls -/

/-- The end of the body of a call with locals at hand, and its end on the stack, whatever is left of
    the frames. -/
inductive Settled (depth : Nat) :
    EStateM.Result Halt (World σ) Value → EStateM.Result Unwind (Stack σ) Value → Prop where
  | ok (v : Value) (frames : Locals) (w : World σ) :
      Settled depth (.ok v w) (.ok v ⟨depth, frames, w⟩)
  | error (h : Halt) (frames : Locals) (w : World σ) :
      Settled depth (.error h w) (.error (.halt h) ⟨depth, frames, w⟩)

theorem settled_lift {depth : Nat} (y : Eval σ Value) (frames : Locals) (w : World σ) :
    Settled depth (y w) (OnStack.lift y ⟨depth, frames, w⟩) := by
  rw [OnStack.lift]
  cases y w with
  | ok v w' => exact .ok v frames w'
  | error h w' => exact .error h frames w'

/-- A return ends its function and nothing else. -/
theorem settled_returning {f : FunctionInfo} {body : OnStack σ Unit} {y : Eval σ Flow}
    {w : World σ} {depth : Nat} (h : Unwinds depth (y w) (body s)) :
    Settled depth ((y >>= Machine.conclude f) w) (OnStack.returning f body s) := by
  rw [OnStack.returning]
  generalize body s = q at h
  generalize hy : y w = r at h
  cases h with
  | next frames w' =>
      rw [bind_of_ok hy]
      exact settled_lift _ frames w'
  | returned v frames w' =>
      rw [bind_of_ok hy]
      exact settled_lift _ frames w'
  | halted e frames w' =>
      rw [bind_of_error hy]
      exact .error e frames w'

theorem Settled.inFunction {x : OnStack σ Value} {y : Eval σ Value} {w : World σ} {depth : Nat}
    (h : Settled depth (y w) (x s)) (name : Text) :
    Settled depth (Eval.inFunction name y w) (OnStack.inFunction name x s) := by
  rw [Eval.inFunction, OnStack.inFunction]
  generalize x s = q at h
  generalize y w = r at h
  cases h with
  | ok v frames w' => exact .ok v frames w'
  | error e frames w' =>
      cases e with
      | fault f => exact .error _ frames w'
      | outOfFuel => exact .error _ frames w'

/-- Behind a call there are the calls and the frames of the caller. -/
theorem Settled.leave {x : OnStack σ Value} {y : Eval σ Value} {w : World σ} {t : Stack σ}
    (h : Settled (s.depth + 1) (y w) (x t)) :
    OnStack.ensuring x (fun t => t.leave s.frames) t = OnStack.lift y { s with world := w } := by
  rw [OnStack.ensuring, OnStack.lift]
  generalize x t = q at h
  generalize y w = r at h
  cases h with
  | ok v frames w' => rfl
  | error e frames w' => rfl

theorem declareAll_eq (depth : Nat) (w : World σ) (params : List Param) :
    ∀ (types : List TypedName) (args : List Value) (frame : Bindings),
      OnStack.declareAll params types args ⟨depth, [frame], w⟩ =
        .ok () ⟨depth, [Machine.parameterFrame params types args frame], w⟩ := by
  induction params with
  | nil => exact fun _ _ _ => rfl
  | cons p ps ih => exact fun types args frame => ih types.tail args.tail _

/-! ## The whole evaluator -/

namespace OnStack

open Instance (machine)

/-- Both evaluators agree, at one amount of fuel. Statements run inside a call, where there is at
    least one frame. -/
structure MirrorsAt (host : Host σ) (script : Script) (a : Attachment) (fuel : Nat) : Prop where
  eval : ∀ e s, Mirrors (eval (.ofHost host script a) fuel e)
    ((machine host script a).eval s.depth s.frames fuel e) s
  condition : ∀ e s, Mirrors (condition (.ofHost host script a) fuel e)
    ((machine host script a).condition s.depth s.frames fuel e) s
  evalAll : ∀ es s, Mirrors (evalAll (.ofHost host script a) fuel es)
    ((machine host script a).evalAll s.depth s.frames fuel es) s
  evalFields : ∀ fields s, Mirrors (evalFields (.ofHost host script a) fuel fields)
    ((machine host script a).evalFields s.depth s.frames fuel fields) s
  callBuiltin : ∀ b span callee args s,
    Mirrors (callBuiltin (.ofHost host script a) fuel b span callee args)
      ((machine host script a).callBuiltin s.depth s.frames fuel b span callee args) s
  argumentText : ∀ span callee args s,
    Mirrors (argumentText (.ofHost host script a) fuel span callee args)
      ((machine host script a).argumentText s.depth s.frames fuel span callee args) s
  call : ∀ span name args s, Mirrors (call (.ofHost host script a) fuel span name args)
    ((machine host script a).call s.depth fuel name args span) s
  exec : ∀ st s, s.frames ≠ [] → Leads (exec (.ofHost host script a) fuel st)
    ((machine host script a).exec s.depth fuel s.frames st) s
  execAll : ∀ body s, s.frames ≠ [] → Leads (execAll (.ofHost host script a) fuel body)
    ((machine host script a).execAll s.depth fuel s.frames body) s
  execBlock : ∀ b s, s.frames ≠ [] → Leads (execBlock (.ofHost host script a) fuel b)
    ((machine host script a).execBlock s.depth fuel s.frames b) s
  execCond : ∀ c s, s.frames ≠ [] → Leads (execCond (.ofHost host script a) fuel c)
    ((machine host script a).execCond s.depth fuel s.frames c) s
  execLoop : ∀ test body s, s.frames ≠ [] → Leads (execLoop (.ofHost host script a) fuel test body)
    ((machine host script a).execLoop s.depth fuel s.frames test body) s

namespace MirrorsAt

variable {host : Host σ} {script : Script} {a : Attachment} {fuel : Nat}

theorem zero (host : Host σ) (script : Script) (a : Attachment) : MirrorsAt host script a 0 where
  eval _ _              := mirrors_outOfFuel
  condition _ _         := mirrors_outOfFuel
  evalAll _ _           := mirrors_outOfFuel
  evalFields _ _        := mirrors_outOfFuel
  callBuiltin _ _ _ _ _ := mirrors_outOfFuel
  argumentText _ _ _ _  := mirrors_outOfFuel
  call _ _ _ _          := mirrors_outOfFuel
  exec _ _ _            := leads_outOfFuel
  execAll _ _ _         := leads_outOfFuel
  execBlock _ _ _       := leads_outOfFuel
  execCond _ _ _        := leads_outOfFuel
  execLoop _ _ _ _      := leads_outOfFuel

variable (ih : MirrorsAt host script a fuel)

include ih

theorem binary_succ (span : Span) (op : BinaryOp) (left right : Expr) (s : Stack σ) :
    Mirrors (OnStack.eval (.ofHost host script a) (fuel + 1) (.binary span op left right))
      ((machine host script a).eval s.depth s.frames (fuel + 1) (.binary span op left right))
      s := by
  by_cases hop : op.IsLogic
  · rcases hop with rfl | rfl
    · refine (ih.condition left s).bind fun b => ?_
      cases b with
      | true => exact (ih.condition right s).bind fun b' => mirrors_pure _
      | false => exact mirrors_pure _
    · refine (ih.condition left s).bind fun b => ?_
      cases b with
      | true => exact mirrors_pure _
      | false => exact (ih.condition right s).bind fun b' => mirrors_pure _
  · rw [Machine.eval_operator hop, OnStack.eval]
    · refine (ih.eval left s).bind fun l => (ih.eval right s).bind fun r => ?_
      exact mirrors_binary span op l r
    · exact fun h => hop (.inl h)
    · exact fun h => hop (.inr h)

theorem eval_succ (e : Expr) (s : Stack σ) :
    Mirrors (OnStack.eval (.ofHost host script a) (fuel + 1) e)
      ((machine host script a).eval s.depth s.frames (fuel + 1) e) s := by
  cases e with
  | int _ n _ => exact mirrors_pure _
  | float _ x _ => exact mirrors_pure _
  | bool _ b => exact mirrors_pure _
  | string _ t => exact mirrors_pure _
  | ident id => exact mirrors_lookup id
  | self _ => exact mirrors_pure _
  | field span object name =>
      exact (ih.eval object s).bind fun base => mirrors_readField base span name
  | unary span op arg => exact (ih.eval arg s).bind fun v => mirrors_lift _
  | binary span op left right => exact ih.binary_succ span op left right s
  | struct span name fields =>
      refine (ih.evalFields fields s).bind fun values => ?_
      generalize ((Ty.ofText? name.name).bind fun t => Value.build? t values) = built
      cases built with
      | some v => exact mirrors_pure v
      | none => exact mirrors_lift _
  | call span callee args =>
      rw [Machine.eval, OnStack.eval]
      cases Builtin.ofText? callee.name with
      | some builtin => exact ih.callBuiltin builtin span callee args s
      | none =>
          refine (ih.evalAll args s).bind fun values => ?_
          exact ih.call (some span) callee.name values s

theorem condition_succ (e : Expr) (s : Stack σ) :
    Mirrors (OnStack.condition (.ofHost host script a) (fuel + 1) e)
      ((machine host script a).condition s.depth s.frames (fuel + 1) e) s := by
  refine (ih.eval e s).bind fun v => ?_
  cases v with
  | bool b => exact mirrors_pure b
  | _ => exact mirrors_lift _

theorem evalAll_succ (es : List Expr) (s : Stack σ) :
    Mirrors (OnStack.evalAll (.ofHost host script a) (fuel + 1) es)
      ((machine host script a).evalAll s.depth s.frames (fuel + 1) es) s := by
  cases es with
  | nil => exact mirrors_pure _
  | cons e es => exact (ih.eval e s).bind fun v => (ih.evalAll es s).bind fun vs => mirrors_pure _

theorem evalFields_succ (fields : List (Ident × Expr)) (s : Stack σ) :
    Mirrors (OnStack.evalFields (.ofHost host script a) (fuel + 1) fields)
      ((machine host script a).evalFields s.depth s.frames (fuel + 1) fields) s := by
  cases fields with
  | nil => exact mirrors_pure _
  | cons entry rest =>
      refine (ih.eval entry.2 s).bind fun v => ?_
      exact (ih.evalFields rest s).bind fun vs => mirrors_pure _

theorem argumentText_succ (span : Span) (callee : Ident) (args : List Expr) (s : Stack σ) :
    Mirrors (OnStack.argumentText (.ofHost host script a) (fuel + 1) span callee args)
      ((machine host script a).argumentText s.depth s.frames (fuel + 1) span callee args) s := by
  cases args with
  | nil => exact fun _ => rfl
  | cons arg rest => exact (ih.eval arg s).bind fun v => mirrors_lift _

theorem callBuiltin_succ (b : Builtin) (span : Span) (callee : Ident) (args : List Expr)
    (s : Stack σ) :
    Mirrors (OnStack.callBuiltin (.ofHost host script a) (fuel + 1) b span callee args)
      ((machine host script a).callBuiltin s.depth s.frames (fuel + 1) b span callee args) s := by
  cases b with
  | print =>
      refine (ih.evalAll args s).bind fun values => ?_
      exact (mirrors_ofCall _).bind fun _ => mirrors_pure _
  | emitSignal =>
      cases args with
      | nil => exact fun _ => rfl
      | cons first rest =>
          cases first with
          | string nameSpan name =>
              rw [Machine.callBuiltin, OnStack.callBuiltin]
              have hsignal : (Reentrant.ofHost host script a).signal? name =
                  (machine host script a).signal? name := rfl
              rw [hsignal]
              cases (machine host script a).signal? name with
              | none => exact mirrors_lift _
              | some signal =>
                  refine (ih.evalAll rest s).bind fun values => ?_
                  refine (mirrors_checkAlive a.self span).bind fun _ => ?_
                  exact (mirrors_ofCall _).bind fun _ => mirrors_pure _
          | _ => exact fun _ => rfl
  | getParent => exact mirrors_search span _ _
  | getNode =>
      exact (ih.argumentText span callee args s).bind fun path => mirrors_search span _ _
  | hasNode =>
      refine (ih.argumentText span callee args s).bind fun path => ?_
      refine (mirrors_checkAlive a.self span).bind fun _ => ?_
      exact (mirrors_ofCall _).bind fun _ => mirrors_pure _
  | findChild =>
      exact (ih.argumentText span callee args s).bind fun name => mirrors_search span _ _

/-- A call puts the stack back as it was, whichever way it ends. -/
theorem call_succ (span : Option Span) (name : Text) (args : List Value) (s : Stack σ) :
    Mirrors (OnStack.call (.ofHost host script a) (fuel + 1) span name args)
      ((machine host script a).call s.depth (fuel + 1) name args span) s := by
  intro w
  rw [Machine.call, OnStack.call]
  have hfunction : (Reentrant.ofHost host script a).script.function? name =
      (machine host script a).function? name := rfl
  rw [hfunction]
  cases (machine host script a).function? name with
  | none => rfl
  | some f =>
      dsimp only
      refine (bind_of_ok (x := (get : OnStack σ (Stack σ))) rfl).trans ?_
      have hlimit : (Reentrant.ofHost host script a).attachment.maxDepth =
          (machine host script a).maxDepth := rfl
      rw [hlimit]
      by_cases hdeep : (machine host script a).maxDepth ≤ s.depth
      · rw [if_pos hdeep, if_pos hdeep]
      · rw [if_neg hdeep, if_neg hdeep]
        refine (bind_of_ok (x := (modify Stack.enter : OnStack σ PUnit)) rfl).trans ?_
        refine Settled.leave (Settled.inFunction ?_ name)
        have hparams : declareAll f.decl.params f.signature.params args
            ({ s with world := w } : Stack σ).enter = .ok () _ :=
          declareAll_eq (s.depth + 1) w f.decl.params f.signature.params args []
        rw [bind_of_ok hparams]
        exact settled_returning (ih.execAll f.decl.body.body
          ⟨s.depth + 1, [Machine.parameterFrame f.decl.params f.signature.params args []], w⟩
          (List.cons_ne_nil _ _) w)

theorem exec_succ (st : Stmt Ty) (s : Stack σ) (hs : s.frames ≠ []) :
    Leads (OnStack.exec (.ofHost host script a) (fuel + 1) st)
      ((machine host script a).exec s.depth (fuel + 1) s.frames st) s := by
  cases st with
  | block b => exact ih.execBlock b s hs
  | bind _ name _ _ init type =>
      exact (ih.eval init s).leads fun v => leads_declare hs name.name (v.coerceOrKeep type)
  | assign span target op value =>
      exact (ih.eval value s).leads fun rhs => leads_assign span target op rhs
  | cond c => exact ih.execCond c s hs
  | loop _ test body => exact ih.execLoop test body s hs
  | ret _ e =>
      cases e with
      | none => exact leads_returned .void
      | some e => exact (ih.eval e s).leads fun v => leads_returned v
  | eval _ e => exact (ih.eval e s).leads fun _ => leads_next

theorem execAll_succ (body : List (Stmt Ty)) (s : Stack σ) (hs : s.frames ≠ []) :
    Leads (OnStack.execAll (.ofHost host script a) (fuel + 1) body)
      ((machine host script a).execAll s.depth (fuel + 1) s.frames body) s := by
  cases body with
  | nil => exact leads_next
  | cons st rest =>
      refine (ih.exec st s hs).bind ((keepsAt _ fuel).exec st) hs (fun _ => rfl) (fun _ => rfl) ?_
      exact fun frames hframes => ih.execAll rest { s with frames := frames } hframes

theorem execBlock_succ (b : Block Ty) (s : Stack σ) :
    Leads (OnStack.execBlock (.ofHost host script a) (fuel + 1) b)
      ((machine host script a).execBlock s.depth (fuel + 1) s.frames b) s := by
  cases b with
  | mk _ body =>
      refine Leads.block ?_ (fun _ => rfl) fun _ => rfl
      exact ih.execAll body s.push (List.cons_ne_nil _ _)

theorem execCond_succ (c : Cond Ty) (s : Stack σ) (hs : s.frames ≠ []) :
    Leads (OnStack.execCond (.ofHost host script a) (fuel + 1) c)
      ((machine host script a).execCond s.depth (fuel + 1) s.frames c) s := by
  cases c with
  | mk _ test consequent alternate =>
      refine (ih.condition test s).leads fun taken => ?_
      cases taken with
      | true => exact ih.execBlock consequent s hs
      | false =>
          cases alternate with
          | absent => exact leads_next
          | block b => exact ih.execBlock b s hs
          | cond c => exact ih.execCond c s hs

theorem execLoop_succ (test : Expr) (body : Block Ty) (s : Stack σ) (hs : s.frames ≠ []) :
    Leads (OnStack.execLoop (.ofHost host script a) (fuel + 1) test body)
      ((machine host script a).execLoop s.depth (fuel + 1) s.frames test body) s := by
  refine (ih.condition test s).leads fun again => ?_
  cases again with
  | true =>
      refine (ih.execBlock body s hs).bind ((keepsAt _ fuel).execBlock body) hs (fun _ => rfl)
        (fun _ => rfl) ?_
      exact fun frames hframes => ih.execLoop test body { s with frames := frames } hframes
  | false => exact leads_next

end MirrorsAt

/-- Both evaluators agree, whatever the fuel. -/
theorem mirrorsAt (host : Host σ) (script : Script) (a : Attachment) (fuel : Nat) :
    MirrorsAt host script a fuel := by
  induction fuel with
  | zero => exact .zero host script a
  | succ fuel ih =>
      exact
        { eval         := ih.eval_succ
          condition    := ih.condition_succ
          evalAll      := ih.evalAll_succ
          evalFields   := ih.evalFields_succ
          callBuiltin  := ih.callBuiltin_succ
          argumentText := ih.argumentText_succ
          call         := ih.call_succ
          exec         := ih.exec_succ
          execAll      := ih.execAll_succ
          execBlock    := fun b s _ => ih.execBlock_succ b s
          execCond     := ih.execCond_succ
          execLoop     := ih.execLoop_succ }

end OnStack

end SceneScript
