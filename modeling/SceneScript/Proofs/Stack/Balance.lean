import SceneScript.Proofs.Stack.Evaluator

/-!
# What code leaves on the stack

Every construct that changes the stack changes it back on its way out, so an expression leaves it
exactly as it was, and a statement leaves as many open calls and as many frames. Nothing is asked
of the script, and nothing of the host: it may come back to the script in the middle of an
expression, however often and however deep, and it may fail after that.

* **`OnStack.after`** — the stack that a computation leaves, whichever way it ends.
* **`OnStack.Keeps`** — how much of the stack it keeps: **`Restores`**, **`Levels`**.
* **`OnStack.restores_ask`** — a host that comes back keeps what the calls that it makes keep.
* **`OnStack.KeepsAt`** — what every part of the evaluator keeps at one amount of fuel.
* **`OnStack.keepsAt`** — it is kept at every amount, by induction.
-/

namespace SceneScript

variable {σ α β γ : Type}

/-- As many calls are open, and the frames look the same. -/
def Stack.Resembles (view : Locals → γ) (s s' : Stack σ) : Prop :=
  s'.depth = s.depth ∧ view s'.frames = view s.frames

theorem Stack.Resembles.trans {view : Locals → γ} {s s' s'' : Stack σ} (h : s.Resembles view s')
    (h' : s'.Resembles view s'') : s.Resembles view s'' :=
  ⟨h'.1.trans h.1, h'.2.trans h.2⟩

theorem Locals.length_assign? {name : Text} {value : Value} :
    ∀ {locals changed : Locals}, locals.assign? name value = some changed →
      changed.length = locals.length
  | [], _, h => by cases h
  | frame :: frames, changed, h => by
      rw [Locals.assign?] at h
      split at h
      · cases h
        rfl
      · obtain ⟨inner, hinner, rfl⟩ := Option.map_eq_some_iff.mp h
        exact congrArg (· + 1) (length_assign? hinner)

theorem Stack.declare_resembles (s : Stack σ) (name : Text) (value : Value) :
    s.Resembles List.length (s.declare name value) := by
  rw [declare]
  split
  · exact ⟨rfl, rfl⟩
  · next frame frames h =>
      refine ⟨rfl, ?_⟩
      rw [h]
      rfl

theorem Stack.store_resembles (s : Stack σ) (name : Text) (value : Value) :
    s.Resembles List.length (s.store name value) := by
  rw [store]
  split
  · next frames h => exact ⟨rfl, Locals.length_assign? h⟩
  · exact ⟨rfl, rfl⟩

namespace OnStack

/-- The stack that a computation leaves, whichever way it ends. -/
def after (x : OnStack σ α) (s : Stack σ) : Stack σ :=
  match x s with
  | .ok _ s'    => s'
  | .error _ s' => s'

variable {x : OnStack σ α} {s s' : Stack σ}

theorem after_of_ok {a : α} (h : x s = .ok a s') : after x s = s' := by rw [after, h]

theorem after_of_error {e : Unwind} (h : x s = .error e s') : after x s = s' := by rw [after, h]

theorem after_ensuring (f : Stack σ → Stack σ) : after (ensuring x f) s = f (after x s) := by
  rw [after, ensuring, after]
  cases x s <;> rfl

theorem after_inFunction (name : Text) : after (inFunction name x) s = after x s := by
  rw [after, inFunction, after]
  cases x s with
  | ok a s' => rfl
  | error e s' =>
      cases e with
      | returned v => rfl
      | halt h => cases h <;> rfl

theorem after_attempting : after (attempting x) s = after x s := by
  rw [after, attempting, after]
  cases x s with
  | ok a s' => rfl
  | error e s' =>
      dsimp only
      cases e.outcome <;> rfl

/-! ## What is kept -/

/-- A computation leaves as many calls open as before it, and frames that look the same. -/
def Keeps (view : Locals → γ) (x : OnStack σ α) : Prop :=
  ∀ s : Stack σ, s.Resembles view (after x s)

/-- Open calls and frames are those of before, with the same variables. -/
abbrev Restores (x : OnStack σ α) : Prop := Keeps id x

/-- There are as many open calls as before, and as many frames. -/
abbrev Levels (x : OnStack σ α) : Prop := Keeps List.length x

variable {view : Locals → γ}

theorem Keeps.of_restores (h : Restores x) : Keeps view x :=
  fun s => ⟨(h s).1, congrArg view (h s).2⟩

theorem keeps_pure (a : α) : Keeps view (pure a : OnStack σ α) := fun _ => ⟨rfl, rfl⟩

theorem keeps_throw (e : Unwind) : Keeps view (throw e : OnStack σ α) := fun _ => ⟨rfl, rfl⟩

theorem keeps_get : Keeps view (get : OnStack σ (Stack σ)) := fun _ => ⟨rfl, rfl⟩

theorem keeps_modify {f : Stack σ → Stack σ} (h : ∀ s : Stack σ, s.Resembles view (f s)) :
    Keeps view (modify f : OnStack σ PUnit) := h

theorem Keeps.bind {f : α → OnStack σ β} (hx : Keeps view x) (hf : ∀ a, Keeps view (f a)) :
    Keeps view (x >>= f) := by
  intro s
  have hs := hx s
  cases h : x s with
  | ok a s' =>
      rw [after_of_ok h] at hs
      have hafter : after (x >>= f) s = after (f a) s' := by rw [after, bind_of_ok h, after]
      rw [hafter]
      exact hs.trans (hf a s')
  | error e s' =>
      rw [after_of_error h] at hs
      rw [after_of_error (bind_of_error h)]
      exact hs

theorem keeps_lift (y : Eval σ α) : Keeps view (lift y) := by
  intro s
  rw [after, lift]
  cases y s.world with
  | ok a w => exact ⟨rfl, rfl⟩
  | error e w => exact ⟨rfl, rfl⟩

theorem keeps_seeing (y : Locals → Eval σ α) : Keeps view (seeing y) :=
  fun s => keeps_lift (y s.frames) s

theorem Keeps.inFunction (h : Keeps view x) (name : Text) : Keeps view (inFunction name x) := by
  intro s
  rw [after_inFunction]
  exact h s

theorem Keeps.attempting (h : Keeps view x) : Keeps view (attempting x) := by
  intro s
  rw [after_attempting]
  exact h s

theorem Keeps.returning {body : OnStack σ Unit} (h : Keeps view body) (f : FunctionInfo) :
    Keeps view (returning f body) := by
  intro s
  have hs := h s
  rw [after] at hs
  rw [after, OnStack.returning]
  generalize body s = r at hs
  cases r with
  | ok a s' => exact hs.trans (keeps_lift _ s')
  | error e s' =>
      cases e with
      | returned v => exact hs.trans (keeps_lift _ s')
      | halt e => exact hs

/-- The frame of a block is gone behind it. -/
theorem Levels.block (h : Levels x) :
    Levels (modify Stack.push >>= fun _ => ensuring x Stack.pop) := by
  intro s
  show s.Resembles List.length (after (ensuring x Stack.pop) s.push)
  rw [after_ensuring]
  obtain ⟨hdepth, hlength⟩ := h s.push
  refine ⟨hdepth, ?_⟩
  rw [Stack.pop, List.length_tail, hlength]
  rfl

/-- Behind a call there are the open calls and the frames of the caller. -/
theorem Levels.call (h : Levels x) :
    Restores (do
      let caller ← get
      modify Stack.enter
      ensuring x fun s => s.leave caller.frames) := by
  intro s
  show s.Resembles id (after (ensuring x fun t => t.leave s.frames) s.enter)
  rw [after_ensuring]
  refine ⟨?_, rfl⟩
  rw [Stack.leave, (h s.enter).1]
  rfl

theorem levels_declareAll (params : List Param) :
    ∀ (types : List TypedName) (args : List Value),
      Levels (declareAll params types args : OnStack σ Unit) := by
  induction params with
  | nil => exact fun _ _ => keeps_pure ()
  | cons p ps ih =>
      intro types args
      exact (keeps_modify fun s => s.declare_resembles _ _).bind fun _ => ih types.tail args.tail

/-! ## The host -/

theorem restores_setProperty (p : Reentrant σ) (name : Text) (v : Value) :
    Restores (setProperty p name v) := by
  intro s
  rw [after, setProperty]
  cases (⟨p.script, p.attachment, s.world.globals⟩ : Instance).setProperty name v with
  | ok i => exact ⟨rfl, rfl⟩
  | error e => exact ⟨rfl, rfl⟩

section Asking

variable {p : Reentrant σ} {call : Text → List Value → OnStack σ Value}
  (hcall : ∀ name args, Restores (call name args))

include hcall

theorem restores_reenter (name : Text) (args : List Value) :
    Restores (reenter p call name args) := by
  rw [reenter]
  cases Instance.receive p.script name args with
  | error cause => exact keeps_pure _
  | ok bound => exact (hcall name bound).attempting

/-- A host that comes back leaves the stack as it was, if the calls that it makes do. -/
theorem restores_ask (r : HostReply σ α) : Restores (ask p call r) := by
  induction r with
  | answer a => exact keeps_pure a
  | fail message => exact keeps_throw _
  | look next ih => exact keeps_get.bind fun s => ih s.world
  | become state next ih =>
      refine Keeps.bind (keeps_modify ?_) fun _ => ih
      exact fun s => ⟨rfl, rfl⟩
  | setProperty name v next ih => exact (restores_setProperty p name v).bind ih
  | invoke name args next ih => exact (restores_reenter hcall name args).bind ih

theorem restores_checkAlive (ref : NodeRef) (span : Span) :
    Restores (checkAlive p call ref span) := by
  refine (restores_ask hcall _).bind fun alive => ?_
  split
  · exact keeps_lift _
  · exact keeps_pure ()

theorem restores_readField (base : Value) (span : Span) (field : Ident) :
    Restores (readField p call base span field) := by
  unfold readField
  split
  · split
    · exact keeps_lift _
    · exact (restores_checkAlive hcall _ span).bind fun _ => restores_ask hcall _
  · split
    · exact keeps_pure _
    · exact keeps_lift _

theorem restores_equal (l r : Value) : Restores (equal p call l r) := by
  unfold equal Value.equals
  split
  · exact restores_ask hcall _
  · exact keeps_pure _

theorem restores_binary (span : Span) (op : BinaryOp) (l r : Value) :
    Restores (binary p call span op l r) := by
  unfold binary
  split
  · exact (restores_equal hcall l r).bind fun _ => keeps_pure _
  · exact (restores_equal hcall l r).bind fun _ => keeps_pure _
  · exact keeps_lift _

theorem restores_combine (old rhs : Value) (op : AssignOp) (span : Span) :
    Restores (combine p call old rhs op span) := by
  rw [combine]
  split
  · exact keeps_pure _
  · exact (restores_binary hcall span _ old rhs).bind fun _ => keeps_pure _

/-- Writing at a path, by induction on the path: what is inside a value is written first. -/
theorem restores_nextValue (rhs : Value) (op : AssignOp) (span : Span) (path : List Text) :
    ∀ base, Restores (nextValue p call rhs op span base path) := by
  induction path with
  | nil => exact fun base => restores_combine hcall base rhs op span
  | cons name rest ih =>
      intro base
      unfold nextValue
      split
      · split
        · exact keeps_lift _
        · refine (restores_checkAlive hcall _ span).bind fun _ => ?_
          refine (restores_ask hcall _).bind fun old => (ih old).bind fun next => ?_
          exact (restores_ask hcall _).bind fun _ => keeps_pure _
      · split
        · exact keeps_lift _
        · refine (ih _).bind fun next => ?_
          split
          · exact keeps_pure _
          · exact keeps_lift _

theorem levels_assign (span : Span) (target : AssignTarget) (op : AssignOp) (rhs : Value) :
    Levels (assign p call span target op rhs) := by
  have hnext : ∀ base path, Levels (nextValue p call rhs op span base path) :=
    fun base path => .of_restores (restores_nextValue hcall rhs op span path base)
  unfold assign
  split
  · exact keeps_lift _
  · exact (hnext _ _).bind fun _ => keeps_pure ()
  · next id path =>
      refine (keeps_seeing _).bind fun current => (hnext current _).bind fun next => ?_
      exact keeps_modify fun s => s.store_resembles id.name next

theorem restores_search (span : Span) (cause : FaultCause) (reply : HostReply σ (Option NodeRef)) :
    Restores (search p call span cause reply) := by
  refine (restores_checkAlive hcall p.self span).bind fun _ => ?_
  exact (restores_ask hcall reply).bind fun _ => keeps_lift _

end Asking

/-! ## The evaluator -/

/-- What the parts of the evaluator keep, at one amount of fuel. -/
structure KeepsAt (p : Reentrant σ) (fuel : Nat) : Prop where
  eval         : ∀ e, Restores (eval p fuel e)
  condition    : ∀ e, Restores (condition p fuel e)
  evalAll      : ∀ es, Restores (evalAll p fuel es)
  evalFields   : ∀ fields, Restores (evalFields p fuel fields)
  callBuiltin  : ∀ b span callee args, Restores (callBuiltin p fuel b span callee args)
  argumentText : ∀ span callee args, Restores (argumentText p fuel span callee args)
  call         : ∀ span name args, Restores (call p fuel span name args)
  exec         : ∀ st, Levels (exec p fuel st)
  execAll      : ∀ body, Levels (execAll p fuel body)
  execBlock    : ∀ b, Levels (execBlock p fuel b)
  execCond     : ∀ c, Levels (execCond p fuel c)
  execLoop     : ∀ test body, Levels (execLoop p fuel test body)

namespace KeepsAt

variable {p : Reentrant σ} {fuel : Nat}

theorem zero (p : Reentrant σ) : KeepsAt p 0 where
  eval _              := keeps_throw _
  condition _         := keeps_throw _
  evalAll _           := keeps_throw _
  evalFields _        := keeps_throw _
  callBuiltin _ _ _ _ := keeps_throw _
  argumentText _ _ _  := keeps_throw _
  call _ _ _          := keeps_throw _
  exec _              := keeps_throw _
  execAll _           := keeps_throw _
  execBlock _         := keeps_throw _
  execCond _          := keeps_throw _
  execLoop _ _        := keeps_throw _

variable (ih : KeepsAt p fuel)

include ih

theorem binary_succ (span : Span) (op : BinaryOp) (left right : Expr) :
    Restores (OnStack.eval p (fuel + 1) (.binary span op left right)) := by
  by_cases hop : op.IsLogic
  · rcases hop with rfl | rfl
    · refine (ih.condition left).bind fun b => ?_
      cases b with
      | true => exact (ih.condition right).bind fun b' => keeps_pure _
      | false => exact keeps_pure _
    · refine (ih.condition left).bind fun b => ?_
      cases b with
      | true => exact keeps_pure _
      | false => exact (ih.condition right).bind fun b' => keeps_pure _
  · rw [OnStack.eval]
    · refine (ih.eval left).bind fun l => (ih.eval right).bind fun r => ?_
      exact restores_binary (ih.call none) span op l r
    · exact fun h => hop (.inl h)
    · exact fun h => hop (.inr h)

theorem eval_succ (e : Expr) : Restores (OnStack.eval p (fuel + 1) e) := by
  cases e with
  | int _ n _ => exact keeps_pure _
  | float _ x _ => exact keeps_pure _
  | bool _ b => exact keeps_pure _
  | string _ t => exact keeps_pure _
  | ident id => exact keeps_seeing fun locals => Machine.lookup locals id
  | self _ => exact keeps_pure _
  | field span object name =>
      exact (ih.eval object).bind fun base => restores_readField (ih.call none) base span name
  | unary span op arg => exact (ih.eval arg).bind fun v => keeps_lift _
  | binary span op left right => exact ih.binary_succ span op left right
  | struct span name fields =>
      refine (ih.evalFields fields).bind fun values => ?_
      generalize ((Ty.ofText? name.name).bind fun t => Value.build? t values) = built
      cases built with
      | some v => exact keeps_pure v
      | none => exact keeps_lift _
  | call span callee args =>
      rw [OnStack.eval]
      cases Builtin.ofText? callee.name with
      | some builtin => exact ih.callBuiltin builtin span callee args
      | none => exact (ih.evalAll args).bind fun values => ih.call (some span) callee.name values

theorem condition_succ (e : Expr) : Restores (OnStack.condition p (fuel + 1) e) := by
  refine (ih.eval e).bind fun v => ?_
  cases v with
  | bool b => exact keeps_pure b
  | _ => exact keeps_lift _

theorem evalAll_succ (es : List Expr) : Restores (OnStack.evalAll p (fuel + 1) es) := by
  cases es with
  | nil => exact keeps_pure _
  | cons e es => exact (ih.eval e).bind fun v => (ih.evalAll es).bind fun vs => keeps_pure _

theorem evalFields_succ (fields : List (Ident × Expr)) :
    Restores (OnStack.evalFields p (fuel + 1) fields) := by
  cases fields with
  | nil => exact keeps_pure _
  | cons entry rest =>
      exact (ih.eval entry.2).bind fun v => (ih.evalFields rest).bind fun vs => keeps_pure _

theorem argumentText_succ (span : Span) (callee : Ident) (args : List Expr) :
    Restores (OnStack.argumentText p (fuel + 1) span callee args) := by
  cases args with
  | nil => exact keeps_lift (Eval.raise (.missingArgument callee.name) (some span))
  | cons arg rest => exact (ih.eval arg).bind fun v => keeps_lift _

theorem callBuiltin_succ (b : Builtin) (span : Span) (callee : Ident) (args : List Expr) :
    Restores (OnStack.callBuiltin p (fuel + 1) b span callee args) := by
  have hcall : ∀ name args, Restores (OnStack.call p fuel none name args) := ih.call none
  cases b with
  | print =>
      refine (ih.evalAll args).bind fun values => ?_
      exact (restores_ask hcall _).bind fun _ => keeps_pure _
  | emitSignal =>
      have hnameless : Restores
          (lift (Eval.raise .emitWithoutName (some span)) : OnStack σ Value) := keeps_lift _
      cases args with
      | nil => exact hnameless
      | cons first rest =>
          cases first with
          | string nameSpan name =>
              rw [OnStack.callBuiltin]
              cases p.signal? name with
              | none => exact keeps_lift _
              | some signal =>
                  refine (ih.evalAll rest).bind fun values => ?_
                  refine (restores_checkAlive hcall p.self span).bind fun _ => ?_
                  exact (restores_ask hcall _).bind fun _ => keeps_pure _
          | _ => exact hnameless
  | getParent => exact restores_search hcall span _ _
  | getNode =>
      refine (ih.argumentText span callee args).bind fun path => ?_
      exact restores_search hcall span _ _
  | hasNode =>
      refine (ih.argumentText span callee args).bind fun path => ?_
      refine (restores_checkAlive hcall p.self span).bind fun _ => ?_
      exact (restores_ask hcall _).bind fun _ => keeps_pure _
  | findChild =>
      refine (ih.argumentText span callee args).bind fun name => ?_
      exact restores_search hcall span _ _

theorem call_succ (span : Option Span) (name : Text) (args : List Value) :
    Restores (OnStack.call p (fuel + 1) span name args) := by
  rw [OnStack.call]
  cases p.script.function? name with
  | none => exact keeps_lift _
  | some f =>
      have hbody : Levels (OnStack.inFunction name do
          declareAll f.decl.params f.signature.params args
          OnStack.returning f (OnStack.execAll p fuel f.decl.body.body)) :=
        ((levels_declareAll f.decl.params f.signature.params args).bind fun _ =>
          (ih.execAll f.decl.body.body).returning f).inFunction name
      intro s
      show s.Resembles id (after (if p.attachment.maxDepth ≤ s.depth then _ else _) s)
      split
      · exact keeps_lift _ s
      · exact hbody.call s

theorem exec_succ (st : Stmt Ty) : Levels (OnStack.exec p (fuel + 1) st) := by
  have heval : ∀ e, Levels (OnStack.eval p fuel e) := fun e => .of_restores (ih.eval e)
  cases st with
  | block b => exact ih.execBlock b
  | bind _ name _ _ init type =>
      exact (heval init).bind fun v => keeps_modify fun s => s.declare_resembles name.name _
  | assign span target op value =>
      exact (heval value).bind fun rhs => levels_assign (ih.call none) span target op rhs
  | cond c => exact ih.execCond c
  | loop _ test body => exact ih.execLoop test body
  | ret _ e =>
      cases e with
      | none => exact keeps_throw _
      | some e => exact (heval e).bind fun v => keeps_throw _
  | eval _ e => exact (heval e).bind fun _ => keeps_pure ()

theorem execAll_succ (body : List (Stmt Ty)) : Levels (OnStack.execAll p (fuel + 1) body) := by
  cases body with
  | nil => exact keeps_pure ()
  | cons st rest => exact (ih.exec st).bind fun _ => ih.execAll rest

theorem execBlock_succ (b : Block Ty) : Levels (OnStack.execBlock p (fuel + 1) b) := by
  cases b with
  | mk _ body => exact (ih.execAll body).block

theorem execCond_succ (c : Cond Ty) : Levels (OnStack.execCond p (fuel + 1) c) := by
  cases c with
  | mk _ test consequent alternate =>
      refine Keeps.bind (.of_restores (ih.condition test)) fun taken => ?_
      cases taken with
      | true => exact ih.execBlock consequent
      | false =>
          cases alternate with
          | absent => exact keeps_pure ()
          | block b => exact ih.execBlock b
          | cond c => exact ih.execCond c

theorem execLoop_succ (test : Expr) (body : Block Ty) :
    Levels (OnStack.execLoop p (fuel + 1) test body) := by
  refine Keeps.bind (.of_restores (ih.condition test)) fun again => ?_
  cases again with
  | true => exact (ih.execBlock body).bind fun _ => ih.execLoop test body
  | false => exact keeps_pure ()

end KeepsAt

/-- The stack is kept, whatever the fuel. -/
theorem keepsAt (p : Reentrant σ) (fuel : Nat) : KeepsAt p fuel := by
  induction fuel with
  | zero => exact .zero p
  | succ fuel ih =>
      exact
        { eval         := ih.eval_succ
          condition    := ih.condition_succ
          evalAll      := ih.evalAll_succ
          evalFields   := ih.evalFields_succ
          callBuiltin  := ih.callBuiltin_succ
          argumentText := ih.argumentText_succ
          call         := ih.call_succ
          exec         := ih.exec_succ
          execAll      := ih.execAll_succ
          execBlock    := ih.execBlock_succ
          execCond     := ih.execCond_succ
          execLoop     := ih.execLoop_succ }

end OnStack

end SceneScript
