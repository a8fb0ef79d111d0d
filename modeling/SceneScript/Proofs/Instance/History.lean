import SceneScript.Proofs.Stack.Mirror

/-!
# One call after another

An instance lives long, and everything that it does runs on one stack. What an operation leaves
there the next one would find: a frame that was not popped would show its variables to functions
that never saw them, and a call that was not counted down would take from the depth that is left.
Nothing is left there, however an operation ended and however often the host came back in the
middle of it. So a call from outside depends on the script, the globals, the host and its arguments
alone.

* **`OnStack.invoke`** — a call from outside, on the stack that is there.
* **`Operation`** / **`Operation.step`** — what happens to an instance, on its stack.
* **`Operation.step_restores`** — every operation gives the stack back as it was.
* **`call_restores_stack`** — calls, and calls after any history.
-/

namespace SceneScript

variable {σ : Type}

/-! ## Calls from outside -/

/-- A call from outside: what is left of the stack, and what `Instance.invoke` tells about it. -/
def OnStack.invoke (p : Reentrant σ) (fuel : Nat) (name : Text) (args : List Value) (s : Stack σ) :
    Stack σ × Instance × Ran σ Value :=
  let i : Instance := ⟨p.script, p.attachment, s.world.globals⟩
  match Instance.receive p.script name args with
  | .error cause => (s, i, ⟨.error (.fault ⟨cause, none, []⟩), s.world.host, []⟩)
  | .ok bound    =>
      match call p fuel none name bound s with
      | .ok v s'    => (s', i.concluded name (.ok v s'.world))
      | .error e s' => (s', i.concluded name (.error e.outcome s'.world))

/-- A call from outside gives the stack back. -/
theorem OnStack.invoke_restores (p : Reentrant σ) (fuel : Nat) (name : Text) (args : List Value)
    (s : Stack σ) : s.Resembles id (invoke p fuel name args s).1 := by
  rw [invoke]
  cases Instance.receive p.script name args with
  | error cause => exact ⟨rfl, rfl⟩
  | ok bound =>
      have hcall := (keepsAt p fuel).call none name bound s
      rw [after] at hcall
      dsimp only
      generalize call p fuel none name bound s = r at hcall
      cases r with
      | ok v s' => exact hcall
      | error e s' => exact hcall

/-- Where no call is open, a call from outside is an ordinary one. -/
theorem OnStack.invoke_eq (host : Host σ) (script : Script) (a : Attachment) (fuel : Nat)
    (name : Text) (args : List Value) (s : Stack σ) (hs : s.depth = 0) :
    (invoke (.ofHost host script a) fuel name args s).2 =
      (⟨script, a, s.world.globals⟩ : Instance).invoke host fuel name args s.world.host := by
  rw [Instance.invoke_eq, invoke]
  have hscript : (Reentrant.ofHost host script a).script = script := rfl
  rw [hscript]
  dsimp only
  cases Instance.receive script name args with
  | error cause => rfl
  | ok bound =>
      have hcall : call (.ofHost host script a) fuel none name bound s =
          lift ((Instance.machine host script a).call s.depth fuel name bound none) s :=
        (mirrorsAt host script a fuel).call none name bound s s.world
      dsimp only
      rw [hcall, lift, hs]
      cases (Instance.machine host script a).call 0 fuel name bound none s.world with
      | ok v w => rfl
      | error h w => rfl

/-! ## Histories -/

/-- What happens to an instance: a global gets its first value, a function is called, a property
    is set; and the host changes in between. -/
inductive Operation (σ : Type) where
  | seed (fuel : Nat) (g : GlobalInfo)
  | invoke (fuel : Nat) (name : Text) (args : List Value)
  | setProperty (name : Text) (v : Value)
  | elsewhere (f : σ → σ)

namespace Operation

variable (p : Reentrant σ)

/-- The stack after an operation; one that fails keeps what it did before. -/
def step (s : Stack σ) : Operation σ → Stack σ
  | .seed fuel g =>
      match OnStack.eval p fuel g.decl.init s with
      | .ok v s'    =>
          { s' with world.globals := s'.world.globals.set g.name (v.coerceOrKeep g.type) }
      | .error _ s' => s'
  | .invoke fuel name args => (OnStack.invoke p fuel name args s).1
  | .setProperty name v    => OnStack.after (OnStack.setProperty p name v) s
  | .elsewhere f           => { s with world.host := f s.world.host }

/-- An operation gives the stack back as it was, however it ends. -/
theorem step_restores (s : Stack σ) (op : Operation σ) : s.Resembles id (step p s op) := by
  cases op with
  | seed fuel g =>
      have heval := (OnStack.keepsAt p fuel).eval g.decl.init s
      rw [OnStack.after] at heval
      rw [step]
      generalize OnStack.eval p fuel g.decl.init s = r at heval
      cases r with
      | ok v s' => exact heval
      | error e s' => exact heval
  | invoke fuel name args => exact OnStack.invoke_restores p fuel name args s
  | setProperty name v => exact OnStack.restores_setProperty p name v s
  | elsewhere f => exact ⟨rfl, rfl⟩

/-- So does a whole history. -/
theorem run_restores (history : List (Operation σ)) :
    ∀ s : Stack σ, s.Resembles id (history.foldl (step p) s) := by
  induction history with
  | nil => exact fun s => ⟨rfl, rfl⟩
  | cons op rest ih => exact fun s => (step_restores p s op).trans (ih (step p s op))

end Operation

/-- Calls give the stack back, whatever the script and whatever the host, which may fail and may
    come back to the script while it answers. Behind a call on any stack, whether it gave a value,
    met a fault or met a failure of the host, the open calls and the frames with all their
    variables are those of before. So after any history no call is open and no frame is left, and
    a call from outside is what it would be with nothing before it: the globals and the host are
    all that it finds. On a host that does not come back, a call is what `Machine.call` makes of it
    at the depth of the stack, and a call from outside is what `Instance.invoke` makes of the
    globals and the host. -/
theorem call_restores_stack (script : Script) (a : Attachment) :
    (∀ (host : HostIn (HostReply σ)) fuel span name args (s : Stack σ),
      let s' := OnStack.after (OnStack.call ⟨host, script, a⟩ fuel span name args) s
      s'.depth = s.depth ∧ s'.frames = s.frames) ∧
    (∀ (host : HostIn (HostReply σ)) (history : List (Operation σ)) (w : World σ),
      let p : Reentrant σ := ⟨host, script, a⟩
      let s := history.foldl (Operation.step p) ⟨0, [], w⟩
      s.depth = 0 ∧ s.frames = [] ∧
      ∀ fuel name args, OnStack.invoke p fuel name args s =
        OnStack.invoke p fuel name args ⟨0, [], s.world⟩) ∧
    ∀ host : Host σ,
      let p : Reentrant σ := .ofHost host script a
      (∀ fuel span name args (s : Stack σ), OnStack.call p fuel span name args s =
        OnStack.lift ((Instance.machine host script a).call s.depth fuel name args span) s) ∧
      ∀ (history : List (Operation σ)) (w : World σ) fuel name args,
        let s := history.foldl (Operation.step p) ⟨0, [], w⟩
        (OnStack.invoke p fuel name args s).2 =
          (⟨script, a, s.world.globals⟩ : Instance).invoke host fuel name args s.world.host := by
  refine ⟨?_, ?_, ?_⟩
  · intro host fuel span name args s
    exact (OnStack.keepsAt ⟨host, script, a⟩ fuel).call span name args s
  · intro host history w p s
    obtain ⟨hdepth, hframes⟩ := Operation.run_restores p history ⟨0, [], w⟩
    have hempty : s = ⟨0, [], s.world⟩ := Stack.ext hdepth hframes rfl
    exact ⟨hdepth, hframes, fun fuel name args => congrArg _ hempty⟩
  · intro host p
    constructor
    · intro fuel span name args s
      exact (OnStack.mirrorsAt host script a fuel).call span name args s s.world
    · intro history w fuel name args s
      obtain ⟨hdepth, _⟩ := Operation.run_restores p history ⟨0, [], w⟩
      exact OnStack.invoke_eq host script a fuel name args s hdepth

/-- A host that calls `count` whenever something is printed. -/
def counting : HostIn (HostReply Unit) where
  print _           := .invoke "count" [] fun _ => .answer ()
  isAlive _         := .answer true
  sameNode a b      := .answer (a = b)
  getProperty _ _   := .fail "no such node"
  setProperty _ _ _ := .fail "no such node"
  getNode _ _       := .answer none
  getParent _       := .answer none
  findChild _ _     := .answer none
  emit _ _ _        := .answer ()

/-- A script that prints while it has a variable, and then counts on with it. -/
def printing : Script :=
  ⟨none, checkProgram (parseSource
    "let mut n = 0; fn count() \x7b let a = 1; n = a; \x7d
     fn f() \x7b let a = 4; print(a); n = n + a; \x7d").program⟩

example :
    let s : Stack Unit := ⟨0, [], ⟨[("n", .int 0)], ()⟩⟩
    let (s', _) := OnStack.invoke ⟨counting, printing, ⟨.numbered 1, 256, .silent⟩⟩ 12 "f" [] s
    s'.depth = 0 ∧ s'.frames = [] ∧ s'.world.globals.find? "n" = some (.int 5) := by
  decide +kernel

end SceneScript
