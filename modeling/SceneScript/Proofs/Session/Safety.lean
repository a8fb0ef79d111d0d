import SceneScript.Proofs.Instance.Typed
import SceneScript.Proofs.Session.Scenes
import SceneScript.Proofs.Typing.Accepted

/-!
# Type safety of whole sessions

A session is one scene with the instances that were attached to its nodes. A program that
embeds scripts drives it by actions: it edits the scene, creates and reloads instances of
scripts that compile, calls their functions and callbacks, and writes their properties, in any
order. Every action that runs code has fuel of its own.

* **`Session.step`** / **`Session.run`** — one action, and a list of them.
* **`Session.step_sound`** — what one action does to a session with typed instances.
* **`Session.run_typed`** — every session that can be reached has typed instances.
* **`Session.fault_of_run`**, **`Session.types_of_run`** — type safety and type preservation.
-/

namespace SceneScript

/-- A script that compiles. -/
abbrev AcceptedScript := { script : Script // script.Accepted }

/-- The script of a text, if it compiles. -/
def AcceptedScript.ofText? (source : Text) : Option AcceptedScript :=
  match h : compile source {} with
  | .ok compiled => some ⟨compiled.script, source, {}, compiled, h, rfl⟩
  | .error _     => none

/-- A scene and the instances in it. -/
structure Session where
  scene     : Scene
  instances : List Instance

/-- What may be done to a session; instances go by the order in which they came. -/
inductive Action where
  | edit (e : SceneEdit)
  | create (fuel : Nat) (script : AcceptedScript) (a : Attachment) (properties : List (Text × Value))
  | reload (fuel : Nat) (k : Nat) (script : AcceptedScript)
  | invoke (fuel : Nat) (k : Nat) (name : Text) (args : List Value)
  | lifecycle (fuel : Nat) (k : Nat) (callback : Lifecycle) (args : List Value)
  | setProperty (k : Nat) (name : Text) (v : Value)

/-- The answer to an action. -/
inductive Reply where
  | done
  | absent
  | value (v : Value)
  | halted (h : Halt)
  | refused (e : PropertyError)
deriving DecidableEq

/-- The answer tells of no code that ran. -/
def Reply.IsQuiet : Reply → Prop
  | .value _  => False
  | .halted _ => False
  | _         => True

namespace Session

/-- The session after an instance was made, if it was. -/
def attach (s : Session) (ran : Ran Scene Instance) : Session × Reply :=
  match ran.result with
  | .ok i    => (⟨ran.host, s.instances ++ [i]⟩, .done)
  | .error h => (⟨ran.host, s.instances⟩, .halted h)

/-- The session after a call of its instance `k`. -/
def conclude (s : Session) (k : Nat) (called : Instance × Ran Scene Value) : Session × Reply :=
  (⟨called.2.host, s.instances.set k called.1⟩,
    match called.2.result with
    | .ok v    => .value v
    | .error h => .halted h)

/-- One action. -/
def step (onPrint : PrintHook) (s : Session) : Action → Session × Reply
  | .edit e => (⟨s.scene.edit e, s.instances⟩, .done)
  | .create fuel script a properties =>
      s.attach (Instance.create (Scene.hostWith onPrint) fuel script.1 a properties s.scene)
  | .reload fuel k script =>
      match s.instances[k]? with
      | some i => s.attach (i.reload (Scene.hostWith onPrint) fuel script.1 s.scene)
      | none   => (s, .absent)
  | .invoke fuel k name args =>
      match s.instances[k]? with
      | some i => s.conclude k (i.invoke (Scene.hostWith onPrint) fuel name args s.scene)
      | none   => (s, .absent)
  | .lifecycle fuel k callback args =>
      match s.instances[k]? with
      | some i =>
          s.conclude k (i.invokeLifecycle (Scene.hostWith onPrint) fuel callback args s.scene)
      | none => (s, .absent)
  | .setProperty k name v =>
      match s.instances[k]? with
      | some i =>
          match i.setProperty name v with
          | .ok i'   => (⟨s.scene, s.instances.set k i'⟩, .done)
          | .error e => (s, .refused e)
      | none => (s, .absent)

/-- The session after a list of actions. -/
def run (onPrint : PrintHook) (s : Session) (actions : List Action) : Session :=
  actions.foldl (fun s a => (s.step onPrint a).1) s

/-- The function that an action calls, of which instance and with which arguments. -/
def call? (s : Session) : Action → Option (Instance × Text × List Value)
  | .invoke _ k name args          => s.instances[k]?.map fun i => (i, name, args)
  | .lifecycle _ k callback args =>
      s.instances[k]?.bind fun i => (i.handler? callback).map fun name => (i, name, args)
  | _ => none

/-- The script of which an action runs code. -/
def script? (s : Session) : Action → Option Script
  | .create _ script _ _ => some script.1
  | .reload _ _ script   => some script.1
  | a                    => (s.call? a).map fun c => c.1.script

/-- Every instance has typed globals. -/
def Typed (s : Session) : Prop := ∀ i ∈ s.instances, i.Typed

/-- What an action may lead to. -/
structure Sound (s : Session) (a : Action) (s' : Session) (reply : Reply) : Prop where
  typed   : s'.Typed
  emitted : ∃ new, s'.scene.emitted.toList = s.scene.emitted.toList ++ new ∧
    ∀ e ∈ new, ∃ script, s.script? a = some script ∧ e.Declared script.checked.signals
  value   : ∀ v, reply = .value v → ∀ i name args, s.call? a = some (i, name, args) →
    ∃ f, i.script.function? name = some f ∧ v.type = f.signature.returns
  halted  : ∀ f, reply = .halted (.fault f) → f.kind.IsOrdinary ∨
    ∃ i name args, s.call? a = some (i, name, args) ∧ i.Refuses name args f.cause ∧ s' = s

variable {s : Session}

/-! ## One action -/

/-- Where nothing was emitted there is no emission to account for. -/
theorem nothing_emitted {s' : Session} (a : Action) (he : s'.scene.emitted = s.scene.emitted) :
    ∃ new, s'.scene.emitted.toList = s.scene.emitted.toList ++ new ∧
      ∀ e ∈ new, ∃ script, s.script? a = some script ∧ e.Declared script.checked.signals :=
  ⟨[], by rw [he, List.append_nil], fun _ h => absurd h List.not_mem_nil⟩

/-- An action that runs no code. -/
theorem sound_of_quiet {a : Action} {s' : Session} {reply : Reply} (ht : s'.Typed)
    (he : s'.scene.emitted = s.scene.emitted) (hq : reply.IsQuiet) : s.Sound a s' reply where
  typed   := ht
  emitted := nothing_emitted a he
  value _ h := by
    rw [h] at hq
    exact hq.elim
  halted _ h := by
    rw [h] at hq
    exact hq.elim

/-- An action that makes an instance. -/
theorem sound_of_attach (h : s.Typed) {a : Action} {script : Script} {ran : Ran Scene Instance}
    (hscript : s.script? a = some script)
    (hR : (Scene.emitting script.checked.signals).rel s.scene ran.host)
    (hran : match ran.result with
      | .ok i    => i.Typed
      | .error h => h.IsOrdinary) :
    s.Sound a (s.attach ran).1 (s.attach ran).2 := by
  obtain ⟨new, hnew, hdecl⟩ := hR
  rw [attach]
  cases hres : ran.result with
  | ok i =>
      rw [hres] at hran
      refine ⟨fun j hj => ?_, ⟨new, hnew, fun e he => ⟨script, hscript, hdecl e he⟩⟩,
        fun _ hv => Reply.noConfusion hv, fun _ hf => Reply.noConfusion hf⟩
      rcases List.mem_append.mp hj with hj | hj
      · exact h j hj
      · rw [List.mem_singleton.mp hj]
        exact hran
  | error e =>
      rw [hres] at hran
      refine ⟨h, ⟨new, hnew, fun e he => ⟨script, hscript, hdecl e he⟩⟩,
        fun _ hv => Reply.noConfusion hv, ?_⟩
      intro f hf
      cases hf
      exact .inl hran

/-- A changed instance takes its place. -/
theorem Typed.set (h : s.Typed) {k : Nat} {i : Instance} (hi : i.Typed) (scene : Scene) :
    Typed ⟨scene, s.instances.set k i⟩ := by
  intro j hj
  rcases List.mem_or_eq_of_mem_set hj with hj | rfl
  · exact h j hj
  · exact hi

/-- An action that calls a function. -/
theorem sound_of_invoke (h : s.Typed) (onPrint : PrintHook) {a : Action} {fuel k : Nat}
    {i : Instance} {name : Text} {args : List Value} (hk : s.instances[k]? = some i)
    (hcall : s.call? a = some (i, name, args)) (hscript : s.script? a = some i.script) :
    s.Sound a (s.conclude k (i.invoke (Scene.hostWith onPrint) fuel name args s.scene)).1
      (s.conclude k (i.invoke (Scene.hostWith onPrint) fuel name args s.scene)).2 := by
  have hi : i.Typed := h i (List.mem_of_getElem? hk)
  rcases Instance.invoke_sound hi (Scene.hostWith_keeps onPrint _) fuel name args s.scene with
    ⟨cause, hrefuse, hx⟩ | ⟨f, i', ran, hf, hx, hi', -, hR, hran⟩
  -- A call that is turned away puts the instance back as it was.
  · have hsame : s.instances.set k i = s.instances := by
      obtain ⟨hlt, rfl⟩ := List.getElem?_eq_some_iff.mp hk
      exact List.set_getElem_self hlt
    rw [hx, conclude, hsame]
    refine ⟨h, nothing_emitted a rfl, fun _ hv => Reply.noConfusion hv, ?_⟩
    intro f hf
    cases hf
    exact .inr ⟨i, name, args, hcall, hrefuse, rfl⟩
  -- Code ran: its instance takes its place, and its emissions are those of its script.
  · obtain ⟨new, hnew, hdecl⟩ := hR
    rw [hx, conclude]
    refine ⟨h.set hi' ran.host, ⟨new, hnew, fun e he => ⟨i.script, hscript, hdecl e he⟩⟩, ?_, ?_⟩
    · intro v hv j n as hj
      cases hcall.symm.trans hj
      refine ⟨f, hf, ?_⟩
      cases hres : ran.result with
      | ok u =>
          simp only [hres] at hv hran
          cases hv
          exact hran
      | error e => simp [hres] at hv
    · intro x hx
      cases hres : ran.result with
      | ok u => simp [hres] at hx
      | error e =>
          simp only [hres] at hx hran
          cases hx
          exact .inl hran

/-- What one action does to a session with typed instances. -/
theorem step_sound (onPrint : PrintHook) (h : s.Typed) (a : Action) :
    s.Sound a (s.step onPrint a).1 (s.step onPrint a).2 := by
  cases a with
  | edit e => exact sound_of_quiet h (s.scene.edit_emitted e) trivial
  | create fuel script a properties =>
      obtain ⟨hR, hran⟩ := Instance.create_sound script.2.wellTyped
        (Scene.hostWith_keeps onPrint _) fuel a properties s.scene
      exact sound_of_attach h rfl hR hran
  | reload fuel k script =>
      rw [step]
      cases hk : s.instances[k]? with
      | none => exact sound_of_quiet h rfl trivial
      | some i =>
          obtain ⟨hR, hran⟩ := Instance.reload_sound script.2.wellTyped
            (Scene.hostWith_keeps onPrint _) fuel i s.scene
          exact sound_of_attach h rfl hR hran
  | invoke fuel k name args =>
      rw [step]
      cases hk : s.instances[k]? with
      | none => exact sound_of_quiet h rfl trivial
      | some i =>
          exact sound_of_invoke h onPrint hk (by simp [call?, hk]) (by simp [script?, call?, hk])
  | lifecycle fuel k callback args =>
      rw [step]
      cases hk : s.instances[k]? with
      | none => exact sound_of_quiet h rfl trivial
      | some i =>
          have hi : i.Typed := h i (List.mem_of_getElem? hk)
          -- A callback that the script does not define is answered without a call.
          cases hn : i.handler? callback with
          | some name =>
              simp only [Instance.invokeLifecycle, hn]
              exact sound_of_invoke h onPrint hk (by simp [call?, hk, hn])
                (by simp [script?, call?, hk, hn])
          | none =>
              simp only [Instance.invokeLifecycle, hn]
              refine ⟨h.set hi s.scene, nothing_emitted _ rfl, ?_,
                fun _ hf => Reply.noConfusion hf⟩
              intro v _ j name args hj
              simp [call?, hk, hn] at hj
  | setProperty k name v =>
      rw [step]
      cases hk : s.instances[k]? with
      | none => exact sound_of_quiet h rfl trivial
      | some i =>
          dsimp only
          cases hset : i.setProperty name v with
          | error e => exact sound_of_quiet h rfl trivial
          | ok i' =>
              have hi' : i'.Typed := (h i (List.mem_of_getElem? hk)).setProperty hset
              exact sound_of_quiet (h.set hi' s.scene) rfl trivial

/-! ## Whole runs -/

/-- Typed instances stay typed, whatever is done. -/
theorem Typed.run (onPrint : PrintHook) (actions : List Action) :
    ∀ {s : Session}, s.Typed → (s.run onPrint actions).Typed := by
  induction actions with
  | nil => exact fun h => h
  | cons a rest ih => exact fun h => ih (step_sound onPrint h a).typed

/-- Every session that begins without instances has typed instances. -/
theorem run_typed (onPrint : PrintHook) (scene : Scene) (history : List Action) :
    (run onPrint ⟨scene, []⟩ history).Typed :=
  Typed.run onPrint history fun _ hi => absurd hi List.not_mem_nil

/-- Type safety. Whatever was done before, a fault is no internal one. It is a division by zero,
    the use of a dead node, a node that is not found or a call that is too deep; or it is the
    answer to a call from outside that names no function or whose arguments do not fit, and then
    nothing happened. -/
theorem fault_of_run (onPrint : PrintHook) (scene : Scene) (history : List Action)
    (next : Action) (f : Fault)
    (h : ((run onPrint ⟨scene, []⟩ history).step onPrint next).2 = .halted (.fault f)) :
    f.kind ≠ .internal ∧
      (f.kind = .divisionByZero ∨ f.kind = .invalidReference ∨ f.kind = .stackOverflow ∨
        f.kind = .nodeNotFound ∨
        ((f.kind = .unknownFunction ∨ f.kind = .argumentMismatch) ∧
          ∃ i name args,
            (run onPrint ⟨scene, []⟩ history).call? next = some (i, name, args) ∧
            i.Refuses name args f.cause ∧
            ((run onPrint ⟨scene, []⟩ history).step onPrint next).1 =
              run onPrint ⟨scene, []⟩ history)) := by
  have hsound := step_sound onPrint (run_typed onPrint scene history) next
  -- The kinds exclude each other, so either list rules the internal one out.
  rcases hsound.halted f h with hk | ⟨i, name, args, hcall, hrefuse, hsame⟩
  · rcases hk with hk | hk | hk | hk <;> simp [hk]
  · have hk : f.kind = .unknownFunction ∨ f.kind = .argumentMismatch := hrefuse.kind
    refine ⟨?_, .inr (.inr (.inr (.inr ⟨hk, i, name, args, hcall, hrefuse, hsame⟩)))⟩
    rcases hk with hk | hk <;> simp [hk]

/-- A script that divides by zero. -/
def dividing : AcceptedScript :=
  (AcceptedScript.ofText? "fn f() -> i32 { return 1 / 0; }").get (by decide +kernel)

theorem fault_of_run_division :
    ∃ f : Fault,
      ((run (fun _ _ => []) ⟨Scene.ofRoot "root", []⟩
        [.create 9 dividing ⟨Scene.root, 256, .silent⟩ []]).step (fun _ _ => [])
          (.invoke 9 0 "f" [])).2 = .halted (.fault f) ∧
      f.kind ≠ .internal := by
  have hreply : ((run (fun _ _ => []) ⟨Scene.ofRoot "root", []⟩
      [.create 9 dividing ⟨Scene.root, 256, .silent⟩ []]).step (fun _ _ => [])
        (.invoke 9 0 "f" [])).2 =
      .halted (.fault ⟨.divisionByZero, some ⟨⟨23, 0, 23⟩, ⟨28, 0, 28⟩⟩, ["f"]⟩) := by
    decide +kernel
  exact ⟨_, hreply, (fault_of_run (fun _ _ => []) (Scene.ofRoot "root")
    [.create 9 dividing ⟨Scene.root, 256, .silent⟩ []] (.invoke 9 0 "f" []) _ hreply).1⟩

/-- Type preservation. After every run each global of each instance has a value of exactly its
    recorded type. Whatever comes next, a call that gives a value gives one of exactly the
    declared type of the function, and what is emitted are signals that the running script
    declares, with arguments of exactly their types. -/
theorem types_of_run (onPrint : PrintHook) (scene : Scene) (history : List Action) :
    (∀ i ∈ (run onPrint ⟨scene, []⟩ history).instances, ∀ g ∈ i.script.checked.globals,
      ∃ v, i.globals.find? g.name = some v ∧ v.type = g.type) ∧
    ∀ next : Action,
      (∀ i name args v, (run onPrint ⟨scene, []⟩ history).call? next = some (i, name, args) →
        ((run onPrint ⟨scene, []⟩ history).step onPrint next).2 = .value v →
        ∃ f, i.script.function? name = some f ∧ v.type = f.signature.returns) ∧
      ∃ new,
        ((run onPrint ⟨scene, []⟩ history).step onPrint next).1.scene.emitted.toList =
          (run onPrint ⟨scene, []⟩ history).scene.emitted.toList ++ new ∧
        ∀ e ∈ new, ∃ script, (run onPrint ⟨scene, []⟩ history).script? next = some script ∧
          ∃ signal ∈ script.checked.signals, e.signal = signal.name ∧
            e.args.length = signal.params.length ∧
            e.args.map Value.type = signal.params.map TypedName.type := by
  have htyped := run_typed onPrint scene history
  refine ⟨fun i hi g hg => (htyped i hi).global hg, fun next => ?_⟩
  have hsound := step_sound onPrint htyped next
  refine ⟨fun i name args v hcall hv => hsound.value v hv i name args hcall, ?_⟩
  obtain ⟨new, hnew, hdecl⟩ := hsound.emitted
  refine ⟨new, hnew, fun e he => ?_⟩
  obtain ⟨script, hscript, signal, hsignal, hname, htypes⟩ := hdecl e he
  refine ⟨script, hscript, signal, hsignal, hname, ?_, htypes⟩
  simpa using congrArg List.length htypes

/-- An instance of a script that widens integers. -/
def widening : List Action :=
  [.create 9 ((AcceptedScript.ofText? "let x: f32 = 1; fn f(n: f32) -> f32 { return 4; }").get
    (by decide +kernel)) ⟨Scene.root, 256, .silent⟩ []]

theorem types_of_run_widening :
    ∃ i ∈ (run (fun _ _ => []) ⟨Scene.ofRoot "root", []⟩ widening).instances,
      (∃ g ∈ i.script.checked.globals, ∃ v, i.globals.find? g.name = some v ∧ v.type = g.type) ∧
      ∃ v f, ((run (fun _ _ => []) ⟨Scene.ofRoot "root", []⟩ widening).step (fun _ _ => [])
          (.invoke 9 0 "f" [.int 5])).2 = .value v ∧
        i.script.function? "f" = some f ∧ v.type = f.signature.returns := by
  obtain ⟨hglobals, hnext⟩ := types_of_run (fun _ _ => []) (Scene.ofRoot "root") widening
  obtain ⟨g, hg⟩ : ∃ g, ((run (fun _ _ => []) ⟨Scene.ofRoot "root", []⟩ widening).instances[0]?.bind
      fun i => i.script.checked.globals[0]?) = some g :=
    Option.isSome_iff_exists.mp (by decide +kernel)
  obtain ⟨i, hi, hg⟩ := Option.bind_eq_some_iff.mp hg
  have hmem := List.mem_of_getElem? hi
  have hgmem := List.mem_of_getElem? hg
  refine ⟨i, hmem, ⟨g, hgmem, hglobals i hmem g hgmem⟩, .ofFloat (.ofInt 4), ?_⟩
  have hreply : ((run (fun _ _ => []) ⟨Scene.ofRoot "root", []⟩ widening).step (fun _ _ => [])
      (.invoke 9 0 "f" [.int 5])).2 = .value (.ofFloat (.ofInt 4)) := by decide +kernel
  obtain ⟨f, hf, hv⟩ := (hnext (.invoke 9 0 "f" [.int 5])).1 i "f" [.int 5] _
    (by rw [call?, hi]; rfl) hreply
  exact ⟨f, hreply, hf, hv⟩

end Session

end SceneScript
