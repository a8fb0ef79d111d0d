import SceneScript.Proofs.Run.Playing
import SceneScript.Proofs.Run.Printed
import SceneScript.Proofs.Session.Immutable
import SceneScript.Proofs.Typing.Callbacks

/-!
# The schedule of a run

A script that compiles gets an instance, and then the callbacks that it declares run in the order
of the schedule, until one halts. The runner calls functions by name and checks what it passes to
them, as for every call from outside; for callbacks of a script that compiles neither ever fails, so
that a run is nothing but calls on the machine, one after the other.

* **`runCallbacks_plays`** — the runner carries out its plan.
* **`RunOptions.Begins`** / **`RunOptions.FailsToBegin`** — what comes before the first callback.
* **`runSource_exact`** — exit codes, calls, the scene and the printed lines of every run.
-/

namespace SceneScript

/-! ## The runner and the machine -/

/-- The machine on which an instance runs. -/
def Instance.machineOn {σ : Type} (i : Instance) (host : Host σ) : Machine σ :=
  Instance.machine host i.script i.attachment

section

variable {σ : Type} {source : Text} {options : AnalysisOptions} {compiled : Compiled}
  {i : Instance} {delta : Value} {k : Lifecycle}

theorem Instance.handles_eq (h : compile source options = .ok compiled)
    (hi : i.script = compiled.script) (k : Lifecycle) :
    i.handles k = (parseSource source).program.handles k := by
  rw [handles, compile_handler? h hi]
  cases (parseSource source).program.handles k <;> rfl

/-- A callback that is handled runs; nothing is wrong with what it is passed. -/
theorem Instance.invokeLifecycle_eq (h : compile source options = .ok compiled)
    (hi : i.script = compiled.script) (hk : (parseSource source).program.handles k = true)
    (hne : k ≠ .input) (hdelta : delta.type = .f32) (host : Host σ) (fuel : Nat) (state : σ) :
    i.invokeLifecycle host fuel k (k.passes delta) state =
      i.concluded (Text.ofString k.functionName)
        ((i.machineOn host).perform fuel delta k ⟨i.globals, state⟩) := by
  have hhandler : i.handler? k = some (Text.ofString k.functionName) := by
    rw [compile_handler? h hi, if_pos hk]
  have hreceive : receive i.script (Text.ofString k.functionName) (k.passes delta) =
      .ok (k.passes delta) := by
    rw [hi]
    exact compile_receive h hk (Lifecycle.passes_type hne hdelta)
  simp only [invokeLifecycle, hhandler, invoke_eq, hreceive]
  rfl

/-- The runner carries out the callbacks of its plan that the script declares. -/
theorem runCallbacks_plays (h : compile source options = .ok compiled) (host : Host Scene)
    (fuel : Nat) {delta : Value} (hdelta : delta.type = .f32) (plan : List Lifecycle) :
    (∀ k ∈ plan, k ≠ .input) →
    ∀ s : RunState, s.inst.script = compiled.script →
      let done := runCallbacks host fuel (plan.map fun k => (k, k.passes delta)) s
      ∃ calls w,
        (s.inst.machineOn host).Plays fuel delta ⟨s.inst.globals, s.scene⟩
          (plan.filter (parseSource source).program.handles) calls done.2 w ∧
        done.1.calls.toList = s.calls.toList ++ calls ∧
        done.1.inst = { s.inst with globals := w.globals } ∧ done.1.scene = w.host := by
  induction plan with
  | nil => exact fun _ s _ => ⟨[], _, .whole (.nil _), (List.append_nil _).symm, rfl, rfl⟩
  | cons k rest ih =>
      intro hplan s hs
      have hrest := ih fun k hk => hplan k (List.mem_cons_of_mem _ hk)
      rw [List.map_cons]
      dsimp only
      rw [runCallbacks, Instance.handles_eq h hs]
      by_cases hk : (parseSource source).program.handles k = true
      · rw [if_pos hk, List.filter_cons_of_pos hk,
          Instance.invokeLifecycle_eq h hs hk (hplan k List.mem_cons_self) hdelta]
        cases hrun : (s.inst.machineOn host).perform fuel delta k ⟨s.inst.globals, s.scene⟩ with
        | ok v w =>
            obtain ⟨calls, w', hplays, hcalls, hinst, hscene⟩ :=
              hrest ⟨{ s.inst with globals := w.globals }, w.host, s.calls.push k,
                s.log ++ ([] : List LogEvent)⟩ hs
            refine ⟨k :: calls, w', .cons hrun hplays, ?_, hinst, hscene⟩
            refine hcalls.trans ?_
            rw [Array.toList_push, List.append_assoc]
            rfl
        | error stop w => exact ⟨[k], w, .halt hrun, Array.toList_push, rfl, rfl⟩
      · rw [if_neg hk, List.filter_cons_of_neg hk]
        exact hrest s hs

end

/-! ## Runs -/

namespace RunOptions

variable {σ : Type}

/-- The creation of the instance of a run. -/
def create (o : RunOptions) (host : Host σ) (fuel : Nat) (script : Script) (state : σ) :
    Ran σ Instance :=
  Instance.create host fuel script ⟨Scene.root, o.maxDepth, o.logger⟩ o.properties state

/-- The script compiles and has an instance, so its callbacks may run. -/
def Begins (o : RunOptions) (host : Host σ) (fuel : Nat) (source : Text) (state : σ)
    (i : Instance) : Prop :=
  ∃ compiled, compile source o.analysis = .ok compiled ∧
    (o.create host fuel compiled.script state).result = .ok i

/-- The script compiles, and the creation of its instance halts. -/
def FailsToBegin (o : RunOptions) (host : Host σ) (fuel : Nat) (source : Text) (state : σ)
    (h : Halt) : Prop :=
  ∃ compiled, compile source o.analysis = .ok compiled ∧
    (o.create host fuel compiled.script state).result = .error h

/-- The callbacks of a run: those of its frames that the script declares. -/
def planned (o : RunOptions) (source : Text) : List Lifecycle :=
  (Lifecycle.life o.frames.toNat).filter (parseSource source).program.handles

/-- What a run comes to, exactly.

    * Its exit code is 1 if the script does not compile, 0 if all planned callbacks run to their
      ends, and 2 if the creation of the instance or one of the callbacks faults. It is 3 if one of
      them runs out of fuel.
    * Without an instance there are no calls, and the scene is as it was.
    * With one the planned callbacks are carried out on the scene, which creation has left alone.
      On a host that notes what it is given to print, the same is carried out, and all that was
      noted is in the output. -/
structure Exact (o : RunOptions) (hook : Scene.Hook) (fuel : Nat) (source : Text) (scene : Scene)
    (run : RunResult) : Prop where
  notCompiled : run.ending.exitCode = 1 ↔ ∃ ds, compile source o.analysis = .error ds
  finished : run.ending.exitCode = 0 ↔
    ∃ i w, o.Begins (Scene.hostCalling hook) fuel source scene i ∧
      (i.machineOn (Scene.hostCalling hook)).Performs fuel (.ofFloat o.delta) ⟨i.globals, scene⟩
        (o.planned source) w
  faulted : run.ending.exitCode = 2 ↔
    (∃ f, o.FailsToBegin (Scene.hostCalling hook) fuel source scene (.fault f)) ∨
    ∃ i calls f w, o.Begins (Scene.hostCalling hook) fuel source scene i ∧
      (i.machineOn (Scene.hostCalling hook)).Plays fuel (.ofFloat o.delta) ⟨i.globals, scene⟩
        (o.planned source) calls (.faulted f) w
  outOfFuel : run.ending.exitCode = 3 ↔
    o.FailsToBegin (Scene.hostCalling hook) fuel source scene .outOfFuel ∨
    ∃ i calls w, o.Begins (Scene.hostCalling hook) fuel source scene i ∧
      (i.machineOn (Scene.hostCalling hook)).Plays fuel (.ofFloat o.delta) ⟨i.globals, scene⟩
        (o.planned source) calls .outOfFuel w
  failed : ∀ h, o.FailsToBegin (Scene.hostCalling hook) fuel source scene h →
    run.ending = .ofHalt h
  unchanged : (∀ i, ¬ o.Begins (Scene.hostCalling hook) fuel source scene i) →
    run.calls = [] ∧ run.inst = none ∧ run.scene = scene
  quiet : ∀ compiled, compile source o.analysis = .ok compiled →
    (o.create (Scene.hostCalling hook).noting fuel compiled.script (scene, [])).host = (scene, [])
  played : ∀ i, o.Begins (Scene.hostCalling hook) fuel source scene i → ∃ globals printed,
    run.inst = some { i with globals := globals } ∧
    (i.machineOn (Scene.hostCalling hook)).Plays fuel (.ofFloat o.delta) ⟨i.globals, scene⟩
      (o.planned source) run.calls run.ending ⟨globals, run.scene⟩ ∧
    (i.machineOn (Scene.hostCalling hook).noting).Plays fuel (.ofFloat o.delta)
      ⟨i.globals, (scene, [])⟩ (o.planned source) run.calls run.ending
      ⟨globals, (run.scene, printed)⟩ ∧
    (hook.KeepsOutput → ∃ new,
      run.scene.stdout.units = scene.stdout.units ++ Text.ended new ∧ printed.Sublist new) ∧
    (hook.IsSilent → run.scene.stdout.units = scene.stdout.units ++ Text.ended printed)

end RunOptions

section

variable {hook : Scene.Hook} {fuel : Nat} {source : Text} {o : RunOptions} {scene : Scene}

theorem runSource_of_error {ds : List Diagnostic} (h : compile source o.analysis = .error ds)
    (host : Host Scene) :
    runSource host fuel source o scene =
      ⟨.notCompiled, ds, [], none, scene,
        (analyze source o.analysis).log o.analysis o.logger⟩ := by
  have hcompiled : (analyze source o.analysis).compiled o.analysis.filename = .error ds := h
  rw [runSource]
  dsimp only
  rw [hcompiled]

/-- A creation leaves the scene of a run alone, and prints nothing. -/
theorem create_host {σ : Type} {host : Host σ} (hh : host.IsObserved) {compiled : Compiled}
    (h : compile source o.analysis = .ok compiled) (state : σ) :
    (o.create host fuel compiled.script state).host = state := by
  have haccepted : compiled.script.Accepted := ⟨source, o.analysis, compiled, h, rfl⟩
  exact (Instance.create_quiet haccepted.wellTyped hh fuel _ o.properties state).1

/-- What a run of a script that compiles does, by what its creation comes to. -/
theorem runSource_of_ok (hook : Scene.Hook) (fuel : Nat) {compiled : Compiled}
    (h : compile source o.analysis = .ok compiled) (scene : Scene) :
    let run := runSource (Scene.hostCalling hook) fuel source o scene
    match (o.create (Scene.hostCalling hook) fuel compiled.script scene).result with
    | .error h =>
        run.ending = .ofHalt h ∧ run.calls = [] ∧ run.inst = none ∧ run.scene = scene
    | .ok i =>
        let done := runCallbacks (Scene.hostCalling hook) fuel
          (schedule o.frames (.ofFloat o.delta)) { inst := i, scene := scene }
        run.ending = done.2 ∧ run.calls = done.1.calls.toList ∧ run.inst = some done.1.inst ∧
          run.scene = done.1.scene := by
  have hcompiled : (analyze source o.analysis).compiled o.analysis.filename = .ok compiled := h
  have hscene : (o.create (Scene.hostCalling hook) fuel compiled.script scene).host = scene :=
    create_host (Scene.hostCalling_isObserved hook) h scene
  rw [RunOptions.create] at hscene ⊢
  rw [runSource]
  dsimp only
  rw [hcompiled]
  dsimp only
  cases hresult : (Instance.create (Scene.hostCalling hook) fuel compiled.script
      ⟨Scene.root, o.maxDepth, o.logger⟩ o.properties scene).result with
  | error h => exact ⟨rfl, rfl, rfl, hscene⟩
  | ok i =>
      dsimp only
      rw [hscene]
      exact ⟨rfl, rfl, rfl, rfl⟩

theorem runSource_of_failsToBegin {h : Halt}
    (hfails : o.FailsToBegin (Scene.hostCalling hook) fuel source scene h) :
    let run := runSource (Scene.hostCalling hook) fuel source o scene
    run.ending = .ofHalt h ∧ run.calls = [] ∧ run.inst = none ∧ run.scene = scene := by
  obtain ⟨compiled, hcompile, hresult⟩ := hfails
  have hrun := runSource_of_ok hook fuel hcompile scene
  rwa [hresult] at hrun

theorem runSource_of_begins {i : Instance}
    (hbegins : o.Begins (Scene.hostCalling hook) fuel source scene i) :
    ∃ globals,
      let run := runSource (Scene.hostCalling hook) fuel source o scene
      run.inst = some { i with globals := globals } ∧
      (i.machineOn (Scene.hostCalling hook)).Plays fuel (.ofFloat o.delta) ⟨i.globals, scene⟩
        (o.planned source) run.calls run.ending ⟨globals, run.scene⟩ := by
  obtain ⟨compiled, hcompile, hresult⟩ := hbegins
  have hrun := runSource_of_ok hook fuel hcompile scene
  rw [hresult, schedule_eq] at hrun
  obtain ⟨hending, hcalls, hinst, hscene⟩ := hrun
  have hdelta : (Value.ofFloat o.delta).type = .f32 := rfl
  obtain ⟨calls, w, hplays, hcalls', hinst', hscene'⟩ := runCallbacks_plays hcompile
    (Scene.hostCalling hook) fuel hdelta (Lifecycle.life o.frames.toNat)
    (fun _ => Lifecycle.ne_input_of_mem_life) { inst := i, scene := scene }
    (Instance.create_script hresult)
  refine ⟨w.globals, ?_⟩
  dsimp only
  rw [hending, hcalls, hinst, hscene, hcalls', hinst', hscene']
  exact ⟨rfl, hplays⟩

/-- The notes of a run are in its output. -/
theorem runSource_printed {i : Instance}
    (hbegins : o.Begins (Scene.hostCalling hook) fuel source scene i) :
    ∃ globals printed,
      let run := runSource (Scene.hostCalling hook) fuel source o scene
      run.inst = some { i with globals := globals } ∧
      (i.machineOn (Scene.hostCalling hook)).Plays fuel (.ofFloat o.delta) ⟨i.globals, scene⟩
        (o.planned source) run.calls run.ending ⟨globals, run.scene⟩ ∧
      (i.machineOn (Scene.hostCalling hook).noting).Plays fuel (.ofFloat o.delta)
        ⟨i.globals, (scene, [])⟩ (o.planned source) run.calls run.ending
        ⟨globals, (run.scene, printed)⟩ ∧
      (hook.KeepsOutput → ∃ new,
        run.scene.stdout.units = scene.stdout.units ++ Text.ended new ∧ printed.Sublist new) ∧
      (hook.IsSilent → run.scene.stdout.units = scene.stdout.units ++ Text.ended printed) := by
  obtain ⟨globals, hinst, hplays⟩ := runSource_of_begins hbegins
  have hstart : Scene.Noted hook scene scene (scene, []) :=
    ⟨rfl, fun _ => ⟨[], (List.append_nil _).symm, .slnil⟩, fun _ => (List.append_nil _).symm⟩
  obtain ⟨⟨_, last, printed⟩, hnoting, rfl, hnoted⟩ :=
    hplays.beside (Scene.agrees_noting hook scene) (u := ⟨i.globals, (scene, [])⟩) ⟨rfl, hstart⟩
  obtain rfl : last = _ := hnoted.scene
  have hended : ∀ {new : List Text},
      (runSource (Scene.hostCalling hook) fuel source o scene).scene.output.toList =
        scene.output.toList ++ new →
      (runSource (Scene.hostCalling hook) fuel source o scene).scene.stdout.units =
        scene.stdout.units ++ Text.ended new := by
    intro new hnew
    show Text.ended _ = Text.ended scene.output.toList ++ _
    rw [hnew, Text.ended, Text.ended, Text.ended, List.flatMap_append]
  refine ⟨globals, printed, hinst, hplays, hnoting, fun hk => ?_, fun hk => ?_⟩
  · obtain ⟨new, hnew, hsub⟩ := hnoted.held hk
    exact ⟨new, hended hnew, hsub⟩
  · exact hended (hnoted.silent hk)

/-- A script does not compile, or its instance is not created, or callbacks may run. -/
theorem RunOptions.begins_cases {σ : Type} (o : RunOptions) (host : Host σ) (fuel : Nat)
    (source : Text) (state : σ) :
    (∃ ds, compile source o.analysis = .error ds) ∨
      (∃ h, o.FailsToBegin host fuel source state h) ∨ ∃ i, o.Begins host fuel source state i := by
  cases hc : compile source o.analysis with
  | error ds => exact .inl ⟨ds, rfl⟩
  | ok compiled =>
      cases hr : (o.create host fuel compiled.script state).result with
      | error h => exact .inr (.inl ⟨h, compiled, hc, hr⟩)
      | ok i => exact .inr (.inr ⟨i, compiled, hc, hr⟩)

/-- How a run may end. -/
inductive RunOptions.ComesTo (o : RunOptions) (host : Host Scene) (fuel : Nat) (source : Text)
    (scene : Scene) : RunEnd → Prop where
  | refused {ds : List Diagnostic} : compile source o.analysis = .error ds →
      ComesTo o host fuel source scene .notCompiled
  | failed {h : Halt} : o.FailsToBegin host fuel source scene h →
      ComesTo o host fuel source scene (.ofHalt h)
  | whole {i : Instance} {w : World Scene} : o.Begins host fuel source scene i →
      (i.machineOn host).Performs fuel (.ofFloat o.delta) ⟨i.globals, scene⟩ (o.planned source) w →
      ComesTo o host fuel source scene .finished
  | broken {i : Instance} {calls : List Lifecycle} {h : Halt} {w : World Scene} :
      o.Begins host fuel source scene i →
      (i.machineOn host).Plays fuel (.ofFloat o.delta) ⟨i.globals, scene⟩ (o.planned source)
        calls (.ofHalt h) w →
      ComesTo o host fuel source scene (.ofHalt h)

namespace RunOptions.ComesTo

variable {host : Host Scene} {e : RunEnd}

theorem refused_of_exitCode (h : o.ComesTo host fuel source scene e) (hcode : e.exitCode = 1) :
    ∃ ds, compile source o.analysis = .error ds := by
  cases h with
  | refused h => exact ⟨_, h⟩
  | failed h | broken _ h => cases ‹Halt› <;> cases hcode
  | whole => cases hcode

theorem whole_of_exitCode (h : o.ComesTo host fuel source scene e) (hcode : e.exitCode = 0) :
    ∃ i w, o.Begins host fuel source scene i ∧
      (i.machineOn host).Performs fuel (.ofFloat o.delta) ⟨i.globals, scene⟩ (o.planned source)
        w := by
  cases h with
  | whole hbegins h => exact ⟨_, _, hbegins, h⟩
  | failed h | broken _ h => cases ‹Halt› <;> cases hcode
  | refused => cases hcode

theorem faulted_of_exitCode (h : o.ComesTo host fuel source scene e) (hcode : e.exitCode = 2) :
    (∃ f, o.FailsToBegin host fuel source scene (.fault f)) ∨
      ∃ i calls f w, o.Begins host fuel source scene i ∧
        (i.machineOn host).Plays fuel (.ofFloat o.delta) ⟨i.globals, scene⟩ (o.planned source)
          calls (.faulted f) w := by
  cases h with
  | @failed h hfails =>
      cases h with
      | fault f => exact .inl ⟨f, hfails⟩
      | outOfFuel => cases hcode
  | @broken i calls h w hbegins hplays =>
      cases h with
      | fault f => exact .inr ⟨i, calls, f, w, hbegins, hplays⟩
      | outOfFuel => cases hcode
  | _ => cases hcode

theorem outOfFuel_of_exitCode (h : o.ComesTo host fuel source scene e) (hcode : e.exitCode = 3) :
    o.FailsToBegin host fuel source scene .outOfFuel ∨
      ∃ i calls w, o.Begins host fuel source scene i ∧
        (i.machineOn host).Plays fuel (.ofFloat o.delta) ⟨i.globals, scene⟩ (o.planned source)
          calls .outOfFuel w := by
  cases h with
  | @failed h hfails =>
      cases h with
      | fault f => cases hcode
      | outOfFuel => exact .inl hfails
  | @broken i calls h w hbegins hplays =>
      cases h with
      | fault f => cases hcode
      | outOfFuel => exact .inr ⟨i, calls, w, hbegins, hplays⟩
  | _ => cases hcode

end RunOptions.ComesTo

theorem comesTo_ending : o.ComesTo (Scene.hostCalling hook) fuel source scene
    (runSource (Scene.hostCalling hook) fuel source o scene).ending := by
  rcases o.begins_cases (Scene.hostCalling hook) fuel source scene with
    ⟨ds, h⟩ | ⟨h, hfails⟩ | ⟨i, hbegins⟩
  · rw [runSource_of_error h]
    exact .refused h
  · rw [(runSource_of_failsToBegin hfails).1]
    exact .failed hfails
  · obtain ⟨_, -, hplays⟩ := runSource_of_begins hbegins
    rcases hplays.ending_cases with ⟨hend, hwhole⟩ | ⟨h, hend⟩
    · rw [hend]
      exact .whole hbegins hwhole
    · rw [hend] at hplays ⊢
      exact .broken hbegins hplays

/-- There is one thing that a run can come to. -/
theorem ending_of_comesTo {e : RunEnd}
    (h : o.ComesTo (Scene.hostCalling hook) fuel source scene e) :
    (runSource (Scene.hostCalling hook) fuel source o scene).ending = e := by
  have hplan : ∀ {i calls e w}, o.Begins (Scene.hostCalling hook) fuel source scene i →
      (i.machineOn (Scene.hostCalling hook)).Plays fuel (.ofFloat o.delta) ⟨i.globals, scene⟩
        (o.planned source) calls e w →
      (runSource (Scene.hostCalling hook) fuel source o scene).ending = e := by
    intro i calls e w hbegins h
    obtain ⟨_, -, hplays⟩ := runSource_of_begins hbegins
    exact (h.unique hplays).2.1
  cases h with
  | refused h => rw [runSource_of_error h]
  | failed hfails => exact (runSource_of_failsToBegin hfails).1
  | whole hbegins hwhole => exact hplan hbegins (.whole hwhole)
  | broken hbegins hplays => exact hplan hbegins hplays

/-- **The schedule is exact**, for every source, scene and hook, all property values, every delta
    and every number of frames. -/
theorem runSource_exact (hook : Scene.Hook) (fuel : Nat) (source : Text) (o : RunOptions)
    (scene : Scene) :
    o.Exact hook fuel source scene (runSource (Scene.hostCalling hook) fuel source o scene) := by
  have hends : o.ComesTo (Scene.hostCalling hook) fuel source scene _ := comesTo_ending
  constructor
  case notCompiled =>
    refine ⟨hends.refused_of_exitCode, ?_⟩
    rintro ⟨ds, h⟩
    rw [ending_of_comesTo (.refused h)]
    rfl
  case finished =>
    refine ⟨hends.whole_of_exitCode, ?_⟩
    rintro ⟨i, w, hbegins, h⟩
    rw [ending_of_comesTo (.whole hbegins h)]
    rfl
  case faulted =>
    refine ⟨hends.faulted_of_exitCode, ?_⟩
    rintro (⟨f, hfails⟩ | ⟨i, calls, f, w, hbegins, hplays⟩)
    · rw [ending_of_comesTo (.failed hfails)]
      rfl
    · rw [ending_of_comesTo (.broken (h := .fault f) hbegins hplays)]
      rfl
  case outOfFuel =>
    refine ⟨hends.outOfFuel_of_exitCode, ?_⟩
    rintro (hfails | ⟨i, calls, w, hbegins, hplays⟩)
    · rw [ending_of_comesTo (.failed hfails)]
      rfl
    · rw [ending_of_comesTo (.broken (h := .outOfFuel) hbegins hplays)]
      rfl
  case failed => exact fun h hfails => (runSource_of_failsToBegin hfails).1
  case unchanged =>
    intro hnone
    rcases o.begins_cases (Scene.hostCalling hook) fuel source scene with
      ⟨ds, h⟩ | ⟨h, hfails⟩ | ⟨i, hbegins⟩
    · rw [runSource_of_error h]
      exact ⟨rfl, rfl, rfl⟩
    · exact (runSource_of_failsToBegin hfails).2
    · exact absurd hbegins (hnone i)
  case quiet =>
    exact fun compiled h => create_host (Scene.hostCalling_isObserved hook).noting h _
  case played => exact fun i hbegins => runSource_printed hbegins

/-- A script that counts down to a division by zero. -/
def countdownText : Text :=
  "let mut left: i32 = 1; fn _process(delta: f32) \x7b print(6 / left); left -= 1; \x7d " ++
  "fn tell() \x7b print(\"up\"); \x7d fn _ready() \x7b tell(); \x7d " ++
  "fn _exit_tree() \x7b print(\"gone\"); \x7d"

/-- The second of three frames ends it, so the node never leaves the tree. -/
theorem runSource_exact_countdown :
    let hook : Scene.Hook := fun _ => pure ()
    let o : RunOptions := { frames := 3 }
    let run := runSource (Scene.hostCalling hook) 30 countdownText o (Scene.ofRoot "root")
    (o.planned countdownText = [.ready, .process, .process, .process, .exitTree] ∧
      run.calls = [.ready, .process, .process] ∧ run.ending.exitCode = 2 ∧
      run.scene.stdout.units = Text.ended ["up", "6"]) ∧
      o.Exact hook 30 countdownText (Scene.ofRoot "root") run := by
  refine ⟨by decide +kernel, ?_⟩
  exact runSource_exact (fun _ => pure ()) 30 countdownText { frames := 3 } (Scene.ofRoot "root")

end

end SceneScript
