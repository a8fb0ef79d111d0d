import SceneScript.Instance
import SceneScript.Scene

/-!
# Run — a script from its text to its last callback

The script is compiled and attached to the root of a scene. Then its callbacks run: it enters
the tree and gets ready, every frame processes once and then processes physics, and it leaves
the tree. Callbacks that it does not handle are left out, and the first fault ends the run.
-/

namespace SceneScript

/-- How a script is run. -/
structure RunOptions where
  analysis   : AnalysisOptions := {}
  frames     : Int := 1
  delta      : Binary64 := .ofRatio false 1 60
  properties : List (Text × Value) := []
  maxDepth   : Int := 256
  logger     : Logger := .silent

/-- How a run ends. -/
inductive RunEnd where
  | finished
  | notCompiled
  | faulted (f : Fault)
  | outOfFuel
deriving DecidableEq, Repr

namespace RunEnd

/-- The end that a halt makes. -/
def ofHalt : Halt → RunEnd
  | .fault f   => .faulted f
  | .outOfFuel => .outOfFuel

/-- The exit code of a run. The last one stands for a run that more fuel would carry on. -/
def exitCode : RunEnd → Nat
  | .finished    => 0
  | .notCompiled => 1
  | .faulted _   => 2
  | .outOfFuel   => 3

/-- The fault that ended a run. -/
def fault? : RunEnd → Option Fault
  | .faulted f => some f
  | _          => none

end RunEnd

/-- What a run leaves. -/
structure RunResult where
  ending      : RunEnd
  diagnostics : List Diagnostic
  calls       : List Lifecycle
  inst        : Option Instance
  scene       : Scene
  log         : List LogEvent

/-- The callbacks of a run with their arguments. -/
def schedule (frames : Int) (delta : Value) : List (Lifecycle × List Value) :=
  [(.enterTree, []), (.ready, [])] ++
    (List.replicate frames.toNat [(.process, [delta]), (.physicsProcess, [delta])]).flatten ++
    [(.exitTree, [])]

/-- The state between two callbacks. -/
structure RunState where
  inst  : Instance
  scene : Scene
  calls : Array Lifecycle := #[]
  log   : Array LogEvent := #[]

/-- Runs callbacks in order until one faults. -/
def runCallbacks (host : Host Scene) (fuel : Nat) :
    List (Lifecycle × List Value) → RunState → RunState × RunEnd
  | [], s                => (s, .finished)
  | (k, args) :: rest, s =>
      if s.inst.handles k then
        let (inst, ran) := s.inst.invokeLifecycle host fuel k args s.scene
        let s' : RunState := ⟨inst, ran.host, s.calls.push k, s.log ++ ran.log⟩
        match ran.result with
        | .ok _    => runCallbacks host fuel rest s'
        | .error h => (s', .ofHalt h)
      else runCallbacks host fuel rest s

/-- The diagnostic that a fault adds to those of the script. -/
def endDiagnostics (ending : RunEnd) : List Diagnostic := ending.fault?.toList.map Fault.diagnostic

/-- The log line of a run that came to an end by a fault. -/
def haltLog (logger : Logger) (h : Halt) : List LogEvent :=
  match h with
  | .fault f   => logger.say .warn s!"Runtime fault {f.code}: {f.message}"
  | .outOfFuel => []

/-- The log line at the end of the callbacks. -/
def endLog (logger : Logger) (ending : RunEnd) (calls : Nat) (frames : Int) : List LogEvent :=
  match ending with
  | .faulted f => haltLog logger (.fault f)
  | .finished  =>
      let word := if frames = 1 then "frame" else "frames"
      logger.say .debug s!"Ran {calls} callbacks over {frames} {word}"
  | _ => []

/-- Runs a script in a scene. -/
def runSource (host : Host Scene) (fuel : Nat) (source : Text) (o : RunOptions) (scene : Scene) :
    RunResult :=
  let logger := o.logger.child "run"
  let analysis := analyze source o.analysis
  let compileLog := analysis.log o.analysis o.logger
  match analysis.compiled o.analysis.filename with
  | .error ds => ⟨.notCompiled, ds, [], none, scene, compileLog⟩
  | .ok compiled =>
      let attachment : Attachment := ⟨Scene.root, o.maxDepth, o.logger⟩
      let created := Instance.create host fuel compiled.script attachment o.properties scene
      match created.result with
      | .error h =>
          ⟨.ofHalt h, compiled.warnings ++ endDiagnostics (.ofHalt h), [], none, created.host,
           compileLog ++ created.log ++ haltLog logger h⟩
      | .ok inst =>
          let (s, ending) := runCallbacks host fuel
            (schedule o.frames (.ofFloat o.delta)) { inst := inst, scene := created.host }
          ⟨ending, compiled.warnings ++ endDiagnostics ending, s.calls.toList, some s.inst,
           s.scene, compileLog ++ created.log ++ s.log.toList ++
             endLog logger ending s.calls.size o.frames⟩

end SceneScript
