import SceneScript.Eval
import SceneScript.Analysis

/-!
# Instance — a script attached to a node

An instance owns the values of the globals of its script; the script itself is shared. Its
globals are initialized once, in declaration order, and then take the property values that the
host provides. Afterwards the host calls functions and callbacks and reads and writes
properties, and may replace the script, in which case the values of matching properties carry
over.

No operation fails: what goes wrong is part of its result.
-/

namespace SceneScript

/-- How an instance is attached and run. -/
structure Attachment where
  self     : NodeRef
  maxDepth : Int := 256
  logger   : Logger := .silent

/-- A running script: its globals have values. -/
structure Instance where
  script     : Script
  attachment : Attachment
  globals    : Bindings

/-- Why a property keeps its value. -/
inductive PropertyError where
  | unknownProperty
  | typeMismatch (expected found : Ty)
  | nonFinite
  | notListed (values : List Text)
deriving DecidableEq, Repr

namespace PropertyError

/-- The word for an error. -/
def word : PropertyError → String
  | .unknownProperty  => "UnknownProperty"
  | .typeMismatch _ _ => "TypeMismatch"
  | .nonFinite        => "NonFinite"
  | .notListed _      => "NotInEnum"

/-- The wording, for the property with a name. -/
def message (name : Text) : PropertyError → Text
  | .unknownProperty => "'" ++ name ++ "' is not an exported property"
  | .typeMismatch expected found => "'" ++ name ++ s!"' is {expected}, got {found}"
  | .nonFinite => "'" ++ name ++ "' only accepts finite numbers"
  | .notListed values => "'" ++ name ++ "' must be one of: " ++ Problem.commaList values

end PropertyError

/-- The exported property with a name. -/
def Script.property? (s : Script) (name : Text) : Option Property :=
  s.checked.properties.find? fun p => p.name == name

/-- The value that a property takes when it is given one: of its type, finite, one of its
    options and inside its range. -/
def Property.accept (p : Property) (v : Value) : Except PropertyError Value :=
  match v.coerce? p.type with
  | none   => .error (.typeMismatch p.type v.type)
  | some v =>
      if !v.isFinite then .error .nonFinite
      else
        match p.hint with
        | .options values => if isOption values v then .ok v else .error (.notListed values)
        | hint            => .ok (hint.clamp v)

/-- The outcome of an operation that runs code: its result, the state of the host after it and
    what was logged. -/
structure Ran (σ α : Type) where
  result : Except Halt α
  host   : σ
  log    : List LogEvent

namespace Instance

variable {σ : Type}

/-- The machine that runs an instance of a script. -/
def machine (host : Host σ) (script : Script) (a : Attachment) : Machine σ :=
  ⟨host, script.checked.functions, script.checked.signals, a.self, a.maxDepth⟩

/-- The functions that a halted computation was in. -/
def haltTrace : Halt → List Text
  | .fault f   => f.trace
  | .outOfFuel => []

/-- Code and wording of a halt in a log line. -/
def haltText : Halt → String
  | .fault f   => s!"{f.code} {f.message}"
  | .outOfFuel => "out of fuel"

/-! ## Properties -/

/-- The value of an exported property. -/
def getProperty (i : Instance) (name : Text) : Option Value :=
  (i.script.property? name).bind fun _ => i.globals.find? name

/-- All exported properties with their values. -/
def listProperties (i : Instance) : List (Property × Value) :=
  i.script.checked.properties.map fun p => (p, (i.globals.find? p.name).getD p.defaultValue)

/-- Writes an exported property. -/
def setProperty (i : Instance) (name : Text) (v : Value) : Except PropertyError Instance :=
  match i.script.property? name with
  | none   => .error .unknownProperty
  | some p =>
      match p.accept v with
      | .ok v    => .ok { i with globals := i.globals.set name v }
      | .error e => .error e

/-- Writes properties in order and logs those that are refused. -/
def setProperties (i : Instance) : List (Text × Value) → Instance × List LogEvent
  | []                => (i, [])
  | (name, v) :: rest =>
      match i.setProperty name v with
      | .ok i    => i.setProperties rest
      | .error e =>
          let text := s!"Ignoring host value for '{name}': {e.message name}"
          let (i', log) := i.setProperties rest
          (i', i.attachment.logger.say .warn text ++ log)

/-! ## Life -/

/-- The values of globals in declaration order; the first that cannot be computed ends it. -/
def seedGlobals (m : Machine σ) (fuel : Nat) :
    List GlobalInfo → World σ → Except (Text × Halt) Bindings × σ
  | [], w      => (.ok w.globals, w.host)
  | g :: gs, w =>
      match m.eval 0 [] fuel g.decl.init w with
      | .ok v w'    =>
          seedGlobals m fuel gs
            { w' with globals := w'.globals.set g.name (v.coerceOrKeep g.type) }
      | .error h w' => (.error (g.name, h), w'.host)

/-- A new instance of a script: its globals are initialized, then the given property values
    are applied. -/
def create (host : Host σ) (fuel : Nat) (script : Script) (a : Attachment)
    (properties : List (Text × Value)) (state : σ) : Ran σ Instance :=
  match seedGlobals (machine host script a) fuel script.checked.globals ⟨[], state⟩ with
  | (.error (name, h), state) =>
      ⟨.error h, state, a.logger.say .warn s!"Initializing '{name}' failed: {haltText h}"⟩
  | (.ok globals, state) =>
      let (i, log) := setProperties ⟨script, a, globals⟩ properties
      ⟨.ok i, state, log⟩

/-- The arguments of a call as values of the types of the parameters. -/
def bindArguments (function : Text) : List TypedName → List Value → Except FaultCause (List Value)
  | p :: ps, v :: vs =>
      match v.coerce? p.type with
      | none   => .error (.argumentType p.name function p.type v.type)
      | some v => (bindArguments function ps vs).map (v :: ·)
  | _, _ => .ok []

/-- Calls a function with arguments from outside. The arguments are checked first; a call that
    faults is logged and leaves the instance usable. -/
def invoke (host : Host σ) (fuel : Nat) (i : Instance) (name : Text) (args : List Value)
    (state : σ) : Instance × Ran σ Value :=
  let m := machine host i.script i.attachment
  let refuse (cause : FaultCause) : Instance × Ran σ Value :=
    (i, ⟨.error (.fault ⟨cause, none, []⟩), state, []⟩)
  match m.function? name with
  | none   => refuse (.unknownFunction name)
  | some f =>
      let params := f.signature.params
      if args.length ≠ params.length then
        refuse (.argumentCount name params.length args.length)
      else
        match bindArguments name params args with
        | .error cause => refuse cause
        | .ok bound    =>
            match m.call 0 fuel name bound none ⟨i.globals, state⟩ with
            | .ok v w    => ({ i with globals := w.globals }, ⟨.ok v, w.host, []⟩)
            | .error h w =>
                let payload := Json.obj [("trace", .array ((haltTrace h).map Json.string))]
                ({ i with globals := w.globals },
                 ⟨.error h, w.host, i.attachment.logger.emit .warn
                    (.text s!"{name}() failed: {haltText h}") (some payload)⟩)

/-- The function that handles a callback. -/
def handler? (i : Instance) (k : Lifecycle) : Option Text :=
  (i.script.checked.lifecycle.find? fun e => e.1 == k).map Prod.snd

/-- Whether the script handles a callback. -/
def handles (i : Instance) (k : Lifecycle) : Bool := (i.handler? k).isSome

/-- Runs a callback; a script without it yields nothing. -/
def invokeLifecycle (host : Host σ) (fuel : Nat) (i : Instance) (k : Lifecycle)
    (args : List Value) (state : σ) : Instance × Ran σ Value :=
  match i.handler? k with
  | some name => i.invoke host fuel name args state
  | none      => (i, ⟨.ok .void, state, []⟩)

/-- The property values that carry over to another script: those whose name and type it
    exports too. -/
def carriedOver (i : Instance) (script : Script) : List (Text × Value) :=
  i.script.checked.properties.filterMap fun p =>
    match script.property? p.name, i.globals.find? p.name with
    | some q, some v => if q.type = p.type then some (p.name, v) else none
    | _, _           => none

/-- An instance of another script in place of this one. -/
def reload (host : Host σ) (fuel : Nat) (i : Instance) (script : Script) (state : σ) :
    Ran σ Instance :=
  let kept := i.carriedOver script
  let dropped := (i.script.checked.properties.map Property.name).filter fun n =>
    !(kept.any fun e => e.1 == n)
  let word := if kept.length = 1 then "property" else "properties"
  let payload := Json.obj [("dropped", .array (dropped.map Json.string))]
  let log := i.attachment.logger.emit .debug
    (.text s!"Reloading script: kept {kept.length} {word}") (some payload)
  let ran := create host fuel script i.attachment kept state
  { ran with log := log ++ ran.log }

end Instance

end SceneScript
