import SceneScript.Json

/-!
# Log — what the library says about its own work

A logger has a name, a level and settings; a message that passes the level becomes an event.
Events are data: only the outer layer, which has a clock, turns them into lines. Functions of
the library that log return their events beside their results.

* **`Logger.emit`** — the event of a message, or nothing below the level.
* **`Logger.begin`** / **`Logger.finish`** — the two events around a timed piece of work.
* **`LogEvent.line`** — the line of an event at a time.
-/

namespace SceneScript

/-- How much is logged, and how important a message is. -/
inductive LogLevel where
  | silent | error | warn | info | debug | trace
deriving DecidableEq, Repr

namespace LogLevel

/-- All levels, from the quietest. -/
def all : List LogLevel := [.silent, .error, .warn, .info, .debug, .trace]

/-- The word for a level. -/
def word : LogLevel → String
  | .silent => "silent"
  | .error  => "error"
  | .warn   => "warn"
  | .info   => "info"
  | .debug  => "debug"
  | .trace  => "trace"

/-- The tag of a level in a line. -/
def tag : LogLevel → String
  | .silent => "SILENT"
  | .error  => "ERROR"
  | .warn   => "WARN"
  | .info   => "INFO"
  | .debug  => "DEBUG"
  | .trace  => "TRACE"

/-- The level that a word names. -/
def ofWord? (w : String) : Option LogLevel := all.find? fun l => l.word == w

/-- The place of a level, from the quietest. -/
def rank : LogLevel → Nat
  | .silent => 0
  | .error  => 1
  | .warn   => 2
  | .info   => 3
  | .debug  => 4
  | .trace  => 5

/-- The channel that shows messages of a level. Errors, warnings and information have channels
    of their own; everything else goes where debug messages go. -/
def channel : LogLevel → String
  | .error => "error"
  | .warn  => "warn"
  | .info  => "info"
  | _      => "debug"

end LogLevel

/-- What is logged: a text, or that a piece of work took some time. -/
inductive LogMessage where
  | text (s : String)
  | took (label : String)
deriving DecidableEq, Repr

/-- A message that passed the level of its logger. -/
structure LogEvent where
  level   : LogLevel
  source  : String
  stamped : Bool
  message : LogMessage
  payload : Option Json

/-- The line of an event, given the texts of the time and of the time elapsed in
    milliseconds. -/
def LogEvent.line (e : LogEvent) (now elapsed : String) : String :=
  let stamp := if e.stamped then now ++ " " else ""
  let message :=
    match e.message with
    | .text s     => s
    | .took label => s!"{label} took {elapsed}ms"
  let payload :=
    match e.payload with
    | some j => " " ++ j.render
    | none   => ""
  s!"{stamp}[{e.source}] {e.level.tag}: {message}{payload}"

/-- A source of log events. -/
structure Logger where
  name        : String := "glint"
  level       : LogLevel := .info
  stamped     : Bool := true
  withPayload : Bool := true
deriving DecidableEq, Repr

namespace Logger

/-- A logger that drops everything. -/
def silent : Logger := { level := .silent }

/-- A logger with the same settings for a part of the work. -/
def child (l : Logger) (part : String) : Logger := { l with name := s!"{l.name}:{part}" }

/-- The event of a message, if the level lets it pass. -/
def emit (l : Logger) (level : LogLevel) (message : LogMessage) (payload : Option Json) :
    List LogEvent :=
  if l.level.rank < level.rank then []
  else [⟨level, l.name, l.stamped, message, if l.withPayload then payload else none⟩]

/-- A text at a level. -/
def say (l : Logger) (level : LogLevel) (text : String) : List LogEvent :=
  l.emit level (.text text) none

/-- The event that begins a timed piece of work. -/
def begin (l : Logger) (label : String) : List LogEvent := l.say .trace s!"start {label}"

/-- The event that ends a timed piece of work. -/
def finish (l : Logger) (label : String) (payload : Option Json) : List LogEvent :=
  l.emit .debug (.took label) payload

/-- The events around a timed piece of work that logs nothing else. -/
def timed (l : Logger) (label : String) : List LogEvent := l.begin label ++ l.finish label none

end Logger

/-- A logger that remembers what it was asked to say only once. -/
structure Journal where
  logger : Logger
  said   : List String := []

/-- Says a message unless one with the same key was said before. -/
def Journal.once (j : Journal) (level : LogLevel) (key : String) (message : LogMessage)
    (payload : Option Json) : Journal × List LogEvent :=
  if key ∈ j.said then (j, [])
  else ({ j with said := key :: j.said }, j.logger.emit level message payload)

end SceneScript
