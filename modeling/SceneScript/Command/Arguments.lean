/-!
# Arguments — what a command line asks for

An argument that begins with two dashes is an option, one that begins with one dash is a group
of one-letter options, and every other argument is a word. After `--` everything is a word, and
a lone dash is one anywhere. The value of an option follows an equals sign or is the next
argument; a next argument that looks like an option is refused. Of two values for one option
the last counts.

* **`Arguments.parse`** — the arguments, or the first thing that is wrong with them.
-/

namespace SceneScript

/-- An option that takes a value. -/
inductive ValueOption where
  | frames | delta | family | logLevel
deriving DecidableEq, Repr

namespace ValueOption

/-- All options with a value. -/
def all : List ValueOption := [.frames, .delta, .family, .logLevel]

/-- The name after the dashes. -/
def word : ValueOption → String
  | .frames   => "frames"
  | .delta    => "delta"
  | .family   => "family"
  | .logLevel => "log-level"

/-- The option of a name. -/
def ofWord? (w : String) : Option ValueOption := all.find? fun o => o.word == w

end ValueOption

/-- An option that is set or not. -/
inductive Switch where
  | noLint | help
deriving DecidableEq, Repr

namespace Switch

/-- All switches. -/
def all : List Switch := [.noLint, .help]

/-- The name after the dashes. -/
def word : Switch → String
  | .noLint => "no-lint"
  | .help   => "help"

/-- The switch of a name. -/
def ofWord? (w : String) : Option Switch := all.find? fun o => o.word == w

/-- The switch of a letter. -/
def ofLetter? (c : Char) : Option Switch := if c = 'h' then some .help else none

end Switch

/-- What can be wrong with a command line. -/
inductive ArgumentError where
  | unknown (option : String)
  | missingValue (option : ValueOption)
  | ambiguousValue (option : ValueOption)
  | needlessValue (option : Switch)
deriving DecidableEq, Repr

/-- The wording. -/
def ArgumentError.message : ArgumentError → String
  | .unknown option        => s!"Unknown option '{option}'"
  | .missingValue option   => s!"Option '--{option.word} <value>' argument missing"
  | .ambiguousValue option => s!"Option '--{option.word}' argument is ambiguous"
  | .needlessValue option  => s!"Option '--{option.word}' does not take an argument"

/-- What a command line asks for. -/
structure Arguments where
  values   : List (ValueOption × String) := []
  switches : List Switch := []
  words    : List String := []
deriving DecidableEq, Repr

/-- The shape of an argument before `--`. -/
inductive ArgumentShape where
  | word
  | terminator
  | letters (cs : List Char)
  | option (name : String)
  | assignment (name value : String)
deriving DecidableEq, Repr

/-- The shape of an argument. The sign that divides a name from a value cannot be the first
    character of the name. -/
def ArgumentShape.ofArgument (arg : String) : ArgumentShape :=
  match arg.toList with
  | '-' :: '-' :: []       => .terminator
  | '-' :: '-' :: c :: cs  =>
      if cs.contains '=' then
        let name := (c :: cs).takeWhile (· ≠ '=')
        .assignment (String.ofList name) (String.ofList ((c :: cs).drop (name.length + 1)))
      else .option (String.ofList (c :: cs))
  | '-' :: c :: cs         => .letters (c :: cs)
  | _                      => .word

namespace Arguments

/-- The value of an option. -/
def value? (a : Arguments) (o : ValueOption) : Option String := a.values.lookup o

/-- Whether a switch is set. -/
def isSet (a : Arguments) (s : Switch) : Bool := a.switches.contains s

/-- With one more word. -/
def addWords (a : Arguments) (ws : List String) : Arguments := { a with words := a.words ++ ws }

/-- With one more value, which counts from now on. -/
def addValue (a : Arguments) (o : ValueOption) (v : String) : Arguments :=
  { a with values := (o, v) :: a.values }

/-- With a switch set. -/
def addSwitch (a : Arguments) (s : Switch) : Arguments := { a with switches := s :: a.switches }

/-- Whether a separate value looks like an option. -/
def looksLikeOption (v : String) : Bool := v.toList.head? == some '-' && 1 < v.length

/-- The letters of a group; a dash among them ends the options, and what follows it in the
    group becomes words. -/
def readLetters (a : Arguments) :
    List Char → Except ArgumentError (Arguments × Option (List String))
  | []      => .ok (a, none)
  | c :: cs =>
      if c = '-' then .ok (a, some (cs.map fun d => String.ofList ['-', d]))
      else
        match Switch.ofLetter? c with
        | some s => (a.addSwitch s).readLetters cs
        | none   => .error (.unknown (String.ofList ['-', c]))

/-- Arguments after those that are read already. -/
def read (a : Arguments) : List String → Except ArgumentError Arguments
  | []          => .ok a
  | arg :: rest =>
      match ArgumentShape.ofArgument arg with
      | .word       => (a.addWords [arg]).read rest
      | .terminator => .ok (a.addWords rest)
      | .letters cs => do
          match ← a.readLetters cs with
          | (a', none)    => a'.read rest
          | (a', some ws) => .ok (a'.addWords (ws ++ rest))
      | .option name =>
          match ValueOption.ofWord? name, Switch.ofWord? name with
          | some o, _    =>
              match rest with
              | []         => .error (.missingValue o)
              | v :: rest' =>
                  if looksLikeOption v then .error (.ambiguousValue o)
                  else (a.addValue o v).read rest'
          | none, some s => (a.addSwitch s).read rest
          | none, none   => .error (.unknown ("--" ++ name))
      | .assignment name v =>
          match ValueOption.ofWord? name, Switch.ofWord? name with
          | some o, _    => (a.addValue o v).read rest
          | none, some s => .error (.needlessValue s)
          | none, none   => .error (.unknown ("--" ++ name))

/-- What a command line asks for. -/
def parse (args : List String) : Except ArgumentError Arguments := ({} : Arguments).read args

end Arguments

end SceneScript
