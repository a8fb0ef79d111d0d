import SceneScript.Ty

/-!
# Builtin — functions and callbacks that the language knows

Six built-in functions can be called from every script. Six callbacks are called by the engine
when a script defines a function of their name.
-/

namespace SceneScript

/-- The built-in functions. -/
inductive Builtin where
  | print | emitSignal | getNode | getParent | hasNode | findChild
deriving DecidableEq, Repr

namespace Builtin

/-- All built-in functions. -/
def all : List Builtin := [.print, .emitSignal, .getNode, .getParent, .hasNode, .findChild]

/-- The name of a built-in function. -/
def word : Builtin → String
  | .print      => "print"
  | .emitSignal => "emit_signal"
  | .getNode    => "get_node"
  | .getParent  => "get_parent"
  | .hasNode    => "has_node"
  | .findChild  => "find_child"

/-- The built-in function that a text names. -/
def ofText? (t : Text) : Option Builtin := all.find? fun b => Text.ofString b.word == t

/-- The parameters, or `none` where a rule of its own checks the arguments. -/
def params? : Builtin → Option (List TypedName)
  | .print      => none
  | .emitSignal => none
  | .getNode    => some [⟨"path", .string⟩]
  | .getParent  => some []
  | .hasNode    => some [⟨"path", .string⟩]
  | .findChild  => some [⟨"name", .string⟩]

/-- The type of a call. -/
def returns : Builtin → Ty
  | .print      => .void
  | .emitSignal => .void
  | .getNode    => .node
  | .getParent  => .node
  | .hasNode    => .bool
  | .findChild  => .node

/-- What a built-in function does. -/
def doc : Builtin → String
  | .print      => "Writes its arguments, separated by spaces, to the host output."
  | .emitSignal => "Emits a declared signal: `emit_signal(\"name\", args...)`."
  | .getNode    => "Looks up a node by path relative to `self`."
  | .getParent  => "Returns the parent of `self`."
  | .hasNode    => "True when a node exists at the given path relative to `self`."
  | .findChild  => "Searches the descendants of `self` for a node with the given name."

/-- The signature as a script would write it. -/
def signatureText (b : Builtin) : String :=
  let params :=
    match b.params? with
    | none    => "..."
    | some ps => TypedName.listText ps
  s!"fn {b.word}({params}) -> {b.returns}"

end Builtin

/-- The callbacks of a script. -/
inductive Lifecycle where
  | ready | process | physicsProcess | input | enterTree | exitTree
deriving DecidableEq, Repr

namespace Lifecycle

/-- All callbacks. -/
def all : List Lifecycle :=
  [.ready, .process, .physicsProcess, .input, .enterTree, .exitTree]

/-- The word for a callback. -/
def word : Lifecycle → String
  | .ready          => "ready"
  | .process        => "process"
  | .physicsProcess => "physics_process"
  | .input          => "input"
  | .enterTree      => "enter_tree"
  | .exitTree       => "exit_tree"

/-- The callback that a word names. -/
def ofWord? (w : String) : Option Lifecycle := all.find? fun k => k.word == w

/-- The name of the function that a callback calls. -/
def functionName : Lifecycle → String
  | .ready          => "_ready"
  | .process        => "_process"
  | .physicsProcess => "_physics_process"
  | .input          => "_input"
  | .enterTree      => "_enter_tree"
  | .exitTree       => "_exit_tree"

/-- The callback whose function has a name. -/
def ofFunction? (name : Text) : Option Lifecycle :=
  all.find? fun k => Text.ofString k.functionName == name

/-- What a callback passes to its function. -/
def params : Lifecycle → List TypedName
  | .process | .physicsProcess => [⟨"delta", .f32⟩]
  | .input                     => [⟨"event", .inputEvent⟩]
  | _                          => []

/-- When a callback happens. -/
def doc : Lifecycle → String
  | .ready          => "Called once when the node and its children are ready."
  | .process        => "Called every frame with the elapsed time in seconds."
  | .physicsProcess => "Called every physics tick with the fixed step in seconds."
  | .input          => "Called for each input event delivered to the node."
  | .enterTree      => "Called when the node enters the scene tree."
  | .exitTree       => "Called when the node is about to leave the scene tree."

/-- The signature that a script has to give the function. -/
def signatureText (k : Lifecycle) : String :=
  s!"fn {k.functionName}({TypedName.listText k.params})"

end Lifecycle

end SceneScript
