import SceneScript.Host

/-!
# Scene — a tree of nodes that serves as host

Nodes are numbered from one in the order in which they are added, the root first. Freeing a
node kills it and everything below it; its number is never given out again. The scene records
what scripts print and the signals they emit.

A path names nodes by steps between slashes: `..` steps to the parent, `.` stays, any other
step goes to the first living child of that name. A path that begins with a slash starts at
the root, whose name is its first step; so does every path of a node that is not alive.
-/

namespace SceneScript

/-- A node of a scene. Parent and children are numbers of nodes. -/
structure SceneNode where
  name     : Text
  parent   : Option Nat
  children : List Nat := []
  position : Vec2 := .zero
  rotation : Binary64 := .zero
  scale    : Vec2 := ⟨.ofInt 1, .ofInt 1⟩
  alive    : Bool := true
deriving DecidableEq, Repr

/-- A new node as a scene takes it in: below a node, alive, without children, and with its numbers
    in single precision. -/
def SceneNode.placed (node : SceneNode) (parent : Nat) : SceneNode :=
  { name     := node.name
    parent   := some parent
    position := .single node.position.x node.position.y
    rotation := node.rotation.toSingle
    scale    := .single node.scale.x node.scale.y }

/-- A signal that was emitted. -/
structure Emission where
  source : NodeRef
  signal : Text
  args   : List Value
deriving DecidableEq, Repr

/-- A scene; the node with number `n` stands at index `n - 1`. -/
structure Scene where
  nodes   : List SceneNode
  output  : Array Text := #[]
  emitted : Array Emission := #[]

/-- Why an operation on a scene fails. -/
inductive SceneError where
  | deadParent (name : Text) (parent : NodeRef)
  | notAlive (ref : NodeRef)
  | wrongProperty (field : NodeField) (found : Value)
deriving DecidableEq, Repr

/-- The word for what a value is, as errors of a scene name it. -/
def Value.kindWord : Value → String
  | .int _             => "Int"
  | .float _           => "Float"
  | .bool _            => "Bool"
  | .string _          => "Str"
  | .vector2 _         => "Vector2"
  | .color _ _ _ _     => "Color"
  | .rect2 _ _         => "Rect2"
  | .transform2D _ _ _ => "Transform2D"
  | .node _            => "Node"
  | .inputEvent _ _    => "InputEvent"
  | .void              => "Void"

namespace SceneError

/-- What a node field holds. -/
def holds : NodeField → String
  | .position => "a Vector2"
  | .scale    => "a Vector2"
  | .rotation => "a number"
  | .name     => "a String"

/-- The wording. -/
def message : SceneError → Text
  | .deadParent name parent =>
      "Cannot add '" ++ name ++ "': parent " ++ parent.text ++ " is not alive"
  | .notAlive ref => "Node " ++ ref.text ++ " is not alive"
  | .wrongProperty f v => s!"Node.{f.word} expects {holds f}, got {v.kindWord}"

end SceneError

namespace Scene

/-- The scene with only a root. -/
def ofRoot (name : Text) : Scene := { nodes := [{ name := name, parent := none }] }

/-- The handle of the root. -/
def root : NodeRef := .numbered 1

/-- The node with a number. -/
def node? (s : Scene) (n : Nat) : Option SceneNode :=
  match n with
  | 0     => none
  | i + 1 => s.nodes[i]?

/-- The number that a handle stands for. -/
def numberOf? (s : Scene) : NodeRef → Option Nat
  | .numbered id => if 0 < id ∧ id ≤ s.nodes.length then some id.toNat else none
  | .named _     => none

/-- The number of the living node that a handle stands for. -/
def live? (s : Scene) (ref : NodeRef) : Option Nat :=
  (s.numberOf? ref).filter fun n => (s.node? n).any SceneNode.alive

/-- The living node with a number. -/
def liveNode? (s : Scene) (n : Nat) : Option SceneNode := (s.node? n).filter SceneNode.alive

/-- The scene with one node changed. -/
def update (s : Scene) (n : Nat) (f : SceneNode → SceneNode) : Scene :=
  { s with nodes := s.nodes.modify (n - 1) f }

/-! ## Editing -/

/-- Adds a node below another; the handle of the new node and the scene with it. -/
def add (s : Scene) (parent : NodeRef) (node : SceneNode) : Except SceneError (NodeRef × Scene) :=
  match s.live? parent with
  | none   => .error (.deadParent node.name parent)
  | some p =>
      let n := s.nodes.length + 1
      let grown := s.update p fun q => { q with children := q.children ++ [n] }
      .ok (.numbered n, { grown with nodes := grown.nodes ++ [node.placed p] })

/-- Whether node `n` is node `top` or below it. Parents have smaller numbers. -/
def isBelow (s : Scene) (top n : Nat) : Bool :=
  if n = top then true
  else
    match (s.node? n).bind SceneNode.parent with
    | some p => if p < n then isBelow s top p else false
    | none   => false

/-- The scene in which a node is taken from its parent. -/
def detach (s : Scene) (n : Nat) : Scene :=
  match (s.node? n).bind SceneNode.parent with
  | some p => s.update p fun q => { q with children := q.children.filter (· ≠ n) }
  | none   => s

/-- The scene in which nodes are dead. -/
def kill (s : Scene) (dead : Nat → Bool) : Scene :=
  { s with
    nodes := s.nodes.mapIdx fun i node =>
      if dead (i + 1) then { node with alive := false } else node }

/-- Kills a node and everything below it, and takes it from its parent. -/
def free (s : Scene) (ref : NodeRef) : Scene :=
  match s.live? ref with
  | none   => s
  | some n => (s.detach n).kill (s.isBelow n)

/-- The living node that a handle stands for, or an error. -/
def require (s : Scene) (ref : NodeRef) : Except SceneError (Nat × SceneNode) :=
  match s.live? ref with
  | none   => .error (.notAlive ref)
  | some n =>
      match s.node? n with
      | some node => .ok (n, node)
      | none      => .error (.notAlive ref)

/-- The position of a node. -/
def getPosition (s : Scene) (ref : NodeRef) : Except SceneError Vec2 :=
  (s.require ref).map fun e => e.2.position

/-- Moves a node to a position in single precision. -/
def setPosition (s : Scene) (ref : NodeRef) (position : Vec2) : Except SceneError Scene :=
  (s.require ref).map fun e =>
    s.update e.1 fun node => { node with position := .single position.x position.y }

/-- The name of a node, alive or not. -/
def nameOf (s : Scene) (ref : NodeRef) : Option Text :=
  ((s.numberOf? ref).bind s.node?).map SceneNode.name

/-- The printed lines, each ended by a line feed. -/
def stdout (s : Scene) : Text := ⟨s.output.toList.flatMap fun line => line.units ++ [lineFeed]⟩

/-! ## Properties -/

/-- The value of a field of a node. -/
def getProperty (s : Scene) (ref : NodeRef) (field : NodeField) : Except SceneError Value :=
  (s.require ref).map fun e =>
    match field with
    | .position => .vector2 e.2.position
    | .rotation => .ofFloat e.2.rotation
    | .scale    => .vector2 e.2.scale
    | .name     => .string e.2.name

/-- A node with a field changed, `none` when the value does not fit the field. -/
def setField? (node : SceneNode) (field : NodeField) (v : Value) : Option SceneNode :=
  match field with
  | .position => v.point?.map fun p => { node with position := p }
  | .scale    => v.point?.map fun p => { node with scale := p }
  | .rotation => v.number?.map fun x => { node with rotation := x.toSingle }
  | .name     =>
      match v with
      | .string t => some { node with name := t }
      | _         => none

/-- Changes a field of a node. -/
def setProperty (s : Scene) (ref : NodeRef) (field : NodeField) (v : Value) :
    Except SceneError Scene := do
  let (n, node) ← s.require ref
  match setField? node field v with
  | some changed => return s.update n fun _ => changed
  | none         => .error (.wrongProperty field v)

/-! ## Looking around -/

/-- The first living child of a node that has a name. -/
def childNamed? (s : Scene) (node : SceneNode) (name : Text) : Option Nat :=
  node.children.find? fun c => (s.liveNode? c).any fun child => child.name == name

/-- One step of a path. -/
def step (s : Scene) (n : Nat) (part : Text) : Option Nat :=
  if part = "." then some n
  else
    (s.node? n).bind fun node =>
      if part = ".." then node.parent.filter fun p => (s.liveNode? p).isSome
      else s.childNamed? node part

/-- The steps of a path, one after the other. -/
def follow (s : Scene) : Nat → List Text → Option Nat
  | n, []            => some n
  | n, part :: parts => (s.step n part).bind fun next => follow s next parts

/-- The node at a path from a node. -/
def getNode (s : Scene) (start : NodeRef) (path : Text) : Option NodeRef :=
  let parts := (path.splitOn '/').filter fun p => !p.isEmpty
  let begin := if path.startsWith "/" then none else s.live? start
  let reached :=
    match begin with
    | some n => s.follow n parts
    | none   =>
        match s.liveNode? 1, parts with
        | some top, first :: rest => if first = top.name then s.follow 1 rest else none
        | _, _                    => none
  reached.map fun n => .numbered n

/-- The parent of a node. -/
def getParent (s : Scene) (ref : NodeRef) : Option NodeRef := do
  let n ← s.live? ref
  let p ← (← s.node? n).parent
  let _ ← s.liveNode? p
  return .numbered p

/-- The first node of a name among nodes and, level by level, below them. -/
def findLevel (s : Scene) (name : Text) : Nat → List Nat → Option Nat
  | 0, _            => none
  | levels + 1, ids =>
      let living := ids.filterMap fun n => (s.liveNode? n).map fun node => (n, node)
      match living.find? fun e => e.2.name == name with
      | some e => some e.1
      | none   =>
          if living.isEmpty then none
          else findLevel s name levels (living.flatMap fun e => e.2.children)

/-- The nearest node below a node that has a name. -/
def findChild (s : Scene) (start : NodeRef) (name : Text) : Option NodeRef := do
  let n ← s.live? start
  let node ← s.node? n
  (s.findLevel name s.nodes.length node.children).map fun n => .numbered n

/-! ## As a host -/

/-- An operation of a scene as an operation of a host. -/
def query {α : Type} (f : Scene → Except SceneError α) : HostCall Scene α := fun s =>
  match f s with
  | .ok a    => .ok a s
  | .error e => .error e.message s

/-- A change of a scene as an operation of a host. -/
def change (f : Scene → Except SceneError Scene) : HostCall Scene Unit := fun s =>
  match f s with
  | .ok s'   => .ok () s'
  | .error e => .error e.message s

/-- The scene with one more printed line. -/
def print (s : Scene) (line : Text) : Scene := { s with output := s.output.push line }

/-- The scene with one more emitted signal. -/
def emit (s : Scene) (e : Emission) : Scene := { s with emitted := s.emitted.push e }

/-- A scene as the host of scripts. -/
def host : Host Scene where
  print line := modify fun s => s.print line
  isAlive ref := do return ((← get).live? ref).isSome
  sameNode a b := return a == b
  getProperty ref field := query fun s => s.getProperty ref field
  setProperty ref field v := change fun s => s.setProperty ref field v
  getNode ref path := do return (← get).getNode ref path
  getParent ref := do return (← get).getParent ref
  findChild ref name := do return (← get).findChild ref name
  emit ref signal args := modify fun s => s.emit ⟨ref, signal, args⟩

end Scene

end SceneScript
