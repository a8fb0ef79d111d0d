import SceneScript.Fault
import SceneScript.Typing

/-!
# Host — what a script needs from its engine

Handles of nodes are opaque: the host decides what they mean, when two are equal and when one
is dead. A host is a record of operations. One without an equality of its own compares handles.

An operation of a `Host` works on a state `σ`. It may fail with a message, and what it did to the
state before that stays done. It is a function of that state alone, so these are the hosts whose
operations do not come back to the script that calls them: one that invokes a function of an
instance, or writes a property of it, while code of that instance runs changes globals that no
`HostCall` can reach. `HostIn` leaves open what an operation is, and so has room for such hosts.
-/

namespace SceneScript

/-- The fields of a node that a host keeps. -/
inductive NodeField where
  | position | rotation | scale | name
deriving DecidableEq, Repr

namespace NodeField

/-- The node field that a text spells. -/
def ofText? (t : Text) : Option NodeField :=
  match Field.ofText? t with
  | some .position => some .position
  | some .rotation => some .rotation
  | some .scale    => some .scale
  | some .name     => some .name
  | _              => none

/-- The spelling of a node field. -/
def word : NodeField → String
  | .position => "position"
  | .rotation => "rotation"
  | .scale    => "scale"
  | .name     => "name"

end NodeField

/-- The operations of a host, as computations in `m`. -/
structure HostIn (m : Type → Type) where
  print       : Text → m Unit
  isAlive     : NodeRef → m Bool
  sameNode    : NodeRef → NodeRef → m Bool
  getProperty : NodeRef → NodeField → m Value
  setProperty : NodeRef → NodeField → Value → m Unit
  getNode     : NodeRef → Text → m (Option NodeRef)
  getParent   : NodeRef → m (Option NodeRef)
  findChild   : NodeRef → Text → m (Option NodeRef)
  emit        : NodeRef → Text → List Value → m Unit

/-- An operation of a host on its state. -/
abbrev HostCall (σ α : Type) := EStateM Text σ α

/-- A host whose operations concern its own state only. -/
abbrev Host (σ : Type) := HostIn (HostCall σ)

end SceneScript
