import SceneScript.Json

/-!
# Merging JSON objects

Members of the second object win. Two objects under one key are merged in their turn; an array
is replaced as a whole, like every other value.

The key `__proto__` names no member unless the first object already has one of that name: what
it holds only stands behind the object, where a later key may find an object to merge with.
-/

namespace SceneScript

namespace Json

/-- The key whose value stands behind an object. -/
def backgroundKey : Text := "__proto__"

/-- An object under construction: its members, and what stands behind them. -/
structure Merged where
  members    : List (Text × Json)
  background : List (Text × Json) := []

namespace Merged

/-- The value that a key finds. -/
def find? (m : Merged) (key : Text) : Option Json :=
  match lookup key m.members with
  | some v => some v
  | none   => lookup key m.background

/-- With a member replaced or added. -/
def set (m : Merged) (key : Text) (value : Json) : Merged :=
  { m with members := insertMember key value m.members }

/-- Whether a key names what stands behind the object. -/
def isBackground (m : Merged) (key : Text) : Bool :=
  key == backgroundKey && (lookup key m.members).isNone

/-- Everything that a key can find, members first. -/
def visible (m : Merged) : List (Text × Json) := m.members ++ m.background

end Merged

/-- The items of an array under their indices. -/
def indexedMembers (items : List Json) : List (Text × Json) :=
  items.mapIdx fun i v => (Text.ofString (toString i), v)

mutual

/-- An object after the members of another, one after the other. -/
def mergeMembers (m : Merged) : List (Text × Json) → Merged
  | []               => m
  | (key, v) :: rest => mergeMembers (mergeMember m key v) rest

/-- An object after one member. -/
def mergeMember (m : Merged) (key : Text) : Json → Merged
  | .object ms =>
      if m.isBackground key then { m with background := (mergeMembers ⟨[], []⟩ ms).visible }
      else
        match m.find? key with
        | some (.object base) => m.set key (.object (mergeMembers ⟨base, []⟩ ms).members)
        | _                   => m.set key (.object ms)
  | .array items =>
      if m.isBackground key then { m with background := indexedMembers items }
      else m.set key (.array items)
  | .null => if m.isBackground key then { m with background := [] } else m.set key .null
  | v     => if m.isBackground key then m else m.set key v

end

/-- The members of two objects merged. -/
def merge (base override : List (Text × Json)) : List (Text × Json) :=
  (mergeMembers ⟨base, []⟩ override).members

end Json

end SceneScript
