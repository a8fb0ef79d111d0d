import SceneScript.Text

/-!
# Ty — the types of the language

The set of types is closed. Four of them are structs with a fixed field table; nodes and input
events have fields too. `unknown` is the type of an expression in which an error has already
been found: it goes with everything, so that one mistake is reported once.

* **`Ty.fields`** — the field table of a type, in declaration order.
* **`Ty.assignable`** — where a value may be used: an `i32` may stand for an `f32`.
* **`Ty.comparable`** — what `==` and `!=` accept.
-/

namespace SceneScript

/-- The names of all fields. -/
inductive Field where
  | x | y | r | g | b | a
  | position | size | rotation | scale | name
  | action | pressed
deriving DecidableEq, Repr

namespace Field

/-- All fields. -/
def all : List Field :=
  [.x, .y, .r, .g, .b, .a, .position, .size, .rotation, .scale, .name, .action, .pressed]

/-- The spelling of a field. -/
def word : Field → String
  | .x        => "x"
  | .y        => "y"
  | .r        => "r"
  | .g        => "g"
  | .b        => "b"
  | .a        => "a"
  | .position => "position"
  | .size     => "size"
  | .rotation => "rotation"
  | .scale    => "scale"
  | .name     => "name"
  | .action   => "action"
  | .pressed  => "pressed"

/-- The field that a text spells. -/
def ofText? (t : Text) : Option Field := all.find? fun f => Text.ofString f.word == t

end Field

/-- The types of the language. -/
inductive Ty where
  | i32 | f32 | bool | string | void
  | vector2 | color | rect2 | transform2D
  | node | inputEvent
  | unknown
deriving DecidableEq, Repr, Inhabited

namespace Ty

/-- All types. -/
def all : List Ty :=
  [.i32, .f32, .bool, .string, .void, .vector2, .color, .rect2, .transform2D, .node,
   .inputEvent, .unknown]

/-- The spelling of a type. -/
def word : Ty → String
  | .i32         => "i32"
  | .f32         => "f32"
  | .bool        => "bool"
  | .string      => "String"
  | .void        => "void"
  | .vector2     => "Vector2"
  | .color       => "Color"
  | .rect2       => "Rect2"
  | .transform2D => "Transform2D"
  | .node        => "Node"
  | .inputEvent  => "InputEvent"
  | .unknown     => "unknown"

instance : ToString Ty := ⟨word⟩

/-- The type that a text spells. -/
def ofText? (t : Text) : Option Ty := all.find? fun ty => Text.ofString ty.word == t

/-- The types that a script may write: all but `unknown`. -/
def writable : List Ty := all.filter (· ≠ .unknown)

/-- Whether values of a type are written as struct literals. -/
def isStruct : Ty → Bool
  | .vector2 | .color | .rect2 | .transform2D => true
  | _                                         => false

/-- Whether a type is one of the two number types. -/
def isNumeric : Ty → Bool
  | .i32 | .f32 => true
  | _           => false

/-- Whether a global of a type can be exported. -/
def isExportable : Ty → Bool
  | .void | .node | .inputEvent | .unknown => false
  | _                                      => true

/-- The fields of a type in order; empty for a type without fields. -/
def fields : Ty → List (Field × Ty)
  | .vector2     => [(.x, .f32), (.y, .f32)]
  | .color       => [(.r, .f32), (.g, .f32), (.b, .f32), (.a, .f32)]
  | .rect2       => [(.position, .vector2), (.size, .vector2)]
  | .transform2D => [(.position, .vector2), (.rotation, .f32), (.scale, .vector2)]
  | .node        =>
      [(.position, .vector2), (.rotation, .f32), (.scale, .vector2), (.name, .string)]
  | .inputEvent  => [(.action, .string), (.pressed, .bool)]
  | _            => []

/-- The type of a field. -/
def field? (t : Ty) (f : Field) : Option Ty := (t.fields.find? fun e => e.1 == f).map Prod.snd

/-- The type of the field that a text spells. -/
def fieldNamed? (t : Ty) (name : Text) : Option Ty := (Field.ofText? name).bind t.field?

/-- The spellings of the fields of a type. -/
def fieldNames (t : Ty) : List Text := t.fields.map fun e => Text.ofString e.1.word

/-- Whether a value of type `source` may be used where `target` is expected. -/
def assignable (source target : Ty) : Bool :=
  source == .unknown || target == .unknown || source == target ||
    (source == .i32 && target == .f32)

/-- The type of an arithmetic operation on two numbers. -/
def numericResult (a b : Ty) : Ty :=
  if a = .unknown ∨ b = .unknown then .unknown
  else if a = .f32 ∨ b = .f32 then .f32
  else .i32

/-- Whether two values can be tested for equality: they have one type, or are both numbers. -/
def comparable (a b : Ty) : Bool :=
  if a = .unknown ∨ b = .unknown then true
  else if a = .void ∨ b = .void then false
  else a == b || (a.isNumeric && b.isNumeric)

end Ty

/-- A name with its type: a parameter of a function, a signal or a callback. -/
structure TypedName where
  name : Text
  type : Ty
deriving DecidableEq, Repr

namespace TypedName

/-- How a signature shows it. -/
def text (p : TypedName) : String := s!"{p.name}: {p.type}"

/-- How a signature shows several. -/
def listText (ps : List TypedName) : String := ", ".intercalate (ps.map text)

end TypedName

end SceneScript
