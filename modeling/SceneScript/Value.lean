import SceneScript.Ty
import SceneScript.Number.Decimal

/-!
# Value — what a running script computes with

Values are plain data: writing a field gives a new value. Integers are 32-bit words and wrap;
every component of type `f32` is a single precision number, which the smart constructors see
to.

* **`Value.type`** / **`Value.coerce?`** — the type of a value, and its conversion to another:
  an integer becomes a float, nothing else converts.
* **`Value.get?`** / **`Value.set?`** — reading a field, and a copy with a field replaced.
* **`Value.build?`** — a struct from its fields, the last of several with one name.
* **`Value.equals`** — structural equality, numbers by value, nodes as the host says.
* **`Value.format`** — the text that `print` writes.
-/

namespace SceneScript

/-- A handle of a node, given out by the host. -/
inductive NodeRef where
  | numbered (id : Int)
  | named (id : Text)
deriving DecidableEq, Repr

/-- The text of a handle. -/
def NodeRef.text : NodeRef → Text
  | .numbered id => toString id
  | .named id    => id

/-- A point of the plane. -/
structure Vec2 where
  x : Binary64
  y : Binary64
deriving DecidableEq, Repr, Inhabited

namespace Vec2

/-- A point with single precision components. -/
def single (x y : Binary64) : Vec2 := ⟨x.toSingle, y.toSingle⟩

/-- The origin. -/
def zero : Vec2 := ⟨.zero, .zero⟩

/-- Componentwise numeric equality. -/
def same (v w : Vec2) : Bool := v.x.same w.x && v.y.same w.y

/-- Whether both components are finite. -/
def isFinite (v : Vec2) : Bool := v.x.isFinite && v.y.isFinite

/-- The text of a point. -/
def text (v : Vec2) : String := s!"Vector2({singleText v.x}, {singleText v.y})"

end Vec2

/-- A value of a running script. -/
inductive Value where
  | int (n : Int32)
  | float (x : Binary64)
  | bool (b : Bool)
  | string (t : Text)
  | vector2 (v : Vec2)
  | color (r g b a : Binary64)
  | rect2 (position size : Vec2)
  | transform2D (position : Vec2) (rotation : Binary64) (scale : Vec2)
  | node (ref : NodeRef)
  | inputEvent (action : Text) (pressed : Bool)
  | void
deriving DecidableEq, Repr, Inhabited

namespace Value

/-- The integer nearest to a number towards zero, reduced to 32 bits. -/
def ofInteger (x : Binary64) : Value := .int x.toInt32

/-- A number rounded to single precision. -/
def ofFloat (x : Binary64) : Value := .float x.toSingle

/-- A color with single precision components. -/
def ofColor (r g b a : Binary64) : Value :=
  .color r.toSingle g.toSingle b.toSingle a.toSingle

/-- A transform with a single precision rotation. -/
def ofTransform (position : Vec2) (rotation : Binary64) (scale : Vec2) : Value :=
  .transform2D position rotation.toSingle scale

/-- The type of a value. -/
def type : Value → Ty
  | .int _             => .i32
  | .float _           => .f32
  | .bool _            => .bool
  | .string _          => .string
  | .vector2 _         => .vector2
  | .color _ _ _ _     => .color
  | .rect2 _ _         => .rect2
  | .transform2D _ _ _ => .transform2D
  | .node _            => .node
  | .inputEvent _ _    => .inputEvent
  | .void              => .void

/-- A value as a value of a type: itself, or an integer as a float. -/
def coerce? (v : Value) (t : Ty) : Option Value :=
  if v.type = t then some v
  else
    match v, t with
    | .int n, .f32 => some (ofFloat (.ofInt32 n))
    | _, _         => none

/-- The number that a numeric value is. -/
def number? : Value → Option Binary64
  | .int n   => some (.ofInt32 n)
  | .float x => some x
  | _        => none

/-- Whether a value is a number. -/
def isNumeric (v : Value) : Bool := v.number?.isSome

/-- The point that a value is. -/
def point? : Value → Option Vec2
  | .vector2 v => some v
  | _          => none

/-- Whether every float component is finite. -/
def isFinite : Value → Bool
  | .float x                  => x.isFinite
  | .vector2 v                => v.isFinite
  | .color r g b a            => r.isFinite && g.isFinite && b.isFinite && a.isFinite
  | .rect2 p s                => p.isFinite && s.isFinite
  | .transform2D p rotation s => p.isFinite && rotation.isFinite && s.isFinite
  | _                         => true

/-! ## Fields -/

/-- The value of a field. -/
def get? : Value → Field → Option Value
  | .vector2 v, .x                    => some (ofFloat v.x)
  | .vector2 v, .y                    => some (ofFloat v.y)
  | .color r _ _ _, .r                => some (ofFloat r)
  | .color _ g _ _, .g                => some (ofFloat g)
  | .color _ _ b _, .b                => some (ofFloat b)
  | .color _ _ _ a, .a                => some (ofFloat a)
  | .rect2 p _, .position             => some (.vector2 p)
  | .rect2 _ s, .size                 => some (.vector2 s)
  | .transform2D p _ _, .position     => some (.vector2 p)
  | .transform2D _ angle _, .rotation => some (ofFloat angle)
  | .transform2D _ _ s, .scale        => some (.vector2 s)
  | .inputEvent action _, .action     => some (.string action)
  | .inputEvent _ pressed, .pressed   => some (.bool pressed)
  | _, _                              => none

/-- A copy with one field replaced; `none` when there is no such field or the new value does
    not fit it. -/
def set? (v : Value) (f : Field) (next : Value) : Option Value :=
  match v, f with
  | .vector2 v, .x                => next.number?.map fun x => .vector2 (.single x.toSingle v.y)
  | .vector2 v, .y                => next.number?.map fun y => .vector2 (.single v.x y.toSingle)
  | .color _ g b a, .r            => next.number?.map fun r => ofColor r.toSingle g b a
  | .color r _ b a, .g            => next.number?.map fun g => ofColor r g.toSingle b a
  | .color r g _ a, .b            => next.number?.map fun b => ofColor r g b.toSingle a
  | .color r g b _, .a            => next.number?.map fun a => ofColor r g b a.toSingle
  | .rect2 _ s, .position         => next.point?.map fun p => .rect2 p s
  | .rect2 p _, .size             => next.point?.map fun s => .rect2 p s
  | .transform2D _ a s, .position => next.point?.map fun p => ofTransform p a s
  | .transform2D p _ s, .rotation => next.number?.map fun a => ofTransform p a.toSingle s
  | .transform2D p a _, .scale    => next.point?.map fun s => ofTransform p a s
  | .inputEvent _ pressed, .action =>
      match next with
      | .string action => some (.inputEvent action pressed)
      | _              => none
  | .inputEvent action _, .pressed =>
      match next with
      | .bool pressed => some (.inputEvent action pressed)
      | _             => none
  | _, _ => none

/-- The value of the field that a text spells. -/
def getNamed? (v : Value) (name : Text) : Option Value := (Field.ofText? name).bind v.get?

/-- A copy with the field that a text spells replaced. -/
def setNamed? (v : Value) (name : Text) (next : Value) : Option Value :=
  (Field.ofText? name).bind fun f => v.set? f next

/-- The last value given for a field. -/
def lastNamed? (field : Field) (fields : List (Text × Value)) : Option Value :=
  (fields.reverse.find? fun e => e.1 == Text.ofString field.word).map Prod.snd

/-- A struct of a type from named values; `none` when one is missing or does not fit. -/
def build? (t : Ty) (fields : List (Text × Value)) : Option Value := do
  let number (f : Field) : Option Binary64 := (lastNamed? f fields).bind number?
  let point (f : Field) : Option Vec2 := (lastNamed? f fields).bind point?
  match t with
  | .vector2     => return .vector2 (.single (← number .x) (← number .y))
  | .color       => return ofColor (← number .r) (← number .g) (← number .b) (← number .a)
  | .rect2       => return .rect2 (← point .position) (← point .size)
  | .transform2D => return ofTransform (← point .position) (← number .rotation) (← point .scale)
  | _            => none

/-! ## Equality and text -/

/-- Whether two values hold the same; numbers are compared by value. A node holds nothing. -/
def same : Value → Value → Bool
  | .int m, .int n                            => m == n
  | .int m, .float y                          => (Binary64.ofInt32 m).same y
  | .float x, .int n                          => x.same (.ofInt32 n)
  | .float x, .float y                        => x.same y
  | .bool x, .bool y                          => x == y
  | .string x, .string y                      => x == y
  | .vector2 v, .vector2 w                    => v.same w
  | .color r g b a, .color r' g' b' a'        =>
      r.same r' && g.same g' && b.same b' && a.same a'
  | .rect2 p s, .rect2 p' s'                  => p.same p' && s.same s'
  | .transform2D p r s, .transform2D p' r' s' => p.same p' && r.same r' && s.same s'
  | .inputEvent a p, .inputEvent a' p'        => a == a' && p == p'
  | .void, .void                              => true
  | _, _                                      => false

/-- Equality of values; whether two handles mean one node is asked. -/
def equals {m : Type → Type} [Monad m] (sameNode : NodeRef → NodeRef → m Bool) (v w : Value) :
    m Bool :=
  match v, w with
  | .node a, .node b => sameNode a b
  | _, _             => pure (v.same w)

/-- The words for truth values. -/
def boolText (b : Bool) : String := if b then "true" else "false"

/-- The text that `print` writes. -/
def format : Value → Text
  | .int n               => toString n.toInt
  | .float x             => singleText x
  | .bool b              => boolText b
  | .string t            => t
  | .vector2 v           => v.text
  | .color r g b a       =>
      s!"Color({singleText r}, {singleText g}, {singleText b}, {singleText a})"
  | .rect2 p s           => s!"Rect2({p.text}, {s.text})"
  | .transform2D p r s   => s!"Transform2D({p.text}, {singleText r}, {s.text})"
  | .node ref            => Text.ofString "Node(" ++ ref.text ++ Text.ofString ")"
  | .inputEvent action b =>
      Text.ofString "InputEvent(" ++ action ++ Text.ofString s!", {boolText b})"
  | .void                => "nil"

end Value

end SceneScript
