import SceneScript.Value
import SceneScript.Ast
import SceneScript.Number.Numeral

/-!
# Property — exported globals and their hints

An exported global is a property: it has a type, a default value, and a hint that tells an
inspector how to edit it. A hint has a text form, which reads back as the same hint.

* **`Hint.text`** / **`Hint.parse?`** — the text form of a hint and its reading.
* **`Hint.clamp`** — a number brought into the range of a hint.
* **`constant?`** — the value of an expression that is a constant: literals, negations of
  constants, and struct literals of constants.
-/

namespace SceneScript

/-- How an inspector edits a property. -/
inductive Hint where
  | none
  | range (min max step : Binary64)
  | options (values : List Text)
  | file (filter : Text)
deriving DecidableEq, Repr

/-- The kinds of hint. -/
inductive HintKind where
  | none | range | options | file
deriving DecidableEq, Repr

namespace HintKind

/-- All kinds of hint. -/
def all : List HintKind := [.none, .range, .options, .file]

/-- The word for a kind of hint. -/
def word : HintKind → String
  | .none    => "none"
  | .range   => "range"
  | .options => "enum"
  | .file    => "file"

end HintKind

namespace Hint

/-- The kind of a hint. -/
def kind : Hint → HintKind
  | .none        => .none
  | .range _ _ _ => .range
  | .options _   => .options
  | .file _      => .file

/-- The text form of a hint. -/
def text : Hint → Text
  | .none               => .empty
  | .range min max step => ",".intercalate ([min, max, step].map numberText)
  | .options values     => Text.join "," values
  | .file filter        => filter

/-- The hint of a kind that a text spells. -/
def parse? (kind : HintKind) (t : Text) : Option Hint :=
  match kind with
  | .none  => if t.isEmpty then some .none else Option.none
  | .range =>
      match (t.splitOn ',').map readNumber with
      | [min, max, step] =>
          if min.isFinite && max.isFinite && step.isFinite then some (.range min max step)
          else Option.none
      | _ => Option.none
  | .options => if t.isEmpty then Option.none else some (.options (t.splitOn ','))
  | .file    => if t.isEmpty then Option.none else some (.file t)

/-- A number brought between the bounds of a range; anything else as it is. -/
def clamp : Hint → Value → Value
  | .range min max _, .int n   => .ofInteger (max.min (min.max (.ofInt32 n)))
  | .range min max _, .float x => .ofFloat (max.min (min.max x))
  | _, v                       => v

end Hint

/-- An exported global. -/
structure Property where
  name         : Text
  type         : Ty
  hint         : Hint
  defaultValue : Value
deriving DecidableEq, Repr

/-- A declared signal. -/
structure Signal where
  name   : Text
  params : List TypedName
deriving DecidableEq, Repr

/-! ## Constants -/

mutual

/-- The value of a constant expression. -/
def constant? : Expr → Option Value
  | .int _ n _      => some (.int (.ofInt n))
  | .float _ x _    => some (.ofFloat x)
  | .bool _ b       => some (.bool b)
  | .string _ t     => some (.string t)
  | .unary _ op arg =>
      match op, constant? arg with
      | .neg, some (.int n)   => some (.int (-n))
      | .neg, some (.float x) => some (.ofFloat x.neg)
      | .not, some (.bool b)  => some (.bool (!b))
      | _, _                  => none
  | .struct _ name fields =>
      match Ty.ofText? name.name with
      | some t => (constantFields? fields).bind (Value.build? t)
      | none   => none
  | _ => none

/-- The values of constant struct fields. -/
def constantFields? : List (Ident × Expr) → Option (List (Text × Value))
  | []                => some []
  | (name, e) :: rest =>
      match constant? e, constantFields? rest with
      | some v, some vs => some ((name.name, v) :: vs)
      | _, _            => none

end

/-- The value of a constant expression as a value of a type. -/
def constantAs? (e : Expr) (t : Ty) : Option Value := (constant? e).bind fun v => v.coerce? t

end SceneScript
