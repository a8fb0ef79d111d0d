import SceneScript.Eval
import SceneScript.Proofs.Typing.Edited

/-!
# Machines with other variables in their functions

When the variables of functions change, all that a machine does outside of them is the same: it has
the same host, the same signals and the same node, and functions of the same names.

* **`Machine.edit`** — the machine after such a change.
* **`Machine.assign_edit`** — assignments are the same on it.
-/

namespace SceneScript.Machine

variable {σ : Type} (c : LetEdit Ty Ty) (m : Machine σ)

/-- The machine with the variables of its functions changed. -/
def edit : Machine σ := { m with functions := m.functions.map (·.edit c) }

theorem function?_edit (name : Text) :
    (m.edit c).function? name = (m.function? name).map (·.edit c) :=
  List.find?_map

theorem writePath_edit (rhs : Value) (op : AssignOp) (span : Span) (path : List Text) :
    ∀ base, (m.edit c).writePath rhs op span base path = m.writePath rhs op span base path := by
  induction path with
  | nil => exact fun _ => rfl
  | cons name rest ih =>
      intro base
      cases base <;> simp only [writePath, ih] <;> rfl

theorem assign_edit (locals : Locals) (span : Span) (target : AssignTarget) (op : AssignOp)
    (rhs : Value) :
    (m.edit c).assign locals span target op rhs = m.assign locals span target op rhs := by
  rw [assign, assign]
  simp only [writePath_edit]
  rfl

end SceneScript.Machine
