import SceneScript.Proofs.Syntax.Edits
import SceneScript.Proofs.Typing.Reordering

/-!
# Variables of a function are its own affair

What is declared in a function body is seen in this body alone. So when the declarations of local
variables change, the signatures of a script, its signals and its globals are checked with the same
result as before; only what becomes of the bodies is left to say.

* **`FunctionInfo.edit`** — a function that can be called, after such a change.
* **`collectFunctions_edit`** — signatures stay.
* **`Program.declared_edit`**, **`Program.checkedGlobals_edit`**, **`Program.surroundings_edit`** —
  so do signals, globals and what the bodies see.
-/

namespace SceneScript

/-- A function that can be called, after a change. -/
def FunctionInfo.edit (c : LetEdit Ty Ty) (f : FunctionInfo) : FunctionInfo :=
  ⟨f.signature, f.decl.edit c⟩

/-- Signatures do not depend on variables. -/
theorem collectFunctions_edit (c : LetEdit Unit Unit) (fs : List (FunctionDecl Unit)) : ∀ seen,
    collectFunctions seen (fs.map (·.edit c)) =
      (do return (← collectFunctions seen fs).map fun entry => (entry.1.edit c, entry.2)) := by
  induction fs with
  | nil => exact fun _ => rfl
  | cons f fs ih =>
      intro seen
      have hname : (f.edit c).name = f.name := rfl
      have hsignature : signatureOf (f.edit c) = signatureOf f := rfl
      rw [List.map_cons, collectFunctions, collectFunctions, hname, hsignature]
      split
      · rw [ih]
        rfl
      split
      · rw [ih]
        rfl
      rw [ih]
      simp only [bind_assoc]
      congr 1
      funext signature
      cases Lifecycle.ofFunction? f.name.name <;> simp only [bind_assoc, pure_bind] <;> rfl

namespace Program

variable (p : Program Unit) (c : LetEdit Unit Unit)

theorem declared_edit : (p.edit c).declared = p.declared := by
  rw [declared, edit_signals, declared]

theorem collected_edit : (p.edit c).collected =
    (do return (← p.collected).map fun entry => (entry.1.edit c, entry.2)) := by
  rw [collected, edit_functions, collectFunctions_edit, collected]

theorem signatures_edit :
    (p.edit c).collected.value.filterMap Prod.snd = p.collected.value.filterMap Prod.snd := by
  rw [collected_edit]
  exact List.filterMap_map

theorem checkedGlobals_edit : (p.edit c).checkedGlobals = p.checkedGlobals := by
  rw [checkedGlobals, signatures_edit, declared_edit, edit_globals, checkedGlobals]

theorem surroundings_edit (initializing : Bool) (scope : Scope) :
    (p.edit c).surroundings initializing scope = p.surroundings initializing scope := by
  rw [surroundings, signatures_edit, declared_edit, surroundings]

end Program

end SceneScript
