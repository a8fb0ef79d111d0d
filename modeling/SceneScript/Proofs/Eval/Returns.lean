import SceneScript.Eval
import SceneScript.Proofs.Outcome

/-!
# Statements that always return never fall through

`Stmt.alwaysReturns` is computed from the shape of a statement. Here it is compared with what
running the statement does, in any script, checked or not, on any host: a statement of which it
holds leads to no next statement. It returns, faults or does not end.

* **`Machine.Closed`** — running this ends in a fall through only if the flag is off.
* **`Machine.closed_execAll`** — the body of a function, from the four cases of `ClosedAt`.
-/

namespace SceneScript

/-- Whether the next statement is reached. -/
def Flow.fallsThrough : Flow → Bool
  | .next _     => true
  | .returned _ => false

namespace Machine

variable {σ : Type}

/-- Code marked by `flag` as always returning does not fall through. -/
def Closed (x : Eval σ Flow) (flag : Bool) : Prop :=
  ∀ w, Ends x w (fun flow _ => flow.fallsThrough = true → flag = false) (fun _ _ => True)

theorem ends_trivial {α : Type} (x : Eval σ α) (w : World σ) {Q : α → World σ → Prop}
    (h : ∀ a w', Q a w') : Ends x w Q (fun _ _ => True) := by
  rw [Ends]
  split
  · exact h _ _
  · trivial

theorem closed_false (x : Eval σ Flow) : Closed x false :=
  fun w => ends_trivial x w fun _ _ _ => rfl

theorem closed_throw (h : Halt) (flag : Bool) : Closed (throw h : Eval σ Flow) flag :=
  fun _ => trivial

theorem closed_returned (x : Eval σ Value) (flag : Bool) :
    Closed (do return Flow.returned (← x)) flag := by
  intro w
  simp only [bind_pure_comp, ends_map]
  exact ends_trivial x w fun _ _ => Bool.noConfusion

/-- The statements that run code are closed at one amount of fuel. -/
structure ClosedAt (m : Machine σ) (fuel : Nat) : Prop where
  exec      : ∀ depth locals st, Closed (m.exec depth fuel locals st) st.alwaysReturns
  execAll   : ∀ depth locals body, Closed (m.execAll depth fuel locals body) (anyReturns body)
  execBlock : ∀ depth locals b, Closed (m.execBlock depth fuel locals b) b.alwaysReturns
  execCond  : ∀ depth locals c, Closed (m.execCond depth fuel locals c) c.alwaysReturns

namespace ClosedAt

variable {m : Machine σ} {fuel : Nat}

theorem exec_succ (ih : ClosedAt m fuel) (depth : Nat) (locals : Locals) (st : Stmt Ty) :
    Closed (m.exec depth (fuel + 1) locals st) st.alwaysReturns := by
  cases st with
  | block b => exact ih.execBlock depth locals b
  | bind _ _ _ _ _ _ => exact closed_false _
  | assign _ _ _ _ => exact closed_false _
  | cond c => exact ih.execCond depth locals c
  | loop _ _ _ => exact closed_false _
  | ret _ value =>
      cases value with
      | none => exact closed_returned (pure Value.void) true
      | some e => exact closed_returned (m.eval depth locals fuel e) true
  | eval _ _ => exact closed_false _

theorem execAll_succ (ih : ClosedAt m fuel) (depth : Nat) (locals : Locals)
    (body : List (Stmt Ty)) : Closed (m.execAll depth (fuel + 1) locals body) (anyReturns body) := by
  cases body with
  | nil => exact closed_false _
  | cons st rest =>
      intro w
      simp only [Machine.execAll, ends_bind]
      refine (ih.exec depth locals st w).mono (fun flow w' hflow => ?_) fun _ _ h => h
      cases flow with
      | next locals' =>
          refine (ih.execAll depth locals' rest w').mono (fun flow' _ h hft => ?_) fun _ _ h => h
          rw [anyReturns, hflow rfl, h hft]
          rfl
      | returned v => exact Bool.noConfusion

theorem execBlock_succ (ih : ClosedAt m fuel) (depth : Nat) (locals : Locals) (b : Block Ty) :
    Closed (m.execBlock depth (fuel + 1) locals b) b.alwaysReturns := by
  cases b with
  | mk span body =>
      intro w
      simp only [Machine.execBlock, ends_bind]
      refine (ih.execAll depth ([] :: locals) body w).mono (fun flow w' hflow => ?_) fun _ _ h => h
      cases flow with
      | next inner => exact fun _ => hflow rfl
      | returned v => exact Bool.noConfusion

theorem execCond_succ (ih : ClosedAt m fuel) (depth : Nat) (locals : Locals) (c : Cond Ty) :
    Closed (m.execCond depth (fuel + 1) locals c) c.alwaysReturns := by
  cases c with
  | mk span test consequent alternate =>
      -- Either branch that is taken decides: one that falls through turns the conjunction off.
      have hthen : Closed (m.execBlock depth fuel locals consequent)
          (consequent.alwaysReturns && alternate.alwaysReturns) := fun w =>
        (ih.execBlock depth locals consequent w).mono
          (fun _ _ h hft => by rw [h hft, Bool.false_and]) fun _ _ h => h
      have helse : ∀ {x : Eval σ Flow}, Closed x alternate.alwaysReturns →
          Closed x (consequent.alwaysReturns && alternate.alwaysReturns) := fun hx w =>
        (hx w).mono (fun _ _ h hft => by rw [h hft, Bool.and_false]) fun _ _ h => h
      intro w
      simp only [Machine.execCond, ends_bind]
      refine ends_trivial _ w fun taken w' => ?_
      cases taken with
      | true => exact hthen w'
      | false =>
          cases alternate with
          | absent => exact helse (closed_false _) w'
          | block b => exact helse (ih.execBlock depth locals b) w'
          | cond c => exact helse (ih.execCond depth locals c) w'

end ClosedAt

theorem closedAt (m : Machine σ) (fuel : Nat) : ClosedAt m fuel := by
  induction fuel with
  | zero =>
      exact ⟨fun _ _ _ => closed_throw _ _, fun _ _ _ => closed_throw _ _,
        fun _ _ _ => closed_throw _ _, fun _ _ _ => closed_throw _ _⟩
  | succ fuel ih => exact ⟨ih.exec_succ, ih.execAll_succ, ih.execBlock_succ, ih.execCond_succ⟩

/-- Statements of which one always returns do not fall through. -/
theorem closed_execAll (m : Machine σ) (depth fuel : Nat) (locals : Locals)
    (body : List (Stmt Ty)) : Closed (m.execAll depth fuel locals body) (anyReturns body) :=
  (closedAt m fuel).execAll depth locals body

end Machine

end SceneScript
