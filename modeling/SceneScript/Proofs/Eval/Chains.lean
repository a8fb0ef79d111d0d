import SceneScript.Proofs.Eval.Tracing
import SceneScript.Proofs.Syntax.Parts

/-!
# Chains of calls

What a run does inside of a function stands in the body of this function, down to the calls. So
each of the functions that are active has been called in the body of the next one, and the last of
them is the one that the run began with.

* **`Block.Calls`** — a body contains a call of a function.
* **`Task.Within`** — a part of a program is part of a body; `Machine.Begins.within`.
* **`Machine.CalledBy`** — a function is called in the body of another one.
* **`Machine.Active.chain`** — the functions that are active call one another.
-/

namespace SceneScript

variable {σ : Type}

/-- The body contains a call of the function. -/
def Block.Calls (b : Block Ty) (name : Text) : Prop :=
  ∃ span callee args, Expr.call span callee args ∈ b.parts ∧ callee.name = name

/-- The expressions in a part of a program. -/
def Task.parts : Task → List Expr
  | .eval _ e                   => e.parts
  | .condition _ e              => e.parts
  | .evalAll _ es               => exprsParts es
  | .evalFields _ fields        => fieldsParts fields
  | .callBuiltin _ _ _ _ args   => exprsParts args
  | .argumentText _ _ _ args    => exprsParts args
  | .call _ _ _                 => []
  | .exec _ st                  => st.parts
  | .execAll _ body             => stmtsParts body
  | .execBlock _ b              => b.parts
  | .execCond _ c               => c.parts
  | .execLoop _ test body       => test.parts ++ body.parts

/-- All that is in the part is in the body, and so is the call if the part is one. -/
structure Task.Within (b : Block Ty) (t : Task) : Prop where
  parts : ∀ e ∈ t.parts, e ∈ b.parts
  calls : ∀ name ∈ t.opens, b.Calls name

theorem Task.opens_cases (t : Task) : t.opens = [] ∨ ∃ callee, t.opens = [callee] := by
  cases t with
  | call name args span => exact .inr ⟨name, rfl⟩
  | _ => exact .inl rfl

namespace Machine

variable {m : Machine σ} {x y z : Moment σ}

/-- What begins inside of a part of a program is in this part, unless a body begins. -/
theorem Begins.parts (h : m.Begins x z) (hopens : x.task.opens = []) :
    ∀ e ∈ z.task.parts, e ∈ x.task.parts := by
  intro e he
  cases h with
  | object => exact List.mem_cons_of_mem _ he
  | operand => exact List.mem_cons_of_mem _ he
  | left _ => exact List.mem_cons_of_mem _ (List.mem_append_left _ he)
  | right _ _ => exact List.mem_cons_of_mem _ (List.mem_append_right _ he)
  | leftTest _ => exact List.mem_cons_of_mem _ (List.mem_append_left _ he)
  | andTest _ => exact List.mem_cons_of_mem _ (List.mem_append_right _ he)
  | orTest _ => exact List.mem_cons_of_mem _ (List.mem_append_right _ he)
  | fields => exact List.mem_cons_of_mem _ he
  | builtin _ => exact List.mem_cons_of_mem _ he
  | arguments _ => exact List.mem_cons_of_mem _ he
  | callee _ _ => cases he
  | truth => exact he
  | firstValue => exact List.mem_append_left _ he
  | moreValues _ => exact List.mem_append_right _ he
  | firstField => exact List.mem_append_left _ he
  | moreFields _ => exact List.mem_append_right _ he
  | printed => exact he
  | emitted _ => exact List.mem_append_right _ he
  | text _ => exact he
  | argument => exact List.mem_append_left _ he
  | body _ _ => cases hopens
  | block => exact he
  | init => exact he
  | value => exact he
  | cond => exact he
  | loop => exact he
  | result => exact he
  | effect => exact he
  | first => exact List.mem_append_left _ he
  | next _ => exact List.mem_append_right _ he
  | inner => exact he
  | test => exact List.mem_append_left _ (List.mem_append_left _ he)
  | consequent _ => exact List.mem_append_left _ (List.mem_append_right _ he)
  | otherwise _ => exact List.mem_append_right _ he
  | otherwiseIf _ => exact List.mem_append_right _ he
  | again => exact List.mem_append_left _ he
  | round _ => exact List.mem_append_right _ he
  | repeated _ _ => exact he

theorem Begins.within {b : Block Ty} (h : m.Begins x z) (hopens : x.task.opens = [])
    (hx : x.task.Within b) : z.task.Within b := by
  refine ⟨fun e he => hx.parts e (h.parts hopens e he), fun name hname => ?_⟩
  cases h with
  | @callee _ _ _ _ span callee args _ _ _ _ =>
      exact ⟨span, callee, args, hx.parts _ List.mem_cons_self, (List.mem_singleton.mp hname).symm⟩
  | _ => cases hname

/-- Inside of a call begins the body of its function. -/
theorem Begins.within_body {name : Text} (h : m.Begins x z) (hopens : x.task.opens = [name]) :
    ∃ g, m.function? name = some g ∧ z.task.Within g.decl.body := by
  cases h with
  | @body d n w name args span g hg _ =>
      cases hopens
      refine ⟨g, hg, fun e he => ?_, fun _ => nofun⟩
      have he : e ∈ stmtsParts g.decl.body.body := he
      cases hbody : g.decl.body with
      | mk span body =>
          rw [hbody] at he
          exact he
  | _ => cases hopens

/-- The body of the second function contains a call of the first one. -/
def CalledBy (m : Machine σ) (callee caller : Text) : Prop :=
  ∃ g, m.function? caller = some g ∧ g.decl.body.Calls callee

/-- In a run that begins with the call of a function either nothing is active yet, or the innermost
    of the active functions contains what runs, each is called in the next one, and the last one is
    that of the call. -/
theorem Active.chain {name : Text} (hx : x.task.opens = [name]) {names : List Text}
    (h : m.Active x names y) :
    (names = [] ∧ y = x) ∨
      (names.IsChain m.CalledBy ∧ names.getLast? = some name ∧
        ∃ caller g, names.head? = some caller ∧ m.function? caller = some g ∧
          y.task.Within g.decl.body) := by
  induction h with
  | start => exact .inl ⟨rfl, rfl⟩
  | @inside names y z _ hz ih =>
      right
      rcases ih with ⟨rfl, rfl⟩ | ⟨hchain, hlast, caller, g, hhead, hg, hwithin⟩
      · obtain ⟨g, hg, hbody⟩ := hz.within_body hx
        rw [hx]
        exact ⟨.singleton name, rfl, name, g, rfl, hg, hbody⟩
      · rcases y.task.opens_cases with hopens | ⟨callee, hopens⟩
        · rw [hopens]
          exact ⟨hchain, hlast, caller, g, hhead, hg, hz.within hopens hwithin⟩
        · obtain ⟨f, hf, hbody⟩ := hz.within_body hopens
          have hcalls : g.decl.body.Calls callee :=
            hwithin.calls callee (hopens ▸ List.mem_singleton_self callee)
          obtain ⟨rest, rfl⟩ := List.head?_eq_some_iff.mp hhead
          rw [hopens]
          exact ⟨hchain.cons_cons ⟨g, hg, hcalls⟩, hlast, callee, f, rfl, hf, hbody⟩

end Machine

end SceneScript
