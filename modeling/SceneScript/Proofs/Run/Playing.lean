import SceneScript.Run
import SceneScript.Proofs.Eval.Alike

/-!
# Callbacks one after the other

A plan of callbacks is carried out on a machine: each callback runs in the world that the one before
it left, and the first that halts ends it all. What is said here is about the machine and its calls;
the runner and its bookkeeping come later.

* **`Lifecycle.life`** — the callbacks in the life of a node; `schedule_eq`.
* **`Machine.Performs`** — callbacks that all end well, from one world to another.
* **`Machine.Plays`** — a plan, the callbacks that were begun, how it ended and in which world.
* **`Machine.Plays.unique`** — a plan is carried out in one way only.
* **`Machine.Plays.beside`** — hosts that cannot be told apart see the same.
-/

namespace SceneScript

variable {σ τ : Type}

/-! ## Plans -/

namespace Lifecycle

/-- What a callback of the schedule passes to its function. -/
def passes (delta : Value) : Lifecycle → List Value
  | .process | .physicsProcess => [delta]
  | _                          => []

/-- The callbacks in the life of a node that is there for some frames. -/
def life (frames : Nat) : List Lifecycle :=
  [.enterTree, .ready] ++ (List.replicate frames [.process, .physicsProcess]).flatten ++ [.exitTree]

/-- Input is no part of the schedule. -/
theorem ne_input_of_mem_life {frames : Nat} {k : Lifecycle} (h : k ∈ life frames) : k ≠ .input := by
  rintro rfl
  simp [life, List.mem_flatten, List.mem_replicate] at h

/-- Callbacks are passed what they say they pass. -/
theorem passes_type {k : Lifecycle} (h : k ≠ .input) {delta : Value} (hdelta : delta.type = .f32) :
    (k.passes delta).map Value.type = k.params.map TypedName.type := by
  cases k with
  | input => exact absurd rfl h
  | process | physicsProcess => exact congrArg (fun t => [t]) hdelta
  | _ => rfl

end Lifecycle

theorem schedule_eq (frames : Int) (delta : Value) :
    schedule frames delta =
      (Lifecycle.life frames.toNat).map fun k => (k, k.passes delta) := by
  simp only [schedule, Lifecycle.life, List.map_append, List.map_flatten, List.map_replicate]
  rfl

namespace Machine

variable {m : Machine σ} {fuel : Nat} {delta : Value} {w w' w₁ w₂ : World σ} {k : Lifecycle}
  {ks before after planned calls calls' : List Lifecycle} {e e' : RunEnd} {v : Value} {h : Halt}

/-- The call of the function of a callback. -/
def perform (m : Machine σ) (fuel : Nat) (delta : Value) (k : Lifecycle) : Eval σ Value :=
  m.call 0 fuel (Text.ofString k.functionName) (k.passes delta) none

/-- Callbacks run to their ends, each in the world that the one before it left. -/
inductive Performs (m : Machine σ) (fuel : Nat) (delta : Value) :
    World σ → List Lifecycle → World σ → Prop where
  | nil (w : World σ) : Performs m fuel delta w [] w
  | cons {w w₁ w' : World σ} {k : Lifecycle} {ks : List Lifecycle} {v : Value} :
      m.perform fuel delta k w = .ok v w₁ → Performs m fuel delta w₁ ks w' →
      Performs m fuel delta w (k :: ks) w'

/-- How a plan is carried out from a world on: which callbacks are called, how it ends and in which
    world. Either all of them run, or one of them halts and is the last. -/
inductive Plays (m : Machine σ) (fuel : Nat) (delta : Value) (w : World σ)
    (planned : List Lifecycle) : List Lifecycle → RunEnd → World σ → Prop where
  | whole {w' : World σ} : m.Performs fuel delta w planned w' →
      Plays m fuel delta w planned planned .finished w'
  | broken {before after : List Lifecycle} {k : Lifecycle} {w₁ w' : World σ} {h : Halt} :
      planned = before ++ k :: after → m.Performs fuel delta w before w₁ →
      m.perform fuel delta k w₁ = .error h w' →
      Plays m fuel delta w planned (before ++ [k]) (.ofHalt h) w'

/-! ## Step by step -/

/-- The first callback of a plan ends well and the others follow. -/
theorem Plays.cons (hk : m.perform fuel delta k w = .ok v w₁)
    (h : m.Plays fuel delta w₁ ks calls e w') :
    m.Plays fuel delta w (k :: ks) (k :: calls) e w' := by
  cases h with
  | whole h => exact .whole (.cons hk h)
  | broken hplan h hhalt => exact .broken (congrArg (k :: ·) hplan) (.cons hk h) hhalt

/-- The first callback of a plan halts. -/
theorem Plays.halt (hk : m.perform fuel delta k w = .error h w') :
    m.Plays fuel delta w (k :: ks) [k] (.ofHalt h) w' := by
  have hplan : k :: ks = [] ++ k :: ks := rfl
  exact .broken hplan (.nil w) hk

theorem Plays.nil_cases (h : m.Plays fuel delta w [] calls e w') :
    calls = [] ∧ e = .finished ∧ w' = w := by
  cases h with
  | whole h =>
      cases h
      exact ⟨rfl, rfl, rfl⟩
  | broken hplan _ _ => simp at hplan

/-- What becomes of a plan depends on its first callback. -/
theorem Plays.cons_cases (h : m.Plays fuel delta w (k :: ks) calls e w') :
    (∃ v w₁ calls', m.perform fuel delta k w = .ok v w₁ ∧ m.Plays fuel delta w₁ ks calls' e w' ∧
      calls = k :: calls') ∨
    ∃ h, m.perform fuel delta k w = .error h w' ∧ calls = [k] ∧ e = .ofHalt h := by
  cases h with
  | whole h =>
      cases h with
      | cons hk hrest => exact .inl ⟨_, _, _, hk, .whole hrest, rfl⟩
  | broken hplan h hhalt =>
      cases h with
      | nil =>
          obtain ⟨rfl, -⟩ := List.cons.inj hplan
          exact .inr ⟨_, hhalt, rfl, rfl⟩
      | cons hk hrest =>
          obtain ⟨rfl, htail⟩ := List.cons.inj hplan
          exact .inl ⟨_, _, _, hk, .broken htail hrest hhalt, rfl⟩

/-- A plan ends well only as a whole. -/
theorem Plays.ending_cases (h : m.Plays fuel delta w planned calls e w') :
    e = .finished ∧ m.Performs fuel delta w planned w' ∨ ∃ f, e = .ofHalt f := by
  cases h with
  | whole h => exact .inl ⟨rfl, h⟩
  | broken _ _ _ => exact .inr ⟨_, rfl⟩

/-- A plan is carried out in one way only. -/
theorem Plays.unique (h : m.Plays fuel delta w planned calls e w₁)
    (h' : m.Plays fuel delta w planned calls' e' w₂) : calls' = calls ∧ e' = e ∧ w₂ = w₁ := by
  induction planned generalizing w calls calls' with
  | nil =>
      obtain ⟨rfl, rfl, rfl⟩ := h.nil_cases
      exact h'.nil_cases
  | cons k ks ih =>
      rcases h.cons_cases with ⟨v, u, c, hk, hrest, rfl⟩ | ⟨f, hk, rfl, rfl⟩ <;>
        rcases h'.cons_cases with ⟨v', u', c', hk', hrest', rfl⟩ | ⟨f', hk', rfl, rfl⟩ <;>
        cases hk.symm.trans hk'
      · obtain ⟨rfl, rfl, rfl⟩ := ih hrest hrest'
        exact ⟨rfl, rfl, rfl⟩
      · exact ⟨rfl, rfl, rfl⟩

/-- Hosts that agree on living nodes see the same callbacks, the same end and the same globals. -/
theorem Plays.beside {R : σ → τ → Prop} {E : Text → Prop} {other : Host τ}
    (hm : m.host.Agrees other R E) {u : World τ} (h : m.Plays fuel delta w planned calls e w')
    (hw : World.Beside R w u) :
    ∃ u', (m.on other).Plays fuel delta u planned calls e u' ∧ World.Beside R w' u' := by
  induction planned generalizing w u calls with
  | nil =>
      obtain ⟨rfl, rfl, rfl⟩ := h.nil_cases
      exact ⟨u, .whole (.nil u), hw⟩
  | cons k ks ih =>
      have hend := (followsAt hm fuel).call 0 (Text.ofString k.functionName) (k.passes delta) none
        w u hw
      rcases h.cons_cases with ⟨v, w₁, c, hk, hrest, rfl⟩ | ⟨f, hk, rfl, rfl⟩
      · rw [show m.call 0 fuel _ _ none w = _ from hk] at hend
        generalize hother : (m.on other).call 0 fuel _ _ none u = r at hend
        cases hend with
        | ok _ hu =>
            obtain ⟨u', hplays, hu'⟩ := ih hrest hu
            exact ⟨u', .cons hother hplays, hu'⟩
      · rw [show m.call 0 fuel _ _ none w = _ from hk] at hend
        generalize hother : (m.on other).call 0 fuel _ _ none u = r at hend
        cases hend with
        | error _ _ hu => exact ⟨_, .halt hother, hu⟩

end Machine

end SceneScript
