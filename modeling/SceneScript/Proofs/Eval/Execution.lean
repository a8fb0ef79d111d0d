import SceneScript.Proofs.Eval.Moments
import SceneScript.Proofs.Syntax.Blocks

/-!
# The statements that a run executes

A run enters blocks, and executes the statements of a block one after the other for as long as each
of them leads to the next. So a statement of a block is executed only if no statement before it
always returns, and everything that is executed stands in some block at such a place.

* **`Machine.Continues`** — from the beginning of statements to the beginning of a rest of them.
* **`Machine.Executes`** — in the run from a moment, a statement of a body is executed.
* **`Machine.Executes.live`** — no statement before it always returns.
* **`Machine.executes_of_reaches`** — every statement that a run executes stands in a block of some
  function.
-/

namespace SceneScript

variable {σ : Type}

/-! ## One block -/

namespace Machine

/-- Statements begin at the first moment; at the second one a rest of them begins, those before it
    having led to it. -/
inductive Continues (m : Machine σ) (x : Moment σ) : Moment σ → Prop where
  | refl : Continues m x x
  | next {d n l st rest w l' w'} : Continues m x ⟨d, n + 1, .execAll l (st :: rest), w⟩ →
      m.exec d n l st w = .ok (.next l') w' → Continues m x ⟨d, n, .execAll l' rest, w'⟩

/-- In the run that begins at `x` the body begins, and the statements before its number `i` lead to
    that one, which is executed from the moment `y` on. -/
def Executes (m : Machine σ) (x : Moment σ) (body : List (Stmt Ty)) (i : Nat) (y : Moment σ) :
    Prop :=
  ∃ d n l w n' l' st rest w', m.Reaches x ⟨d, n, .execAll l body, w⟩ ∧
    m.Continues ⟨d, n, .execAll l body, w⟩ ⟨d, n' + 1, .execAll l' (st :: rest), w'⟩ ∧
    body.drop i = st :: rest ∧ y = ⟨d, n', .exec l' st, w'⟩

variable {m : Machine σ} {x y : Moment σ}

/-- A statement that leads to the next one does not always return. -/
theorem alwaysReturns_of_next {d n : Nat} {l l' : Locals} {st : Stmt Ty} {w w' : World σ}
    (h : m.exec d n l st w = .ok (.next l') w') : st.alwaysReturns = false :=
  (ends_of_ok h).mp ((closedAt m n).exec d l st w) rfl

theorem anyReturns_append {β : Type} (a b : List (Stmt β)) :
    anyReturns (a ++ b) = (anyReturns a || anyReturns b) := by
  induction a with
  | nil => rfl
  | cons st rest ih => rw [List.cons_append, anyReturns, anyReturns, ih, Bool.or_assoc]

/-- What is left of the statements stands behind some of them, none of which always returns. -/
theorem Continues.split {d n : Nat} {l : Locals} {body : List (Stmt Ty)} {w : World σ}
    (h : m.Continues ⟨d, n, .execAll l body, w⟩ y) :
    ∃ done rest n' l' w', y = ⟨d, n', .execAll l' rest, w'⟩ ∧ body = done ++ rest ∧
      anyReturns done = false := by
  induction h with
  | refl => exact ⟨[], body, n, l, w, rfl, rfl, rfl⟩
  | next _ hrun ih =>
      obtain ⟨done, rest, n', l', w', hy, rfl, hdone⟩ := ih
      cases hy
      refine ⟨done ++ [_], _, _, _, _, rfl, by rw [List.append_assoc]; rfl, ?_⟩
      rw [anyReturns_append, hdone, anyReturns, alwaysReturns_of_next hrun]
      rfl

/-- Before a statement that is executed stands none that always returns. -/
theorem Executes.live {body : List (Stmt Ty)} {i : Nat} (h : m.Executes x body i y) :
    anyReturns (body.take i) = false := by
  obtain ⟨d, n, l, w, n', l', st, rest, w', -, hcont, hdrop, -⟩ := h
  obtain ⟨done, left, _, _, _, hy, rfl, hdone⟩ := hcont.split
  cases hy
  -- The statement and those behind it fix the place.
  have hlen : i = done.length := by
    have := congrArg List.length hdrop
    simp only [List.length_drop, List.length_append, List.length_cons] at this
    omega
  rwa [hlen, List.take_left]

/-- The statement that is executed is the one at the place. -/
theorem Executes.statement {body : List (Stmt Ty)} {i : Nat} (h : m.Executes x body i y) :
    ∃ st l, body[i]? = some st ∧ y.task = .exec l st := by
  obtain ⟨d, n, l, w, n', l', st, rest, w', -, -, hdrop, rfl⟩ := h
  refine ⟨st, l', ?_, rfl⟩
  rw [← List.head?_drop, hdrop]
  rfl

/-! ## Whole runs -/

/-- The blocks of the functions of a machine. -/
def blocks (m : Machine σ) : List (Block Ty) := m.functions.flatMap fun f => f.decl.body.blocks

end Machine

/-- The blocks of a part of a program. -/
def Task.blocks : Task → List (Block Ty)
  | .exec _ st         => st.blocks
  | .execAll _ body    => stmtsBlocks body
  | .execBlock _ b     => b.blocks
  | .execCond _ c      => c.blocks
  | .execLoop _ _ body => body.blocks
  | _                  => []

/-- What a run begins with: the call of a function or the evaluation of an initializer. -/
def Task.IsEntry : Task → Prop
  | .call _ _ _ => True
  | .eval _ _   => True
  | _           => False

namespace Machine

variable {m : Machine σ} {x y z : Moment σ}

/-- Directly inside a part of the machine's functions lie only parts of them. -/
theorem Begins.blocks (h : m.Begins x y) (hx : ∀ b ∈ x.task.blocks, b ∈ m.blocks) :
    ∀ b ∈ y.task.blocks, b ∈ m.blocks := by
  intro b hb
  cases h with
  | @body _ _ _ _ _ _ f hf _ =>
      refine List.mem_flatMap.mpr ⟨f, List.mem_of_find?_eq_some hf, ?_⟩
      have hb : b ∈ stmtsBlocks f.decl.body.body := hb
      cases hbody : f.decl.body with
      | mk span body =>
          rw [hbody] at hb
          exact List.mem_cons_of_mem _ hb
  | block => exact hx b hb
  | cond => exact hx b hb
  | loop => exact hx b hb
  | first => exact hx b (List.mem_append_left _ hb)
  | next _ => exact hx b (List.mem_append_right _ hb)
  | inner => exact hx b (List.mem_cons_of_mem _ hb)
  | consequent _ => exact hx b (List.mem_append_left _ hb)
  | otherwise _ => exact hx b (List.mem_append_right _ hb)
  | otherwiseIf _ => exact hx b (List.mem_append_right _ hb)
  | round _ => exact hx b hb
  | repeated _ _ => exact hx b hb
  | _ => cases hb

theorem blocks_of_reaches (h : m.Reaches x y) (hx : ∀ b ∈ x.task.blocks, b ∈ m.blocks) :
    ∀ b ∈ y.task.blocks, b ∈ m.blocks := by
  induction h with
  | refl => exact hx
  | tail _ hstep ih => exact hstep.blocks ih

theorem blocks_of_isEntry {task : Task} (h : task.IsEntry) : ∀ b ∈ task.blocks, b ∈ m.blocks := by
  cases task <;> first | exact h.elim | exact fun _ hb => absurd hb List.not_mem_nil

/-- Statements that a run comes to belong to a block of a function that began in the run. -/
theorem continues_of_reaches (hx : x.task.IsEntry) (h : m.Reaches x y) {l' : Locals}
    {rest : List (Stmt Ty)} (hy : y.task = .execAll l' rest) :
    ∃ b ∈ m.blocks, ∃ d n l w, m.Reaches x ⟨d, n, .execAll l b.body, w⟩ ∧
      m.Continues ⟨d, n, .execAll l b.body, w⟩ y := by
  induction h generalizing l' rest with
  | refl =>
      rw [hy] at hx
      exact hx.elim
  | @tail z y hreach hstep ih =>
      have hz := blocks_of_reaches hreach (blocks_of_isEntry hx)
      cases hstep with
      | @body d n w name args span f hf hdeep =>
          refine ⟨f.decl.body, ?_, _, _, _, _, hreach.tail (.body hf hdeep), .refl⟩
          exact List.mem_flatMap.mpr
            ⟨f, List.mem_of_find?_eq_some hf, f.decl.body.mem_blocks_self⟩
      | @inner d n l w span body =>
          exact ⟨.mk span body, hz _ List.mem_cons_self, _, _, _, _, hreach.tail .inner, .refl⟩
      | next hrun =>
          obtain ⟨b, hb, d, n, l, w, hstart, hcont⟩ := ih rfl
          exact ⟨b, hb, d, n, l, w, hstart, hcont.next hrun⟩
      | _ => cases hy

/-- Whatever statement a run executes, it is a statement of a block of some function, and those
    before it in the block led to it. -/
theorem executes_of_reaches (hx : x.task.IsEntry) (h : m.Reaches x y) {l : Locals} {st : Stmt Ty}
    (hy : y.task = .exec l st) : ∃ b ∈ m.blocks, ∃ i, m.Executes x b.body i y := by
  cases h with
  | refl =>
      rw [hy] at hx
      exact hx.elim
  | @tail z _ hreach hstep =>
      cases hstep with
      | @first d n l w st rest =>
          obtain ⟨b, hb, d', n', l', w', hstart, hcont⟩ := continues_of_reaches hx hreach rfl
          obtain ⟨done, left, _, _, _, hz, hbody, -⟩ := hcont.split
          cases hz
          refine ⟨b, hb, done.length, ⟨d, n', l', w', n, l, st, rest, w, hstart, hcont, ?_, rfl⟩⟩
          rw [hbody, List.drop_left]
      | _ => cases hy

end Machine

end SceneScript
