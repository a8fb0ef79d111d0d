import SceneScript.Proofs.Eval.Execution
import SceneScript.Proofs.Eval.Results
import SceneScript.Proofs.Typing.Accepted
import SceneScript.Proofs.Typing.Annotated

/-!
# What is reported as unreachable is dead

One recursion over the shape of statements decides three things: whether a function with a result is
accepted, what is reported as unreachable, and whether a call can be left without a result. Here
they are tied to what the code does, in any run of any script on any host.

* **`Machine.ExecutesIn`** — in a run, a statement of a block of the script is executed.
* **`mem_lint_unreachable`** — where the statement that a warning is about stands.
* **`Checked.WellTyped.returnsResults`** — the functions of an accepted script return their results.
* **`alwaysReturns_sound`** — the whole: such statements never fall through, what stands behind them
  is never executed, and no function of an accepted script ends without its result.
-/

namespace SceneScript

/-- In the run from `x`, statement `i` of a block of the script is executed from `y` on. -/
def Machine.ExecutesIn {σ : Type} (m : Machine σ) (x : Moment σ) (b : Block Unit) (i : Nat)
    (y : Moment σ) : Prop :=
  ∃ typed : Block Ty, typed.edit .forget = b ∧ m.Executes x typed.body i y

theorem Machine.ExecutesIn.live {σ : Type} {m : Machine σ} {x y : Moment σ} {b : Block Unit}
    {i : Nat} (h : m.ExecutesIn x b i y) : anyReturns (b.body.take i) = false := by
  obtain ⟨typed, rfl, hexec⟩ := h
  rw [Block.body_edit, ← List.map_take, ← stmtsEdit_eq, anyReturns_edit]
  exact hexec.live

/-- A script's functions run: whatever statement is executed, it stands in a block of the script. -/
theorem Machine.executesIn_of_reaches {σ : Type} {m : Machine σ} {p : Program Unit}
    (hm : m.functions = (checkProgram p).functions) {x y : Moment σ} (hx : x.task.IsEntry)
    (h : m.Reaches x y) {l : Locals} {st : Stmt Ty} (hy : y.task = .exec l st) :
    ∃ f ∈ p.functions, ∃ b ∈ f.body.blocks, ∃ i, m.ExecutesIn x b i y := by
  obtain ⟨typed, hb, i, hexec⟩ := m.executes_of_reaches hx h hy
  rw [Machine.blocks, hm] at hb
  obtain ⟨f, hf, hmem⟩ := checkProgram_blocks hb
  exact ⟨f, hf, _, hmem, i, typed, rfl, hexec⟩

/-- A warning about unreachable code is about the first statement behind an exit of some block. -/
theorem mem_lint_unreachable {rules : LintRules} {p : Program Unit} {symbols : List SymbolInfo}
    {d : Diagnostic} (hd : d ∈ lint rules p symbols) (hcode : d.code = "W002") :
    ∃ f ∈ p.functions, ∃ b ∈ f.body.blocks, ∃ before exit first later,
      b.body = before ++ exit :: first :: later ∧ exit.alwaysReturns = true ∧
      d = LintProblem.unreachable.diagnostic first.span := by
  rcases List.mem_append.mp hd with hd | hd
  -- The rules on variables have codes of their own.
  · obtain ⟨s, -, hs⟩ := List.mem_flatMap.mp hd
    simp only [lintSymbol] at hs
    split at hs
    · cases hs
    · have other : ∀ q : LintProblem, q.code ≠ "W002" → d ≠ q.diagnostic s.declared.id.span :=
        fun q hq hd => hq (by rw [hd] at hcode; exact hcode)
      rcases List.mem_append.mp hs with hs | hs
      all_goals
        split at hs
        · exact absurd (List.mem_singleton.mp hs) (other _ (by simp [LintProblem.code]))
        · cases hs
  · split at hd
    · obtain ⟨first, hfirst, rfl⟩ := List.mem_map.mp hd
      obtain ⟨f, hf, hmem⟩ := List.mem_flatMap.mp hfirst
      rw [Block.unreachable_eq] at hmem
      obtain ⟨b, hb, hdead⟩ := List.mem_filterMap.mp hmem
      obtain ⟨before, exit, later, hbody, hexit⟩ := firstUnreachable?_eq_some hdead
      exact ⟨f, hf, b, hb, before, exit, first, later, hbody, hexit, rfl⟩
    · cases hd

/-- The functions of a script that obeys the rules return their results. -/
theorem Checked.WellTyped.returnsResults {σ : Type} {c : Checked} (h : c.WellTyped)
    {m : Machine σ} (hm : m.functions = c.functions) : m.ReturnsResults := fun f hf =>
  (h.functions f (hm ▸ hf)).ends

/-- Statements that always return are what they are called, in any code on any host: running one
    never leads to a next statement. So nothing that is reported as unreachable is ever executed,
    nor what stands behind it in its block, although everything that a run executes stands in a
    block of the script; and where nothing is reported at all, no call of a function with a result
    ever ends without one. -/
theorem alwaysReturns_sound (p : Program Unit) :
    (∀ {σ : Type} (m : Machine σ) depth fuel locals (st : Stmt Ty) w, st.alwaysReturns = true →
      ∀ locals' w', m.exec depth fuel locals st w ≠ .ok (.next locals') w') ∧
    (∀ {σ : Type} (m : Machine σ) x y locals st, m.functions = (checkProgram p).functions →
      x.task.IsEntry → m.Reaches x y → y.task = .exec locals st →
      ∃ f ∈ p.functions, ∃ b ∈ f.body.blocks, ∃ i, m.ExecutesIn x b i y) ∧
    (∀ rules symbols, ∀ d ∈ lint rules p symbols, d.code = "W002" →
      ∃ f ∈ p.functions, ∃ b ∈ f.body.blocks, ∃ live first dead,
        b.body = live ++ first :: dead ∧ d.span = first.span ∧
        ∀ {σ : Type} (m : Machine σ) x i y, m.ExecutesIn x b i y → i < live.length) ∧
    ((checkProgram p).diagnostics = [] →
      ∀ {σ : Type} (m : Machine σ), m.functions = (checkProgram p).functions →
      (∀ f ∈ m.functions, f.signature.returns ≠ .void → ∀ depth fuel locals w locals' w',
        m.execAll depth fuel locals f.decl.body.body w ≠ .ok (.next locals') w') ∧
      ∀ depth fuel name args span w fault w',
        m.call depth fuel name args span w = .error (.fault fault) w' →
        ∀ function t, fault.cause ≠ .noReturn function t) := by
  refine ⟨fun m depth fuel locals st w hst locals' w' hrun => ?_,
    fun m x y locals st hm hx hreach hy => m.executesIn_of_reaches hm hx hreach hy,
    fun rules symbols d hd hcode => ?_, fun hnone σ m hm => ?_⟩
  · rw [Machine.alwaysReturns_of_next hrun] at hst
    cases hst
  · obtain ⟨f, hf, b, hb, before, exit, first, later, hbody, hexit, rfl⟩ :=
      mem_lint_unreachable hd hcode
    refine ⟨f, hf, b, hb, before ++ [exit], first, later, ?_, rfl, fun m x i y hexec => ?_⟩
    · rw [hbody, List.append_assoc, List.singleton_append]
    -- From its place on the statement has the exit before it.
    · by_contra hle
      have hlive := hexec.live
      have htake : b.body.take i =
          before ++ exit :: (first :: later).take (i - (before.length + 1)) := by
        rw [hbody, List.take_append, List.take_of_length_le]
        · congr 1
          rw [List.length_append, List.length_singleton] at hle
          rw [show i - before.length = i - (before.length + 1) + 1 by omega, List.take_succ_cons]
        · rw [List.length_append] at hle
          omega
      rw [htake, Machine.anyReturns_append, anyReturns, hexit, Bool.true_or, Bool.or_true] at hlive
      cases hlive
  · have hwt := (Program.wellTyped_of_diagnostics hnone).returnsResults hm
    refine ⟨fun f hf hvoid depth fuel locals w locals' w' hrun => ?_,
      fun depth fuel name args span w fault w' hrun function t hcause => ?_⟩
    · cases Machine.fallsThrough_of_alwaysReturns ((hwt f hf).resolve_left hvoid) hrun
    · have hcomplete := (Machine.completeAt hwt fuel).call depth name args span w fault w' hrun
      rw [hcause] at hcomplete
      cases hcomplete

/-- A script with a statement behind a `return`. -/
def leavingEarly : Program Unit :=
  (parseSource "fn f() -> i32 \x7b return 1; print(2); \x7d").program

theorem alwaysReturns_sound_early :
    (checkProgram leavingEarly).diagnostics = [] ∧
    ∃ d ∈ lint {} leavingEarly (checkProgram leavingEarly).symbols, d.code = "W002" ∧
      ∃ f ∈ leavingEarly.functions, ∃ b ∈ f.body.blocks, ∃ live first dead,
        b.body = live ++ first :: dead ∧ d.span = first.span ∧
        ∀ {σ : Type} (m : Machine σ) x i y, m.ExecutesIn x b i y → i < live.length := by
  have hd : LintProblem.unreachable.diagnostic ⟨⟨26, 0, 26⟩, ⟨35, 0, 35⟩⟩ ∈
      lint {} leavingEarly (checkProgram leavingEarly).symbols := by decide +kernel
  exact ⟨by decide +kernel, _, hd, rfl, (alwaysReturns_sound leavingEarly).2.2.1 {} _ _ hd rfl⟩

end SceneScript
