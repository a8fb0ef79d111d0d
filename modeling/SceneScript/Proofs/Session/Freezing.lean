import SceneScript.Proofs.Eval.Freezing
import SceneScript.Proofs.Session.Serving

/-!
# Following the advice about `mut`

Whoever is told that a local variable is never assigned may take its `mut` away, and that of any
others that were reported. The script has the types, properties and signals it had, the checker has
as much to say about it as before, no warning is new, and no host sees a difference.

* **`Script.Edited.standsIn_freeze`** — without the flags a script can take its own place.
* **`needlessMut_removable`** — the whole.
-/

namespace SceneScript

variable {σ : Type} {chosen : Ident → Bool}

theorem Instance.seedGlobals_freeze (m : Machine σ) (fuel : Nat) (gs : List GlobalInfo) :
    ∀ w, seedGlobals (m.edit (.freeze chosen)) fuel gs w = seedGlobals m fuel gs w := by
  induction gs with
  | nil => exact fun _ => rfl
  | cons g rest ih =>
      intro w
      rw [seedGlobals, seedGlobals, (m.frozenAt chosen fuel).eval]
      cases m.eval 0 [] fuel g.decl.init w with
      | ok v w' => exact ih _
      | error h w' => rfl

/-- A script that lost the flags of some variables can take the place of the one with them, on any
    host. -/
theorem Script.Edited.standsIn_freeze {s s' : Script} (h : Edited (.freeze chosen) s s')
    (host : Host σ) : StandsIn host (fun _ => True) s s' := by
  have hmachine : ∀ a, Instance.machine host s' a =
      (Instance.machine host s a).edit (.freeze chosen) := by
    intro a
    rw [Instance.machine, h.functions, h.signals]
    rfl
  refine ⟨h.properties, h.lifecycle, fun fuel a properties state => h.create ?_ properties,
    fun i hi _ fuel name args state => h.invoke hi fun bound _ => ?_, fun _ _ _ _ _ _ => trivial,
    fun _ _ _ _ _ _ _ => trivial, fun _ _ _ _ _ _ _ => trivial⟩
  · rw [hmachine, Instance.seedGlobals_freeze]
  · rw [hmachine, (Machine.frozenAt _ chosen fuel).call]

/-- A `mut` that is reported as not needed may go, and so may any set of them at once. The script
    without them is accepted if it was before, and by the same diagnostics refused if not; its
    bindings have the same types, and it has the same globals, properties, signals, callbacks and
    functions, but for the flags. Whichever rules are asked, no warning is new. And from its
    creation on, no host sees an instance do anything else. -/
theorem needlessMut_removable (p : Program Unit) (rules : LintRules) (chosen : Ident → Bool)
    (h : ∀ id, chosen id = true → ∃ symbol ∈ (checkProgram p).symbols, symbol.declared.id = id ∧
      (LintProblem.needlessMut id.name).diagnostic id.span ∈ lintSymbol rules symbol) :
    let q := p.edit (.freeze chosen)
    ((checkProgram q).diagnostics = (checkProgram p).diagnostics ∧
      (checkProgram q).bindings = (checkProgram p).bindings ∧
      (checkProgram q).functions = (checkProgram p).functions.map (·.edit (.freeze chosen)) ∧
      (checkProgram q).globals = (checkProgram p).globals ∧
      (checkProgram q).properties = (checkProgram p).properties ∧
      (checkProgram q).signals = (checkProgram p).signals ∧
      (checkProgram q).lifecycle = (checkProgram p).lifecycle) ∧
    (∀ rules : LintRules, (lint rules q (checkProgram q).symbols).Sublist
      (lint rules p (checkProgram p).symbols)) ∧
    ∀ {σ : Type} (host : Host σ) filename fuel a properties state requests,
      Script.life host fuel ⟨filename, checkProgram q⟩ a properties state requests =
        Script.life host fuel ⟨filename, checkProgram p⟩ a properties state requests := by
  intro q
  have hun := unassigned_of_reported h
  obtain ⟨hfunctions, hglobals, hsignals, hfound⟩ := checkProgram_freeze hun
  have hedited : ∀ filename : Option String, Script.Edited (.freeze chosen)
      ⟨filename, checkProgram p⟩ ⟨filename, checkProgram q⟩ := fun _ =>
    ⟨hfunctions, hglobals, hsignals⟩
  refine ⟨⟨findingDiagnostics_freeze hfound, findingBindings_freeze hfound, hfunctions, hglobals,
    (hedited none).properties, hsignals, (hedited none).lifecycle⟩, lint_freeze hun, ?_⟩
  intro σ host filename fuel a properties state requests
  exact ((hedited filename).standsIn_freeze host).life fuel a properties state requests

/-- A script with two variables of one name, of which the inner one is assigned. -/
def twoCounters : Program Unit :=
  (parseSource
    "fn f() -> i32 \x7b let mut n = 1; if true \x7b let mut n = 2; n += 1; \x7d return n; \x7d").program

/-- The outer one. -/
def outerCounter : Ident := ⟨"n", ⟨⟨24, 0, 24⟩, ⟨25, 0, 25⟩⟩⟩

theorem needlessMut_removable_outer :
    (∃ symbol ∈ (checkProgram twoCounters).symbols, symbol.declared.id = outerCounter ∧
      (LintProblem.needlessMut outerCounter.name).diagnostic outerCounter.span ∈
        lintSymbol {} symbol) ∧
    (checkProgram (twoCounters.edit (.freeze (· == outerCounter)))).diagnostics = [] ∧
    (∀ rules : LintRules,
      (lint rules (twoCounters.edit (.freeze (· == outerCounter)))
        (checkProgram (twoCounters.edit (.freeze (· == outerCounter)))).symbols).Sublist
      (lint rules twoCounters (checkProgram twoCounters).symbols)) ∧
    ∀ requests, Script.life Scene.host 9
        ⟨none, checkProgram (twoCounters.edit (.freeze (· == outerCounter)))⟩
        ⟨Scene.root, 256, .silent⟩ [] (Scene.ofRoot "root") requests =
      Script.life Scene.host 9 ⟨none, checkProgram twoCounters⟩
        ⟨Scene.root, 256, .silent⟩ [] (Scene.ofRoot "root") requests := by
  obtain ⟨hreported, haccepted⟩ :
      (∃ symbol ∈ (checkProgram twoCounters).symbols, symbol.declared.id = outerCounter ∧
        (LintProblem.needlessMut outerCounter.name).diagnostic outerCounter.span ∈
          lintSymbol {} symbol) ∧
      (checkProgram twoCounters).diagnostics = [] := by decide +kernel
  have hremovable := needlessMut_removable twoCounters {} (· == outerCounter) fun id hid => by
    rw [beq_iff_eq.mp hid]
    exact hreported
  exact ⟨hreported, hremovable.1.1.trans haccepted, hremovable.2.1, fun requests =>
    hremovable.2.2 Scene.host none 9 _ [] _ requests⟩

end SceneScript
