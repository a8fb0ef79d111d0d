import SceneScript.Proofs.Eval.LoopFree
import SceneScript.Proofs.Instance.Typed
import SceneScript.Scene

/-!
# Scripts without loops always end

A script in which no `while` is written ends wherever it is run, whether or not it was accepted:
its globals are initialized and its functions called in finitely many steps, with a value or a
fault, however the functions call each other.

* **`Instance.machine_loopFree`** — checking brings no loop into a script.
* **`Instance.seedGlobals_ends`** — the globals of an instance, by induction over them.
* **`Instance.loopFree_ends`** — creating an instance of such a script, and calling it.
-/

namespace SceneScript

variable {σ α : Type}

/-- The operation came to its end, with a result or with a fault. -/
def Ran.Ended (r : Ran σ α) : Prop := (∃ a, r.result = .ok a) ∨ ∃ f, r.result = .error (.fault f)

theorem SteadyFrom.mono {x : Nat → Eval σ α} {n k : Nat} (h : SteadyFrom x n) (hle : n ≤ k) :
    SteadyFrom x k := by
  intro fuel hfuel w
  obtain ⟨hsame, hk⟩ := h k hle w
  rw [hsame]
  exact h fuel (Nat.le_trans hle hfuel) w

/-- A function of a program without a kind of node has none either. -/
theorem Tree.Avoids.function {p : Program Unit} {k : NodeKind} (h : p.tree.Avoids k)
    {f : FunctionDecl Unit} (hf : f ∈ p.functions) : (Declaration.function f).tree.Avoids k := by
  obtain ⟨d, hd, hdf⟩ := List.mem_filterMap.mp hf
  cases d with
  | global g => cases hdf
  | signal s => cases hdf
  | function g =>
      cases hdf
      exact h.child _ (List.mem_map_of_mem hd)

namespace Instance

variable (host : Host σ) {p : Program Unit} {script : Script} (a : Attachment)

/-- A machine that runs a checked program has a loop only where the program has one. -/
theorem machine_loopFree (hp : p.tree.Avoids .whileStatement)
    (hscript : script.checked = checkProgram p) : (machine host script a).LoopFree := by
  intro info (hinfo : info ∈ script.checked.functions)
  rw [hscript] at hinfo
  obtain ⟨f, hf, htree⟩ := checkProgram_function hinfo
  have hinfo := hp.function hf
  rw [← htree] at hinfo
  exact hinfo.child _ (List.mem_append_right _ List.mem_cons_self)

/-! ## Creating -/

/-- Fuel for every initializer in a list of globals. -/
noncomputable def initFuel (m : Machine σ) (globals : List GlobalInfo) : Nat :=
  (globals.map fun g => 2 * sizeOf g.decl.init).sum + m.callFuel 0

variable {m : Machine σ}

theorem seedGlobals_ends (hm : m.LoopFree) {enough fuel : Nat} (hfuel : enough ≤ fuel)
    (globals : List GlobalInfo) : initFuel m globals ≤ enough → ∀ w,
    seedGlobals m fuel globals w = seedGlobals m enough globals w ∧
      ∀ name s, seedGlobals m enough globals w ≠ (.error (name, .outOfFuel), s) := by
  induction globals with
  | nil => exact fun _ w => ⟨rfl, fun _ _ => nofun⟩
  | cons g rest ih =>
      intro hinit w
      rw [initFuel, List.map_cons, List.sum_cons] at hinit
      have hrest : initFuel m rest ≤ enough := by
        rw [initFuel]
        omega
      have hsteady := (Machine.steadyFrom_eval hm 0 [] g.decl.init).mono
        (show 2 * sizeOf g.decl.init + m.callFuel 0 ≤ enough by omega)
      obtain ⟨hsame, hends⟩ := hsteady fuel hfuel w
      dsimp only at hsame hends
      rw [seedGlobals, seedGlobals, hsame]
      cases hx : m.eval 0 [] enough g.decl.init w with
      | ok v w' => exact ih hrest _
      | error h w' =>
          refine ⟨rfl, ?_⟩
          rintro name s ⟨⟩
          exact hends w' hx

theorem create_ends (hm : (machine host script a).LoopFree) {enough fuel : Nat}
    (hfuel : enough ≤ fuel)
    (hinit : initFuel (machine host script a) script.checked.globals ≤ enough)
    (properties : List (Text × Value)) (state : σ) :
    create host fuel script a properties state = create host enough script a properties state ∧
      (create host enough script a properties state).Ended := by
  obtain ⟨hsame, hends⟩ := seedGlobals_ends hm hfuel script.checked.globals hinit ⟨[], state⟩
  rw [create, create, hsame]
  refine ⟨rfl, ?_⟩
  cases hseed : seedGlobals (machine host script a) enough script.checked.globals ⟨[], state⟩ with
  | mk seeded s =>
      cases seeded with
      | ok globals => exact .inl ⟨_, rfl⟩
      | error e =>
          obtain ⟨name, h⟩ := e
          cases h with
          | fault f => exact .inr ⟨f, rfl⟩
          | outOfFuel => exact absurd hseed (hends name s)

/-! ## Calling -/

theorem invoke_ends (i : Instance) (hm : (machine host i.script i.attachment).LoopFree)
    {enough fuel : Nat} (hfuel : enough ≤ fuel)
    (hcall : (machine host i.script i.attachment).callFuel 0 ≤ enough)
    (name : Text) (args : List Value) (state : σ) :
    i.invoke host fuel name args state = i.invoke host enough name args state ∧
      (i.invoke host enough name args state).2.Ended := by
  rw [invoke_eq, invoke_eq]
  cases receive i.script name args with
  | error cause => exact ⟨rfl, .inr ⟨_, rfl⟩⟩
  | ok bound =>
      obtain ⟨hsame, hends⟩ := (Machine.steadyFrom_call hm 0 name bound none).mono hcall fuel hfuel
        ⟨i.globals, state⟩
      dsimp only at hsame hends ⊢
      rw [hsame]
      refine ⟨rfl, ?_⟩
      cases hx : (machine host i.script i.attachment).call 0 enough name bound none
          ⟨i.globals, state⟩ with
      | ok v w => exact .inl ⟨v, rfl⟩
      | error h w =>
          cases h with
          | fault f => exact .inr ⟨f, rfl⟩
          | outOfFuel => exact absurd hx (hends w)

/-- A script without loops always ends, accepted or not. For every host and every way of attaching
    the script there is an amount of fuel that is enough for all of it: with that much or more,
    whatever the host's state, making an instance and calling any function with any arguments on
    any values of the globals gives a result or a fault, which no longer depends on the fuel. -/
theorem loopFree_ends (hp : p.tree.Avoids .whileStatement)
    (hscript : script.checked = checkProgram p) :
    ∃ enough, ∀ fuel, enough ≤ fuel → ∀ state : σ,
      (∀ properties,
        create host fuel script a properties state =
            create host enough script a properties state ∧
          (create host enough script a properties state).Ended) ∧
      ∀ globals name args,
        let i : Instance := ⟨script, a, globals⟩
        i.invoke host fuel name args state = i.invoke host enough name args state ∧
          (i.invoke host enough name args state).2.Ended := by
  have hm := machine_loopFree host a hp hscript
  refine ⟨initFuel (machine host script a) script.checked.globals,
    fun fuel hfuel state => ⟨fun properties => ?_, fun globals name args => ?_⟩⟩
  · exact create_ends host a hm hfuel (Nat.le_refl _) properties state
  · exact invoke_ends host ⟨script, a, globals⟩ hm hfuel (Nat.le_add_left _ _) name args state

/-- Two functions that call each other for ever, one of them with too many arguments. -/
def pingPong : Program Unit :=
  (parseSource
    "let n = ping(1); fn ping(n: i32) \x7b pong(n, n); \x7d fn pong(n: i32) \x7b ping(n); \x7d").program

/-- The script is not accepted and has no end of its own, but it ends wherever it is run. -/
theorem pingPong_ends :
    pingPong.tree.Avoids .whileStatement ∧ (checkProgram pingPong).functions.length = 2 ∧
    (checkProgram pingPong).diagnostics ≠ [] ∧
    ∃ enough, ∀ fuel, enough ≤ fuel → ∀ scene : Scene,
      (∀ properties, (create Scene.host fuel ⟨none, checkProgram pingPong⟩
        ⟨Scene.root, 256, .silent⟩ properties scene).Ended) ∧
      ∀ globals name args, ((⟨⟨none, checkProgram pingPong⟩, ⟨Scene.root, 256, .silent⟩, globals⟩ :
        Instance).invoke Scene.host fuel name args scene).2.Ended := by
  obtain ⟨hall, hfunctions, hrefused⟩ :
      pingPong.tree.preorder.all (·.kind ≠ .whileStatement) = true ∧
      (checkProgram pingPong).functions.length = 2 ∧
      (checkProgram pingPong).diagnostics ≠ [] := by decide +kernel
  have hloops : pingPong.tree.Avoids .whileStatement := fun n hn =>
    of_decide_eq_true (List.all_eq_true.mp hall n hn)
  have hscript : (⟨none, checkProgram pingPong⟩ : Script).checked = checkProgram pingPong := rfl
  obtain ⟨enough, hends⟩ :=
    loopFree_ends Scene.host ⟨Scene.root, 256, .silent⟩ hloops hscript
  refine ⟨hloops, hfunctions, hrefused, enough, fun fuel hfuel scene => ?_⟩
  obtain ⟨hcreate, hinvoke⟩ := hends fuel hfuel scene
  refine ⟨fun properties => ?_, fun globals name args => ?_⟩
  · rw [(hcreate properties).1]
    exact (hcreate properties).2
  · rw [(hinvoke globals name args).1]
    exact (hinvoke globals name args).2

end Instance

end SceneScript
