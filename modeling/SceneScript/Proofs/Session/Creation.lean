import SceneScript.Proofs.Eval.Quiet
import SceneScript.Proofs.Session.Safety

/-!
# Creating an instance does nothing else

An instance is made by running the initializers of its globals, and so is one that replaces
another. Either leaves the scene as it is, with all that was printed and emitted, and leaves
every instance that is there alone, whether the new one comes about or not. What can prevent it
is a division by zero, a dead node or a node that is not found.

* **`Checked.WellTyped.known_initializing`** — the initializers see only types that are known.
* **`Instance.create_quiet`** — a creation leaves its host alone.
* **`Session.OnlyAttaches`** — one more instance may be there, and nothing else has happened.
* **`Session.creation_onlyAttaches`** — so it is for every creation and every reload.
-/

namespace SceneScript

variable {σ : Type} {host : Host σ}

/-! ## Initializers -/

/-- What an initializer refers to has types that are known. -/
theorem Checked.WellTyped.known_initializing {c : Checked} (h : c.WellTyped)
    {before after : List GlobalInfo} (hsplit : c.globals = before ++ after) :
    Known (c.initializing before) where
  visible name v hv := by
    have hframe : Scope.inFrame? name (before.map GlobalInfo.declared) = some v := by
      simpa [initializing, Scope.find?] using hv
    obtain ⟨g, hg, rfl⟩ := List.mem_map.mp (List.mem_of_find?_eq_some hframe)
    obtain ⟨first, rest, hg⟩ := List.append_of_mem (List.mem_append_left after hg)
    exact (h.globals first g rest (hsplit.trans hg)).storable
  functions name f hf := by
    obtain ⟨info, hinfo, rfl⟩ := List.mem_map.mp (List.mem_of_find?_eq_some hf)
    exact ⟨(h.functions info hinfo).returns, (h.functions info hinfo).params⟩
  signals name signal hs := h.signals signal (List.mem_of_find?_eq_some hs)

namespace Instance

/-- An initializer changes no global, and the host only by asking it. -/
theorem looks_init {R : Changes σ} {script : Script} {a : Attachment}
    (hc : script.checked.WellTyped) (hh : host.Looks R) (fuel : Nat)
    {before after : List GlobalInfo} {g : GlobalInfo}
    (hsplit : script.checked.globals = before ++ g :: after) :
    OnlyLooks R ((machine host script a).eval 0 [] fuel g.decl.init) := by
  have hwell := hc.globals before g after hsplit
  obtain ⟨t, ht, hfit⟩ := hwell.init
  have hknown : Known ((machine host script a).around false
      [before.map GlobalInfo.declared]) := hc.known_initializing hsplit
  exact (Machine.looksAt hh hknown fuel).eval ht (hfit.ne_void hwell.storable)

/-- Where the host is not changed by being asked, an initializer changes nothing at all. -/
theorem quiet_init {script : Script} {a : Attachment} (hc : script.checked.WellTyped)
    (hh : host.IsObserved) (fuel : Nat) {before after : List GlobalInfo} {g : GlobalInfo}
    (hsplit : script.checked.globals = before ++ g :: after) :
    Quiet ((machine host script a).eval 0 [] fuel g.decl.init) :=
  (looks_init hc hh.looks fuel hsplit).quiet

/-- Initializers one after the other change the globals and nothing else. -/
theorem seedGlobals_quiet {script : Script} {a : Attachment} (hc : script.checked.WellTyped)
    (hh : host.IsObserved) (fuel : Nat) (after : List GlobalInfo) :
    ∀ (before : List GlobalInfo) (w : World σ), script.checked.globals = before ++ after →
      (seedGlobals (machine host script a) fuel after w).2 = w.host ∧
      ∀ name h, (seedGlobals (machine host script a) fuel after w).1 = .error (name, h) →
        h.IsShallow := by
  induction after with
  | nil => exact fun before w _ => ⟨rfl, fun _ _ h => by cases h⟩
  | cons g rest ih =>
      intro before w hsplit
      have hquiet := quiet_init (a := a) hc hh fuel hsplit
      rw [seedGlobals]
      cases hx : (machine host script a).eval 0 [] fuel g.decl.init w with
      | error h w' =>
          obtain ⟨rfl, hshallow⟩ := (ends_of_error hx).mp (hquiet w)
          refine ⟨rfl, fun _ _ he => ?_⟩
          cases he
          exact hshallow
      | ok v w' =>
          obtain rfl : w' = w := (ends_of_ok hx).mp (hquiet w)
          exact ih (before ++ [g]) { w' with globals := w'.globals.set g.name _ }
            (by rw [hsplit, List.append_assoc]; rfl)

/-- A creation leaves its host alone, and no call in it is too deep. -/
theorem create_quiet {script : Script} (hc : script.checked.WellTyped) (hh : host.IsObserved)
    (fuel : Nat) (a : Attachment) (properties : List (Text × Value)) (state : σ) :
    (create host fuel script a properties state).host = state ∧
      ∀ h, (create host fuel script a properties state).result = .error h → h.IsShallow := by
  obtain ⟨hhost, hshallow⟩ := seedGlobals_quiet (a := a) hc hh fuel script.checked.globals []
    ⟨[], state⟩ rfl
  rw [create]
  cases hseed : seedGlobals (machine host script a) fuel script.checked.globals ⟨[], state⟩ with
  | mk seeded state' =>
      rw [hseed] at hhost hshallow
      cases seeded with
      | error e =>
          refine ⟨hhost, fun h he => ?_⟩
          cases he
          exact hshallow e.1 e.2 rfl
      | ok globals => exact ⟨hhost, fun _ he => by cases he⟩

end Instance

/-! ## Sessions -/

/-- A scene is not changed by being asked. -/
theorem Scene.hostWith_isObserved (onPrint : PrintHook) : (hostWith onPrint).IsObserved where
  isAlive _ _ := rfl
  sameNode _ _ _ := rfl
  getProperty ref field s := by
    show Ends (query fun s => s.getProperty ref field) s _ _
    rw [Ends, query]
    cases s.getProperty ref field <;> rfl
  getNode _ _ _ := rfl
  getParent _ _ := rfl
  findChild _ _ _ := rfl

namespace Session

variable {s : Session}

/-- The scene and all instances are as they were, and an instance may have come behind them; a
    fault is a division by zero, the use of a dead node or a node that is not found. -/
structure OnlyAttaches (s s' : Session) (reply : Reply) : Prop where
  scene     : s'.scene = s.scene
  instances : s.instances <+: s'.instances
  fault     : ∀ f, reply = .halted (.fault f) →
    f.kind = .divisionByZero ∨ f.kind = .invalidReference ∨ f.kind = .nodeNotFound

/-- The instance comes from a creation that left its host alone. -/
theorem onlyAttaches_attach {ran : Ran Scene Instance} (hhost : ran.host = s.scene)
    (hord : match ran.result with
      | .ok i    => i.Typed
      | .error h => h.IsOrdinary)
    (hshallow : ∀ h, ran.result = .error h → h.IsShallow) :
    s.OnlyAttaches (s.attach ran).1 (s.attach ran).2 := by
  rw [attach]
  cases hres : ran.result with
  | ok i =>
      exact ⟨hhost, List.prefix_append s.instances [i], fun _ hf => Reply.noConfusion hf⟩
  | error h =>
      refine ⟨hhost, List.prefix_rfl, fun f hf => ?_⟩
      rw [hres] at hord
      cases hf
      have hdeep : f.kind ≠ .stackOverflow := hshallow _ hres
      rcases hord with hk | hk | hk | hk
      · exact .inl hk
      · exact .inr (.inl hk)
      · exact absurd hk hdeep
      · exact .inr (.inr hk)

/-- A creation attaches an instance and does nothing else, whatever is logged about it. -/
theorem onlyAttaches_create (onPrint : PrintHook) (s : Session) (fuel : Nat)
    (script : AcceptedScript) (a : Attachment) (properties : List (Text × Value))
    {ran : Ran Scene Instance} {log : List LogEvent}
    (hran : ran = { Instance.create (Scene.hostWith onPrint) fuel script.1 a properties s.scene
      with log := log }) :
    s.OnlyAttaches (s.attach ran).1 (s.attach ran).2 := by
  obtain ⟨hhost, hshallow⟩ := Instance.create_quiet script.2.wellTyped
    (Scene.hostWith_isObserved onPrint) fuel a properties s.scene
  obtain ⟨-, hord⟩ := Instance.create_sound script.2.wellTyped
    (Scene.hostWith_keeps onPrint _) fuel a properties s.scene
  subst hran
  exact onlyAttaches_attach hhost hord hshallow

/-- Making an instance of a script that compiles, new or in place of another one, leaves the
    whole scene and every instance as they were, also when it fails. -/
theorem creation_onlyAttaches (onPrint : PrintHook) (s : Session) :
    (∀ fuel script a properties,
      s.OnlyAttaches (s.step onPrint (.create fuel script a properties)).1
        (s.step onPrint (.create fuel script a properties)).2) ∧
    ∀ fuel k script,
      s.OnlyAttaches (s.step onPrint (.reload fuel k script)).1
        (s.step onPrint (.reload fuel k script)).2 := by
  refine ⟨fun fuel script a properties => ?_, fun fuel k script => ?_⟩
  · exact onlyAttaches_create onPrint s fuel script a properties rfl
  · rw [step]
    cases hk : s.instances[k]? with
    | none => exact ⟨rfl, List.prefix_rfl, fun _ hf => Reply.noConfusion hf⟩
    | some i =>
        exact onlyAttaches_create onPrint s fuel script i.attachment (i.carriedOver script.1) rfl

/-- A script that needs a parent. -/
def needingParent : AcceptedScript :=
  (AcceptedScript.ofText? "let p = get_parent();").get (by decide +kernel)

example : (step (fun _ _ => []) ⟨Scene.ofRoot "root", []⟩
    (.create 9 needingParent ⟨Scene.root, 256, .silent⟩ [])).2 =
      .halted (.fault ⟨.noParent, some ⟨⟨8, 0, 8⟩, ⟨20, 0, 20⟩⟩, []⟩) := by decide +kernel

end Session

end SceneScript
