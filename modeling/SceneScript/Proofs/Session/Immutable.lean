import SceneScript.Proofs.Session.Safety

/-!
# Immutable globals never change

Running code stores every assignment back to the variable it began with, also one that only
writes through a node. That a global without `mut` keeps its value follows from the rules: such
a global is the target of an assignment only when it holds a node and a field of the node is
written, and then the node itself is what is stored back. Properties that the host sets are
mutable globals, and an edit of the scene reaches no global at all.

* **`Instance.Becomes`** — an instance at a later time; every operation leads to one.
* **`Session.Becomes`** — every instance keeps its place in a session and becomes a later one.
* **`Session.immutable_since_create`** — an immutable global has in every later state the value
  that it had when its instance was created.
-/

namespace SceneScript

/-! ## One instance -/

namespace Instance

variable {σ : Type} {R : Changes σ} {host : Host σ} {i i' i'' : Instance}

theorem Becomes.refl (i : Instance) : i.Becomes i := ⟨rfl, .refl _ _⟩

theorem Becomes.trans (h : i.Becomes i') (h' : i'.Becomes i'') : i.Becomes i'' := by
  refine ⟨h'.script.trans h.script, h.globals.trans ?_⟩
  rw [← h.script]
  exact h'.globals

/-- Only mutable globals are exported, so a property that is set is one of them. -/
theorem Typed.becomes_setProperty (h : i.Typed) {name : Text} {v : Value}
    (hset : i.setProperty name v = .ok i') : i.Becomes i' := by
  obtain ⟨p, w, hp, rfl, -, rfl⟩ := setProperty_cases hset
  obtain ⟨g, hg, hname, -, hmut⟩ := h.script.property_global hp
  refine ⟨rfl, .set fun x hx hfix => ?_⟩
  rw [hname, h.script.inFrame?_global hg] at hx
  cases hx
  exact absurd (hmut.symm.trans hfix) Bool.noConfusion

/-- A call, whichever way it ends. -/
theorem Typed.becomes_invoke (h : i.Typed) (hk : host.Keeps i.script.checked.signals R)
    (fuel : Nat) (name : Text) (args : List Value) (state : σ) :
    i.Becomes (i.invoke host fuel name args state).1 := by
  rcases invoke_sound h hk fuel name args state with
    ⟨cause, -, hx⟩ | ⟨f, i', ran, -, hx, -, hbecomes, -⟩
  · rw [hx]
    exact .refl i
  · rw [hx]
    exact hbecomes

theorem Typed.becomes_invokeLifecycle (h : i.Typed)
    (hk : host.Keeps i.script.checked.signals R) (fuel : Nat) (callback : Lifecycle)
    (args : List Value) (state : σ) :
    i.Becomes (i.invokeLifecycle host fuel callback args state).1 := by
  rw [invokeLifecycle]
  split
  · exact h.becomes_invoke hk fuel _ args state
  · exact .refl i

theorem setProperties_script (properties : List (Text × Value)) :
    ∀ i : Instance, (i.setProperties properties).1.script = i.script := by
  induction properties with
  | nil => exact fun i => rfl
  | cons e rest ih =>
      intro i
      rw [setProperties]
      cases hset : i.setProperty e.1 e.2 with
      | ok i' =>
          obtain ⟨p, w, -, -, -, rfl⟩ := setProperty_cases hset
          exact ih _
      | error e => exact ih i

/-- What is created is an instance of the script. -/
theorem create_script {fuel : Nat} {script : Script} {a : Attachment}
    {properties : List (Text × Value)} {state : σ}
    (h : (create host fuel script a properties state).result = .ok i) : i.script = script := by
  unfold create at h
  split at h
  · cases h
  · cases h
    exact setProperties_script properties _

/-- An immutable global of an instance has one value, now and later. -/
theorem Typed.immutable (h : i.Typed) (hb : i.Becomes i') {g : GlobalInfo}
    (hg : g ∈ i.script.checked.globals) (hfix : g.decl.mutable = false) :
    ∃ v, i.globals.find? g.name = some v ∧ i'.globals.find? g.name = some v := by
  obtain ⟨v, hv, -⟩ := h.global hg
  have hsame := hb.globals g.name g.declared (h.script.inFrame?_global hg) hfix
  exact ⟨v, hv, hsame.trans hv⟩

end Instance

/-! ## All instances of a session -/

namespace Session

variable {s s' s'' : Session}

/-- Every instance keeps its place, and the one there is the same at a later time. -/
def Becomes (s s' : Session) : Prop :=
  ∀ (k : Nat) (i : Instance), s.instances[k]? = some i →
    ∃ i', s'.instances[k]? = some i' ∧ i.Becomes i'

theorem Becomes.refl (s : Session) : s.Becomes s := fun _ i hk => ⟨i, hk, .refl i⟩

theorem Becomes.trans (h : s.Becomes s') (h' : s'.Becomes s'') : s.Becomes s'' := by
  intro k i hk
  obtain ⟨i', hk', hi'⟩ := h k i hk
  obtain ⟨i'', hk'', hi''⟩ := h' k i' hk'
  exact ⟨i'', hk'', hi'.trans hi''⟩

/-- A new instance comes behind those that are there. -/
theorem becomes_attach (s : Session) (ran : Ran Scene Instance) :
    s.Becomes (s.attach ran).1 := by
  intro k i hk
  refine ⟨i, ?_, .refl i⟩
  have hlt := (List.getElem?_eq_some_iff.mp hk).1
  rw [attach]
  cases ran.result with
  | ok new => rw [List.getElem?_append_left hlt, hk]
  | error h => exact hk

/-- A later instance takes the place of the one it came from. -/
theorem becomes_set {k : Nat} {i i' : Instance} (hk : s.instances[k]? = some i)
    (hi : i.Becomes i') (scene : Scene) : s.Becomes ⟨scene, s.instances.set k i'⟩ := by
  intro n j hn
  have hlt := (List.getElem?_eq_some_iff.mp hn).1
  by_cases hkn : k = n
  · subst hkn
    cases hk.symm.trans hn
    exact ⟨i', List.getElem?_set_self hlt, hi⟩
  · exact ⟨j, by rw [List.getElem?_set_ne hkn, hn], .refl j⟩

/-- One action. -/
theorem step_becomes (onPrint : PrintHook) (h : s.Typed) (a : Action) :
    s.Becomes (s.step onPrint a).1 := by
  have htyped : ∀ {k : Nat} {i : Instance}, s.instances[k]? = some i → i.Typed := fun hk =>
    h _ (List.mem_of_getElem? hk)
  cases a with
  | edit e => exact fun k i hk => ⟨i, hk, .refl i⟩
  | create fuel script a properties => exact s.becomes_attach _
  | reload fuel k script =>
      rw [step]
      cases hk : s.instances[k]? with
      | none => exact .refl s
      | some i => exact s.becomes_attach _
  | invoke fuel k name args =>
      rw [step]
      cases hk : s.instances[k]? with
      | none => exact .refl s
      | some i =>
          have hi := (htyped hk).becomes_invoke (Scene.hostWith_keeps onPrint _) fuel name args
            s.scene
          exact becomes_set hk hi _
  | lifecycle fuel k callback args =>
      rw [step]
      cases hk : s.instances[k]? with
      | none => exact .refl s
      | some i =>
          have hi := (htyped hk).becomes_invokeLifecycle (Scene.hostWith_keeps onPrint _) fuel
            callback args s.scene
          exact becomes_set hk hi _
  | setProperty k name v =>
      rw [step]
      cases hk : s.instances[k]? with
      | none => exact .refl s
      | some i =>
          dsimp only
          cases hset : i.setProperty name v with
          | error e => exact .refl s
          | ok i' => exact becomes_set hk ((htyped hk).becomes_setProperty hset) s.scene

/-- Any number of actions. -/
theorem run_becomes (onPrint : PrintHook) (actions : List Action) :
    ∀ {s : Session}, s.Typed → s.Becomes (s.run onPrint actions) := by
  induction actions with
  | nil => exact fun {s} _ => .refl s
  | cons a rest ih =>
      intro s h
      exact (step_becomes onPrint h a).trans (ih (step_sound onPrint h a).typed)

theorem run_append (onPrint : PrintHook) (s : Session) (before : List Action) (a : Action)
    (after : List Action) : run onPrint s (before ++ a :: after) =
      run onPrint ((run onPrint s before).step onPrint a).1 after := by
  rw [run, List.foldl_append, List.foldl_cons]
  rfl

/-- Whatever was done before and whatever is done after an instance was created, edits of the
    scene, calls and callbacks that end in whichever way, and properties that are set, a global
    of it without `mut` has the value that it had when the creation returned. -/
theorem immutable_since_create (onPrint : PrintHook) (scene : Scene) (history later : List Action)
    (fuel : Nat) (script : AcceptedScript) (a : Attachment) (properties : List (Text × Value))
    (i : Instance)
    (h : (Instance.create (Scene.hostWith onPrint) fuel script.1 a properties
      (run onPrint ⟨scene, []⟩ history).scene).result = .ok i) :
    ∃ i', (run onPrint ⟨scene, []⟩
        (history ++ .create fuel script a properties :: later)).instances[
          (run onPrint ⟨scene, []⟩ history).instances.length]? = some i' ∧
      ∀ g ∈ script.1.checked.globals, g.decl.mutable = false →
        ∃ v, i.globals.find? g.name = some v ∧ i'.globals.find? g.name = some v := by
  have htyped := run_typed onPrint scene history
  have hafter := (step_sound onPrint htyped (.create fuel script a properties)).typed
  -- The new instance comes behind the others, and from there the rest of the run takes it on.
  have hnew : ((run onPrint ⟨scene, []⟩ history).step onPrint
      (.create fuel script a properties)).1.instances[
        (run onPrint ⟨scene, []⟩ history).instances.length]? = some i := by
    rw [step, attach, h]
    exact List.getElem?_concat_length
  have hscript : i.script = script.1 := Instance.create_script h
  obtain ⟨i', hi', hbecomes⟩ := run_becomes onPrint later hafter _ i hnew
  refine ⟨i', by rw [run_append, hi'], fun g hg hfix => ?_⟩
  exact (hafter i (List.mem_of_getElem? hnew)).immutable hbecomes (hscript ▸ hg) hfix

/-- A script that writes through an immutable global, shadows it and faults. -/
def shadowing : AcceptedScript :=
  (AcceptedScript.ofText? "let n = self; fn f() { n.rotation = 1; let n = 1 / 0; }").get
    (by decide +kernel)

theorem immutable_since_create_shadowing :
    ∃ i i' : Instance,
      (Instance.create (Scene.hostWith fun _ _ => []) 9 shadowing.1 ⟨Scene.root, 256, .silent⟩ []
        (Scene.ofRoot "root")).result = .ok i ∧
      (run (fun _ _ => []) ⟨Scene.ofRoot "root", []⟩
        [.create 9 shadowing ⟨Scene.root, 256, .silent⟩ [], .invoke 20 0 "f" []]).instances[0]? =
          some i' ∧
      shadowing.1.checked.globals.length = 1 ∧
      ∀ g ∈ shadowing.1.checked.globals, g.decl.mutable = false ∧
        ∃ v, i.globals.find? g.name = some v ∧ i'.globals.find? g.name = some v := by
  have ⟨hmade, hone, hfix⟩ : (Instance.create (Scene.hostWith fun _ _ => []) 9 shadowing.1
      ⟨Scene.root, 256, .silent⟩ [] (Scene.ofRoot "root")).result.isOk = true ∧
      shadowing.1.checked.globals.length = 1 ∧
      ∀ g ∈ shadowing.1.checked.globals, g.decl.mutable = false := by decide +kernel
  cases hi : (Instance.create (Scene.hostWith fun _ _ => []) 9 shadowing.1
      ⟨Scene.root, 256, .silent⟩ [] (Scene.ofRoot "root")).result with
  | error e =>
      rw [hi] at hmade
      cases hmade
  | ok i =>
      obtain ⟨i', hi', hsame⟩ := immutable_since_create (fun _ _ => []) (Scene.ofRoot "root") []
        [.invoke 20 0 "f" []] 9 shadowing ⟨Scene.root, 256, .silent⟩ [] i hi
      exact ⟨i, i', rfl, hi', hone, fun g hg => ⟨hfix g hg, hsame g hg (hfix g hg)⟩⟩

end Session

end SceneScript
