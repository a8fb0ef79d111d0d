import SceneScript.Proofs.Eval.Stored
import SceneScript.Proofs.Session.Reloading

/-!
# Floats of sessions have single precision

As long as every float that an embedding program hands over has single precision, so has every float
that an instance holds, at the end of every action and at every moment inside of one.

* **`Action.Stored`** — the values that an action hands over.
* **`Session.Stored.step`**, **`Session.run_stored`** — one action, and every session.
* **`Instance.entry_stored`** — what the code of a call from outside begins with.
-/

namespace SceneScript

/-- The values that an action hands over are as fields keep them. -/
def Action.Stored : Action → Prop
  | .create _ _ _ properties => ∀ e ∈ properties, e.2.IsStored
  | .invoke _ _ _ args       => ∀ v ∈ args, v.IsStored
  | .lifecycle _ _ _ args    => ∀ v ∈ args, v.IsStored
  | .setProperty _ _ v       => v.IsStored
  | _                        => True

/-- A question to the scene that is answered leaves it alone. -/
theorem Scene.query_ok {α : Type} {f : Scene → Except SceneError α} {a : α} {s s' : Scene}
    (h : query f s = .ok a s') : s' = s ∧ f s = .ok a := by
  rw [query] at h
  split at h
  · next hf =>
      cases h
      exact ⟨rfl, hf⟩
  · cases h

theorem Scene.hostWith_readsStored (onPrint : PrintHook) : (hostWith onPrint).ReadsStored := by
  intro ref field s v s' h
  change query (fun s => s.getProperty ref field) s = .ok v s' at h
  obtain ⟨-, hget⟩ := query_ok h
  unfold getProperty at hget
  cases hr : s.require ref with
  | error e =>
      rw [hr] at hget
      cases hget
  | ok e =>
      rw [hr] at hget
      cases field <;> cases hget <;> first | rfl | exact Value.isStored_ofFloat _

theorem Property.isStored_accept {p : Property} {v w : Value} (hv : v.IsStored)
    (h : p.accept v = .ok w) : w.IsStored := by
  unfold accept at h
  cases hc : v.coerce? p.type with
  | none =>
      rw [hc] at h
      cases h
  | some u =>
      have hu : u.IsStored := hv.coerce? hc
      have hclamp : (p.hint.clamp u).IsStored := by
        unfold Hint.clamp
        split <;> first | rfl | exact Value.isStored_ofFloat _ | exact hu
      simp only [hc] at h
      split at h
      · cases h
      · split at h
        · split at h
          · cases h
            exact hu
          · cases h
        · cases h
          exact hclamp

namespace Instance

/-- The values of the globals are as fields keep them. -/
abbrev Stored (i : Instance) : Prop := i.globals.Stored

variable {σ : Type} {host : Host σ} {script : Script} {a : Attachment} {fuel : Nat} {i : Instance}

theorem Stored.setProperty {i' : Instance} (h : i.Stored) {name : Text} {v : Value}
    (hv : v.IsStored) (hset : i.setProperty name v = .ok i') : i'.Stored := by
  obtain ⟨p, w, -, -, hw, rfl⟩ := setProperty_cases hset
  exact Bindings.Stored.set h name (p.isStored_accept hv hw)

theorem Stored.setProperties (properties : List (Text × Value)) :
    ∀ {i : Instance}, i.Stored → (∀ e ∈ properties, e.2.IsStored) →
      (i.setProperties properties).1.Stored := by
  induction properties with
  | nil => exact fun h _ => h
  | cons e rest ih =>
      intro i h hall
      have hrest : ∀ x ∈ rest, x.2.IsStored := fun x hx => hall x (List.mem_cons_of_mem e hx)
      rw [Instance.setProperties]
      cases hset : i.setProperty e.1 e.2 with
      | ok i' => exact ih (h.setProperty (hall e List.mem_cons_self) hset) hrest
      | error _ => exact ih h hrest

theorem stored_seedGlobals {m : Machine σ} (hm : m.host.ReadsStored) (globals : List GlobalInfo) :
    ∀ {w : World σ} {b : Bindings} {s : σ}, w.globals.Stored →
      seedGlobals m fuel globals w = (.ok b, s) → b.Stored := by
  induction globals with
  | nil =>
      intro w b s hw h
      cases h
      exact hw
  | cons g rest ih =>
      intro w b s hw h
      rw [seedGlobals] at h
      cases hrun : m.eval 0 [] fuel g.decl.init w with
      | error e w' =>
          rw [hrun] at h
          cases h
      | ok v w' =>
          rw [hrun] at h
          obtain ⟨hw', hv⟩ := ((Machine.storesAt hm fuel).eval 0 g.decl.init
            (fun _ hb => absurd hb List.not_mem_nil)).of_ok hw hrun
          exact ih (hw'.set g.name (hv.coerceOrKeep g.type)) h

theorem create_stored (hh : host.ReadsStored) {properties : List (Text × Value)} {state : σ}
    (hall : ∀ e ∈ properties, e.2.IsStored)
    (h : (create host fuel script a properties state).result = .ok i) : i.Stored := by
  obtain ⟨b, s, hseed, rfl⟩ := create_ok h
  refine Stored.setProperties properties ?_ hall
  exact stored_seedGlobals (m := machine host script a) hh _ Bindings.stored_nil hseed

theorem reload_stored (hh : host.ReadsStored) (hi : i.Stored) {state : σ} {j : Instance}
    (h : (i.reload host fuel script state).result = .ok j) : j.Stored := by
  refine create_stored hh (fun e he => ?_) h
  obtain ⟨n, v⟩ := e
  obtain ⟨p, -, -, -, hvalue⟩ := mem_carriedOver.mp he
  exact hi n v hvalue

theorem isStored_bindArguments (name : Text) (params : List TypedName) :
    ∀ {args bound : List Value}, (∀ v ∈ args, v.IsStored) →
      bindArguments name params args = .ok bound → ∀ v ∈ bound, v.IsStored := by
  induction params with
  | nil =>
      intro args bound _ h
      cases h
      exact fun _ hv => absurd hv List.not_mem_nil
  | cons p params ih =>
      intro args bound hargs h
      cases args with
      | nil =>
          cases h
          exact fun _ hv => absurd hv List.not_mem_nil
      | cons v args =>
          rw [bindArguments] at h
          cases hc : v.coerce? p.type with
          | none =>
              rw [hc] at h
              cases h
          | some u =>
              rw [hc] at h
              cases hrest : bindArguments name params args with
              | error e =>
                  rw [hrest] at h
                  cases h
              | ok bound' =>
                  rw [hrest] at h
                  cases h
                  intro x hx
                  rcases List.mem_cons.mp hx with rfl | hx
                  · exact (hargs v List.mem_cons_self).coerce? hc
                  · exact ih (fun y hy => hargs y (List.mem_cons_of_mem v hy)) hrest x hx

theorem isStored_receive {name : Text} {args bound : List Value} (hargs : ∀ v ∈ args, v.IsStored)
    (h : receive script name args = .ok bound) : ∀ v ∈ bound, v.IsStored := by
  unfold receive at h
  split at h
  · cases h
  · split at h
    · cases h
    · exact isStored_bindArguments _ _ hargs h

theorem entry_stored (hi : i.Stored) {name : Text} {args : List Value}
    (hargs : ∀ v ∈ args, v.IsStored) {state : σ} {x : Moment σ}
    (h : entry fuel i name args state = some x) : x.Stored := by
  obtain ⟨bound, hreceive, rfl⟩ := entry_eq_some_iff.mp h
  exact ⟨isStored_receive hargs hreceive, hi⟩

theorem invoke_stored (hh : host.ReadsStored) (hi : i.Stored) (name : Text) {args : List Value}
    (hargs : ∀ v ∈ args, v.IsStored) (state : σ) :
    (i.invoke host fuel name args state).1.Stored := by
  rw [invoke_eq]
  cases hreceive : receive i.script name args with
  | error cause => exact hi
  | ok bound =>
      have hcall := (Machine.storesAt (m := machine host i.script i.attachment) hh fuel).call 0 name
        bound none (isStored_receive hargs hreceive) ⟨i.globals, state⟩ hi
      dsimp only
      cases hx : (machine host i.script i.attachment).call 0 fuel name bound none
          ⟨i.globals, state⟩ with
      | ok v w => exact ((ends_of_ok hx).mp hcall).1
      | error e w => exact (ends_of_error hx).mp hcall

end Instance

namespace Session

/-- Every instance has globals that are as fields keep them. -/
def Stored (s : Session) : Prop := ∀ i ∈ s.instances, i.Stored

variable {s : Session}

theorem Stored.attach (h : s.Stored) {ran : Ran Scene Instance}
    (hran : ∀ i, ran.result = .ok i → i.Stored) : (s.attach ran).1.Stored := by
  rw [Session.attach]
  cases hres : ran.result with
  | ok i => exact List.forall_mem_append.mpr ⟨h, List.forall_mem_singleton.mpr (hran i hres)⟩
  | error e => exact h

theorem Stored.set (h : s.Stored) (k : Nat) {i : Instance} (hi : i.Stored) (scene : Scene) :
    Stored ⟨scene, s.instances.set k i⟩ := by
  intro j hj
  rcases List.mem_or_eq_of_mem_set hj with hj | rfl
  · exact h j hj
  · exact hi

/-- An action that hands over floats of single precision leaves no others behind. -/
theorem Stored.step (onPrint : PrintHook) (h : s.Stored) {a : Action} (ha : a.Stored) :
    (s.step onPrint a).1.Stored := by
  have hh := Scene.hostWith_readsStored onPrint
  cases a with
  | edit e => exact h
  | create fuel script a properties =>
      exact h.attach fun i hi => Instance.create_stored hh ha hi
  | reload fuel k script =>
      rw [Session.step]
      cases hk : s.instances[k]? with
      | none => exact h
      | some i =>
          exact h.attach fun j hj => Instance.reload_stored hh (h i (List.mem_of_getElem? hk)) hj
  | invoke fuel k name args =>
      rw [Session.step]
      cases hk : s.instances[k]? with
      | none => exact h
      | some i =>
          exact h.set k (Instance.invoke_stored hh (h i (List.mem_of_getElem? hk)) name ha _) _
  | lifecycle fuel k callback args =>
      rw [Session.step]
      cases hk : s.instances[k]? with
      | none => exact h
      | some i =>
          have hi : i.Stored := h i (List.mem_of_getElem? hk)
          refine h.set k ?_ _
          rw [Instance.invokeLifecycle]
          split
          · exact Instance.invoke_stored hh hi _ ha _
          · exact hi
  | setProperty k name v =>
      rw [Session.step]
      cases hk : s.instances[k]? with
      | none => exact h
      | some i =>
          dsimp only
          cases hset : i.setProperty name v with
          | error e => exact h
          | ok i' => exact h.set k ((h i (List.mem_of_getElem? hk)).setProperty ha hset) _

/-- Every session in which floats of single precision were handed over has no others. -/
theorem run_stored (onPrint : PrintHook) (scene : Scene) (history : List Action)
    (hall : ∀ a ∈ history, a.Stored) : (run onPrint ⟨scene, []⟩ history).Stored := by
  have hrun : ∀ (actions : List Action) {s : Session}, s.Stored → (∀ a ∈ actions, a.Stored) →
      (s.run onPrint actions).Stored := by
    intro actions
    induction actions with
    | nil => exact fun h _ => h
    | cons a rest ih =>
        exact fun h hall => ih (h.step onPrint (hall a List.mem_cons_self))
          fun x hx => hall x (List.mem_cons_of_mem a hx)
  exact hrun history (fun _ hi => absurd hi List.not_mem_nil) hall

end Session

end SceneScript
