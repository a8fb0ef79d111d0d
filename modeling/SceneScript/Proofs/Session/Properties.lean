import SceneScript.Proofs.Instance.Accepting
import SceneScript.Proofs.Session.Reloading

/-!
# Writing a property is exact

A write to a property is refused for one reason, and then nothing has happened; or it changes the
value of that property and nothing else. Which of the two it is depends on the properties of the
script and on the value only. An instance that is reached in a session is one of a script that
compiles, so the hints of its properties suit their types.

* **`Instance.Rejects`** — the reason for which a write is refused.
* **`Instance.Writes`** — an instance after a property of it was written.
* **`Session.run_accepted`** — the instances of a session are those of scripts that compile.
* **`Session.setProperty_exact`** — what a write does.
-/

namespace SceneScript

namespace Instance

variable {i : Instance} {name : Text} {v : Value}

/-- The reason for which a property is not written: there is none of that name, or the property
    rejects the value. -/
inductive Rejects (i : Instance) (name : Text) (v : Value) : PropertyError → Prop where
  | unknown : (∀ p ∈ i.script.checked.properties, p.name ≠ name) → Rejects i name v .unknownProperty
  | property (p : Property) (e : PropertyError) :
      p ∈ i.script.checked.properties → p.name = name → p.Rejects v e → Rejects i name v e

/-- The second instance is the first with the property of a name written: nothing but the value of
    that property has changed, and it is what the property takes for the value that is given. -/
structure Writes (i : Instance) (name : Text) (v : Value) (i' : Instance) : Prop where
  script     : i'.script = i.script
  attachment : i'.attachment = i.attachment
  others     : ∀ n, n ≠ name → i'.globals.find? n = i.globals.find? n
  value      : ∃ p ∈ i.script.checked.properties, p.name = name ∧
    ∃ new, i'.globals.find? name = some new ∧ p.Takes v new

/-- Why a property is not written, for an instance of a script that compiles. -/
theorem setProperty_error_iff (hi : i.script.Accepted) {e : PropertyError} :
    i.setProperty name v = .error e ↔ i.Rejects name v e := by
  have hfind := fun q => Script.property?_eq_some_iff hi.wellTyped (n := name) (q := q)
  rw [setProperty]
  cases hp : i.script.property? name with
  | none =>
      have hnone : ∀ p ∈ i.script.checked.properties, p.name ≠ name := by
        intro p hmem hname
        rw [(hfind p).mpr ⟨hmem, hname⟩] at hp
        cases hp
      constructor
      · rintro ⟨⟩
        exact .unknown hnone
      · rintro (- | ⟨p, _, hmem, hname, -⟩)
        · rfl
        · exact absurd hname (hnone p hmem)
  | some p =>
      obtain ⟨hmem, hname⟩ := (hfind p).mp hp
      obtain ⟨g, -, -, mark, hexports⟩ := hi.property_exports hmem
      have haccept := Property.accept_error_iff (v := v) (Property.listsWhole_of_exports hexports)
        (e := e)
      dsimp only
      constructor
      · intro h
        cases hcase : p.accept v with
        | ok w => simp [hcase] at h
        | error e' =>
            rw [hcase] at h haccept
            cases h
            exact .property p e hmem hname (haccept.mp rfl)
      · rintro (hnone | ⟨q, _, hq, hqname, hreject⟩)
        · exact absurd hname (hnone p hmem)
        · obtain rfl : q = p := by
            rw [(hfind q).mpr ⟨hq, hqname⟩] at hp
            exact Option.some.inj hp
          rw [haccept.mpr hreject]

/-- A property that is written takes the value that is given. -/
theorem setProperty_writes (hi : i.script.Accepted) {i' : Instance}
    (h : i.setProperty name v = .ok i') : i.Writes name v i' := by
  obtain ⟨p, w, hp, hname, hw, rfl⟩ := setProperty_cases h
  obtain ⟨g, -, -, mark, hexports⟩ := hi.property_exports hp
  refine ⟨rfl, rfl, fun n hn => ?_, p, hp, hname, w, ?_, Property.accept_takes hexports hw⟩
  · rw [Bindings.find?_set, if_neg (Ne.symm hn)]
  · rw [Bindings.find?_set, if_pos rfl]

theorem invoke_script {σ : Type} (host : Host σ) (fuel : Nat) (i : Instance) (name : Text)
    (args : List Value) (state : σ) : (i.invoke host fuel name args state).1.script = i.script := by
  rw [invoke_eq]
  split
  · rfl
  · unfold concluded
    split <;> rfl

end Instance

namespace Session

variable {s : Session}

/-- Every instance is one of a script that compiles. -/
def Accepted (s : Session) : Prop := ∀ i ∈ s.instances, i.script.Accepted

theorem Accepted.attach (h : s.Accepted) {ran : Ran Scene Instance}
    (hran : ∀ i, ran.result = .ok i → i.script.Accepted) : (s.attach ran).1.Accepted := by
  rw [Session.attach]
  cases hres : ran.result with
  | ok i => exact List.forall_mem_append.mpr ⟨h, List.forall_mem_singleton.mpr (hran i hres)⟩
  | error e => exact h

theorem Accepted.set (h : s.Accepted) {k : Nat} {i i' : Instance} (hk : s.instances[k]? = some i)
    (hi : i'.script = i.script) (scene : Scene) : Accepted ⟨scene, s.instances.set k i'⟩ := by
  intro j hj
  rcases List.mem_or_eq_of_mem_set hj with hj | rfl
  · exact h j hj
  · rw [hi]
    exact h i (List.mem_of_getElem? hk)

theorem Accepted.step (onPrint : PrintHook) (h : s.Accepted) (a : Action) :
    (s.step onPrint a).1.Accepted := by
  cases a with
  | edit e => exact h
  | create fuel script a properties =>
      refine h.attach fun i hi => ?_
      rw [Instance.create_script hi]
      exact script.2
  | reload fuel k script =>
      rw [Session.step]
      cases hk : s.instances[k]? with
      | none => exact h
      | some i =>
          refine h.attach fun j hj => ?_
          rw [Instance.create_script hj]
          exact script.2
  | invoke fuel k name args =>
      rw [Session.step]
      cases hk : s.instances[k]? with
      | none => exact h
      | some i => exact h.set hk (Instance.invoke_script _ _ _ _ _ _) _
  | lifecycle fuel k callback args =>
      rw [Session.step]
      cases hk : s.instances[k]? with
      | none => exact h
      | some i =>
          refine h.set hk ?_ _
          rw [Instance.invokeLifecycle]
          split
          · exact Instance.invoke_script _ _ _ _ _ _
          · rfl
  | setProperty k name v =>
      rw [Session.step]
      cases hk : s.instances[k]? with
      | none => exact h
      | some i =>
          dsimp only
          cases hset : i.setProperty name v with
          | error e => exact h
          | ok i' =>
              obtain ⟨p, w, -, -, -, hi'⟩ := Instance.setProperty_cases hset
              exact h.set hk (by rw [hi']) s.scene

theorem Accepted.run (onPrint : PrintHook) (actions : List Action) :
    ∀ {s : Session}, s.Accepted → (s.run onPrint actions).Accepted := by
  induction actions with
  | nil => exact fun h => h
  | cons a rest ih => exact fun h => ih (h.step onPrint a)

/-- Every session that begins without instances has instances of scripts that compile. -/
theorem run_accepted (onPrint : PrintHook) (scene : Scene) (history : List Action) :
    (run onPrint ⟨scene, []⟩ history).Accepted :=
  Accepted.run onPrint history fun _ hi => absurd hi List.not_mem_nil

/-- Writing a property is exact and leaves nothing half done. Whatever was done before, a write is
    refused exactly when there is a reason for it, which is the one that is answered, and then
    nothing has happened. Otherwise the property takes the value, and nothing else has changed. -/
theorem setProperty_exact (onPrint : PrintHook) (scene : Scene) (history : List Action) (k : Nat)
    (i : Instance) (name : Text) (v : Value)
    (hk : (run onPrint ⟨scene, []⟩ history).instances[k]? = some i) :
    let s := run onPrint ⟨scene, []⟩ history
    (∀ e, (s.step onPrint (.setProperty k name v)).2 = .refused e ↔ i.Rejects name v e) ∧
    (∀ e, i.Rejects name v e → s.step onPrint (.setProperty k name v) = (s, .refused e)) ∧
    ((∀ e, ¬i.Rejects name v e) → ∃ i',
      s.step onPrint (.setProperty k name v) = (⟨s.scene, s.instances.set k i'⟩, .done) ∧
      i.Writes name v i') := by
  intro s
  have hi : i.script.Accepted := run_accepted onPrint scene history i (List.mem_of_getElem? hk)
  have hreject : ∀ {e}, i.setProperty name v = .error e ↔ i.Rejects name v e :=
    Instance.setProperty_error_iff hi
  cases hset : i.setProperty name v with
  | ok i' =>
      have hstep : s.step onPrint (.setProperty k name v) =
          (⟨s.scene, s.instances.set k i'⟩, .done) := by simp only [step, s, hk, hset]
      rw [hstep]
      refine ⟨fun e => ?_, fun e he => ?_, fun _ => ⟨i', rfl, Instance.setProperty_writes hi hset⟩⟩
      · rw [← hreject, hset]
        simp
      · rw [← hreject, hset] at he
        cases he
  | error e' =>
      have hstep : s.step onPrint (.setProperty k name v) = (s, .refused e') := by
        simp only [step, s, hk, hset]
      rw [hstep]
      refine ⟨fun e => ?_, fun e he => ?_, fun hnone => absurd (hreject.mp hset) (hnone e')⟩
      · rw [← hreject, hset]
        simp
      · rw [← hreject, hset] at he
        cases he
        rfl

/-- A script with a range and a list of options. -/
def guarded : AcceptedScript :=
  (AcceptedScript.ofText?
    ("@export(range(0, 10)) let mut hp: i32 = 5;" ++
      "@export(enum(\"a\", \"b\")) let mut mode: String = \"a\";")).get (by decide +kernel)

theorem setProperty_exact_guarded :
    let s := run (fun _ _ => []) ⟨Scene.ofRoot "root", []⟩
      [.create 9 guarded ⟨Scene.root, 256, .silent⟩ []]
    ∃ i, s.instances[0]? = some i ∧
      (∃ i', s.step (fun _ _ => []) (.setProperty 0 "hp" (.int 99)) =
          (⟨s.scene, s.instances.set 0 i'⟩, .done) ∧ i.Writes "hp" (.int 99) i') ∧
      s.step (fun _ _ => []) (.setProperty 0 "mode" (.string "c")) =
        (s, .refused (.notListed ["a", "b"])) := by
  intro s
  obtain ⟨hmade, hdone, hlisted⟩ :
      (s.instances[0]?).isSome = true ∧
      (s.step (fun _ _ => []) (.setProperty 0 "hp" (.int 99))).2 = .done ∧
      (s.step (fun _ _ => []) (.setProperty 0 "mode" (.string "c"))).2 =
        .refused (.notListed ["a", "b"]) := by decide +kernel
  obtain ⟨i, hi⟩ := Option.isSome_iff_exists.mp hmade
  obtain ⟨hrange, -, hwrite⟩ := setProperty_exact (fun _ _ => []) (Scene.ofRoot "root")
    [.create 9 guarded ⟨Scene.root, 256, .silent⟩ []] 0 i "hp" (.int 99) hi
  obtain ⟨hoption, hrefuse, -⟩ := setProperty_exact (fun _ _ => []) (Scene.ofRoot "root")
    [.create 9 guarded ⟨Scene.root, 256, .silent⟩ []] 0 i "mode" (.string "c") hi
  refine ⟨i, hi, hwrite fun e he => ?_, hrefuse _ ((hoption _).mp hlisted)⟩
  rw [(hrange e).mpr he] at hdone
  cases hdone

end Session

end SceneScript
