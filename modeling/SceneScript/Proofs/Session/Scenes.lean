import SceneScript.Scene
import SceneScript.Proofs.Eval.Steps

/-!
# Scenes as hosts of checked code

A scene answers every request that checked code makes, and of what code does to it the emitted
signals are tracked here: they only grow, and by signals that the script declares.

* **`SceneEdit`** — the ways in which a program edits a scene from outside.
* **`PrintHook`** — what happens in the scene when a line is printed: edits of the scene.
* **`Scene.emitting`** — the change that code with some signals may make.
* **`Scene.hostWith_keeps`** — a scene is a host that answers.
-/

namespace SceneScript

/-! ## Edits -/

/-- An edit of a scene from outside. -/
inductive SceneEdit where
  | add (parent : NodeRef) (node : SceneNode)
  | free (ref : NodeRef)
  | setPosition (ref : NodeRef) (position : Vec2)
  | setProperty (ref : NodeRef) (field : NodeField) (v : Value)

/-- The scene after an edit; one that fails leaves it as it is. -/
def Scene.edit (s : Scene) : SceneEdit → Scene
  | .add parent node         => (s.add parent node).toOption.elim s Prod.snd
  | .free ref                => s.free ref
  | .setPosition ref p       => (s.setPosition ref p).toOption.getD s
  | .setProperty ref field v => (s.setProperty ref field v).toOption.getD s

/-- What is done to the scene for every printed line. -/
abbrev PrintHook := Text → Scene → List SceneEdit

/-- A scene as a host, with edits for every printed line. -/
def Scene.hostWith (onPrint : PrintHook) : Host Scene :=
  { Scene.host with
    print := fun line => modify fun s => (onPrint line (s.print line)).foldl edit (s.print line) }

namespace Scene

theorem require_cases {s : Scene} {ref : NodeRef} {e : Nat × SceneNode}
    (h : s.require ref = .ok e) : s.live? ref = some e.1 ∧ s.node? e.1 = some e.2 := by
  unfold require at h
  split at h
  · cases h
  · next hlive =>
      split at h
      · next hnode =>
          cases h
          exact ⟨hlive, hnode⟩
      · cases h

/-- What is written to a scene is written to a field of a living node. -/
theorem setProperty_cases {s s' : Scene} {ref : NodeRef} {field : NodeField} {v : Value}
    (h : s.setProperty ref field v = .ok s') :
    ∃ n node changed, s.live? ref = some n ∧ s.node? n = some node ∧
      setField? node field v = some changed ∧ s' = s.update n fun _ => changed := by
  unfold setProperty at h
  cases hr : s.require ref with
  | error e => simp [hr, bind, Except.bind] at h
  | ok e =>
      simp only [hr, bind, Except.bind] at h
      obtain ⟨hlive, hnode⟩ := require_cases hr
      split at h
      · next changed hchanged =>
          cases h
          exact ⟨e.1, e.2, changed, hlive, hnode, hchanged, rfl⟩
      · cases h

theorem setProperty_emitted {s s' : Scene} {ref : NodeRef} {field : NodeField} {v : Value}
    (h : s.setProperty ref field v = .ok s') : s'.emitted = s.emitted := by
  obtain ⟨n, node, changed, -, -, -, rfl⟩ := setProperty_cases h
  rfl

/-- No edit touches the emitted signals. -/
theorem edit_emitted (s : Scene) (e : SceneEdit) : (s.edit e).emitted = s.emitted := by
  cases e with
  | add parent node =>
      simp only [edit, add]
      cases s.live? parent <;> rfl
  | free ref =>
      simp only [edit, free]
      split
      · rfl
      · simp only [kill, detach]
        split <;> rfl
  | setPosition ref p =>
      simp only [edit, setPosition]
      cases s.require ref <;> rfl
  | setProperty ref field v =>
      rw [edit]
      cases h : s.setProperty ref field v with
      | error _ => rfl
      | ok s' => exact setProperty_emitted h

theorem edits_emitted (edits : List SceneEdit) :
    ∀ s : Scene, (edits.foldl edit s).emitted = s.emitted := by
  induction edits with
  | nil => exact fun _ => rfl
  | cons e rest ih => exact fun s => (ih (s.edit e)).trans (s.edit_emitted e)

end Scene

/-! ## Emissions -/

/-- The emission is one of a declared signal, with arguments of exactly the declared types. -/
def Emission.Declared (signals : List Signal) (e : Emission) : Prop :=
  ∃ signal ∈ signals, e.signal = signal.name ∧
    e.args.map Value.type = signal.params.map TypedName.type

/-- Emissions of declared signals come behind those that were there. -/
def Scene.emitting (signals : List Signal) : Changes Scene where
  rel s s' := ∃ new, s'.emitted.toList = s.emitted.toList ++ new ∧ ∀ e ∈ new, e.Declared signals
  refl s := ⟨[], (List.append_nil _).symm, fun _ h => absurd h List.not_mem_nil⟩
  trans := by
    rintro a b c ⟨new, hab, hnew⟩ ⟨new', hbc, hnew'⟩
    refine ⟨new ++ new', by rw [hbc, hab, List.append_assoc], fun e he => ?_⟩
    exact (List.mem_append.mp he).elim (hnew e) (hnew' e)

theorem Scene.emitting_of_eq {signals : List Signal} {s s' : Scene}
    (h : s'.emitted = s.emitted) : (emitting signals).rel s s' :=
  ⟨[], by rw [h, List.append_nil], fun _ h => absurd h List.not_mem_nil⟩

/-! ## Living nodes -/

theorem Scene.alive_iff {onPrint : PrintHook} {s : Scene} {ref : NodeRef} :
    (hostWith onPrint).Alive ref s ↔ (s.live? ref).isSome = true := by
  have hanswer : (hostWith onPrint).isAlive ref s = .ok (s.live? ref).isSome s := rfl
  rw [Host.Alive, hanswer]
  constructor
  · exact fun h => (EStateM.Result.ok.inj h).1
  · exact fun h => by rw [h]

/-- A living node is found. -/
theorem Scene.require_of_live {s : Scene} {ref : NodeRef} (h : (s.live? ref).isSome = true) :
    ∃ e, s.require ref = .ok e := by
  obtain ⟨n, hn⟩ := Option.isSome_iff_exists.mp h
  obtain ⟨-, hlive⟩ := Option.filter_eq_some_iff.mp hn
  cases hnode : s.node? n with
  | none => simp [hnode] at hlive
  | some node => exact ⟨(n, node), by simp only [require, hn, hnode]⟩

/-- A field takes every value of its type. -/
theorem Scene.setField?_typed (node : SceneNode) {field : NodeField} {v : Value}
    (h : v.type = field.type) : ∃ changed, setField? node field v = some changed := by
  cases field <;> cases v <;> cases h <;> exact ⟨_, rfl⟩

/-- A scene answers checked code, which adds to it emissions of its own signals only. -/
theorem Scene.hostWith_keeps (onPrint : PrintHook) (signals : List Signal) :
    (hostWith onPrint).Keeps signals (emitting signals) where
  print line s := ⟨_, rfl, emitting_of_eq (edits_emitted _ _)⟩
  isAlive ref s := ⟨_, rfl⟩
  sameNode a b s := ⟨_, rfl⟩
  getProperty ref field s halive := by
    obtain ⟨e, he⟩ := require_of_live (alive_iff.mp halive)
    have hget : ∃ v, s.getProperty ref field = .ok v ∧ v.type = field.type := by
      rw [getProperty, he]
      cases field <;> exact ⟨_, rfl, rfl⟩
    obtain ⟨v, hv, ht⟩ := hget
    exact ⟨v, by simp only [hostWith, host, query, hv], ht⟩
  setProperty ref field v s halive ht := by
    obtain ⟨e, he⟩ := require_of_live (alive_iff.mp halive)
    -- A living node and a value of the type of the field are all that the scene looks for.
    obtain ⟨changed, hc⟩ := setField?_typed e.2 ht
    have hset : s.setProperty ref field v = .ok (s.update e.1 fun _ => changed) := by
      simp only [setProperty, he, bind, Except.bind, hc]
      rfl
    refine ⟨_, ?_, emitting_of_eq (setProperty_emitted hset)⟩
    simp only [hostWith, host, change, hset]
  getNode ref path s := ⟨_, rfl⟩
  getParent ref s := ⟨_, rfl⟩
  findChild ref name s := ⟨_, rfl⟩
  emit ref signal args s hsignal hargs := by
    refine ⟨s.emit ⟨ref, signal.name, args⟩, rfl, [⟨ref, signal.name, args⟩], ?_, ?_⟩
    · exact Array.toList_push
    · intro e he
      rw [List.mem_singleton.mp he]
      exact ⟨signal, hsignal, rfl, hargs⟩

end SceneScript
