import SceneScript.Proofs.Eval.Alike
import SceneScript.Proofs.Instance.Typed
import SceneScript.Proofs.Session.Scenes

/-!
# Scripts use living nodes only

Handles of freed nodes stay in variables for as long as the script likes. Whatever a script does
with them, no operation of the scene that needs a living node is called on them. To say so, the
operations are recorded, each with the scene at that moment: the script does not notice, and the
record has no dead node in it.

* **`Host.recording`** — a host that keeps a record of the nodes it is asked to work on.
* **`Scene.agrees_recording`** — a scene and its recording agree on living nodes.
* **`Instance.create_alike`** / **`Instance.invoke_alike`** — so operations of instances end alike.
* **`eval_freed`** / **`exec_freed`** — reads and writes through a freed node.
* **`Scene.uses_living`** — all of it, for every script and every scene.
-/

namespace SceneScript

variable {σ τ α : Type} {R : σ → τ → Prop} {E : Text → Prop}

/-! ## Instances on two hosts -/

/-- Two operations ended alike: the same result and log, and hosts that correspond. -/
structure Ran.Alike (R : σ → τ → Prop) (E : Text → Prop) (ran : Ran σ α) (other : Ran τ α) :
    Prop where
  result : other.result = ran.result
  log    : other.log = ran.log
  host   : R ran.host other.host
  blames : ∀ h, ran.result = .error h → h.Blames E

namespace Instance

variable {host : Host σ} {other : Host τ}

/-- Initializers one after the other. -/
theorem seedGlobals_alike {m : Machine σ} (hm : m.host.Agrees other R E) (fuel : Nat)
    (globals : List GlobalInfo) : ∀ w v, World.Beside R w v →
      (seedGlobals (m.on other) fuel globals v).1 = (seedGlobals m fuel globals w).1 ∧
      R (seedGlobals m fuel globals w).2 (seedGlobals (m.on other) fuel globals v).2 ∧
      ∀ name h, (seedGlobals m fuel globals w).1 = .error (name, h) → h.Blames E := by
  induction globals with
  | nil => exact fun w v hw => ⟨congrArg Except.ok hw.1.symm, hw.2, fun _ _ h => by cases h⟩
  | cons g rest ih =>
      intro w v hw
      have hend := (Machine.followsAt hm fuel).eval 0 [] g.decl.init w v hw
      rw [seedGlobals, seedGlobals]
      generalize m.eval 0 [] fuel g.decl.init w = r at hend
      generalize (m.on other).eval 0 [] fuel g.decl.init v = q at hend
      cases hend with
      | ok value hw' =>
          refine ih _ _ ⟨?_, hw'.2⟩
          exact congrArg (Bindings.set · g.name (value.coerceOrKeep g.type)) hw'.1
      | error e hE hw' =>
          refine ⟨rfl, hw'.2, fun _ _ h => ?_⟩
          cases h
          exact hE

theorem create_alike (hm : host.Agrees other R E) (fuel : Nat) (script : Script) (a : Attachment)
    (properties : List (Text × Value)) {s : σ} {t : τ} (hs : R s t) :
    Ran.Alike R E (create host fuel script a properties s)
      (create other fuel script a properties t) := by
  obtain ⟨hsame, hR, hblames⟩ := seedGlobals_alike (m := machine host script a) hm fuel
    script.checked.globals ⟨[], s⟩ ⟨[], t⟩ ⟨rfl, hs⟩
  change (seedGlobals (machine other script a) fuel script.checked.globals ⟨[], t⟩).1 = _ at hsame
  change R _ (seedGlobals (machine other script a) fuel script.checked.globals ⟨[], t⟩).2 at hR
  rw [create, create]
  cases hl : seedGlobals (machine host script a) fuel script.checked.globals ⟨[], s⟩ with
  | mk r s' =>
      cases hr : seedGlobals (machine other script a) fuel script.checked.globals ⟨[], t⟩ with
      | mk q t' =>
          rw [hl, hr] at hsame hR
          rw [hl] at hblames
          obtain rfl : q = r := hsame
          cases q with
          | ok globals => exact ⟨rfl, rfl, hR, fun _ h => by cases h⟩
          | error e =>
              refine ⟨rfl, rfl, hR, fun h hh => ?_⟩
              cases hh
              exact hblames e.1 e.2 rfl

theorem invoke_alike (hm : host.Agrees other R E) (fuel : Nat) (i : Instance) (name : Text)
    (args : List Value) {s : σ} {t : τ} (hs : R s t) :
    (i.invoke other fuel name args t).1 = (i.invoke host fuel name args s).1 ∧
      Ran.Alike R E (i.invoke host fuel name args s).2 (i.invoke other fuel name args t).2 := by
  rw [invoke_eq, invoke_eq]
  rcases receive_sound i name args with ⟨cause, hreceive, hrefuses⟩ | ⟨f, bound, hreceive, _, _⟩
  · rw [hreceive]
    refine ⟨rfl, rfl, rfl, hs, fun h hh => ?_⟩
    cases hh
    rintro message rfl
    rcases hrefuses.kind with hk | hk <;> cases hk
  · have hend : Alike (World.Beside R) (Halt.Blames E)
        ((machine host i.script i.attachment).call 0 fuel name bound none ⟨i.globals, s⟩)
        ((machine other i.script i.attachment).call 0 fuel name bound none ⟨i.globals, t⟩) :=
      (Machine.followsAt (m := machine host i.script i.attachment) hm fuel).call 0 name bound none
        ⟨i.globals, s⟩ ⟨i.globals, t⟩ ⟨rfl, hs⟩
    rw [hreceive]
    dsimp only
    generalize (machine host i.script i.attachment).call 0 fuel name bound none _ = r at hend
    generalize (machine other i.script i.attachment).call 0 fuel name bound none _ = q at hend
    cases hend with
    | ok v hw =>
        refine ⟨?_, rfl, rfl, hw.2, fun _ h => by cases h⟩
        simp only [concluded, hw.1]
    | error h hE hw =>
        refine ⟨?_, rfl, rfl, hw.2, fun h' hh => ?_⟩
        · simp only [concluded, hw.1]
        · cases hh
          exact hE

end Instance

/-! ## Recording -/

/-- A node that a host was asked to work on, and the state of the host at that moment. -/
structure NodeUse (σ : Type) where
  ref   : NodeRef
  state : σ

/-- An operation that records the nodes it works on. -/
def HostCall.recording (refs : List NodeRef) (call : HostCall σ α) :
    HostCall (σ × List (NodeUse σ)) α := fun s =>
  let uses := s.2 ++ refs.map fun ref => ⟨ref, s.1⟩
  match call s.1 with
  | .ok a s'    => .ok a (s', uses)
  | .error e s' => .error e (s', uses)

/-- A host that records the nodes it works on, in order. To print, to ask whether a node is
    alive and to ask whether two are the same is no work on a node. -/
def Host.recording (host : Host σ) : Host (σ × List (NodeUse σ)) where
  print line              := (host.print line).recording []
  isAlive ref             := (host.isAlive ref).recording []
  sameNode a b            := (host.sameNode a b).recording []
  getProperty ref field   := (host.getProperty ref field).recording [ref]
  setProperty ref field v := (host.setProperty ref field v).recording [ref]
  getNode ref path        := (host.getNode ref path).recording [ref]
  getParent ref           := (host.getParent ref).recording [ref]
  findChild ref name      := (host.findChild ref name).recording [ref]
  emit ref signal args    := (host.emit ref signal args).recording [ref]

namespace Scene

/-- What may be done for every printed line, with the scene at hand. -/
abbrev Hook := Text → HostCall Scene Unit

/-- A scene as a host that calls a hook for every printed line. The hook may edit the scene, and
    it may fail. -/
def hostCalling (hook : Hook) : Host Scene :=
  { Scene.host with print := fun line s => hook line (s.print line) }

/-- The recording of a scene in which all nodes were alive when they were used. -/
def Recorded (s : Scene) (t : Scene × List (NodeUse Scene)) : Prop :=
  t.1 = s ∧ ∀ use ∈ t.2, (use.state.live? use.ref).isSome = true

/-- A message with which a scene fails when it is asked to work on living nodes only. -/
def FailsWith (hook : Hook) (message : Text) : Prop :=
  (∃ field v, message = (SceneError.wrongProperty field v).message) ∨
    ∃ line s s', hook line s = .error message s'

theorem alike_recording {call : HostCall Scene α} {s : Scene} {t : Scene × List (NodeUse Scene)}
    (h : Recorded s t) (refs : List NodeRef) (hlive : ∀ ref ∈ refs, (s.live? ref).isSome = true)
    (hE : ∀ message s', call s = .error message s' → E message) :
    Alike Recorded E (call s) (call.recording refs t) := by
  obtain ⟨t, uses⟩ := t
  obtain ⟨rfl, huses⟩ := h
  have huses' : ∀ use ∈ uses ++ refs.map fun ref => (⟨ref, t⟩ : NodeUse Scene),
      (use.state.live? use.ref).isSome = true := by
    intro use huse
    rcases List.mem_append.mp huse with huse | huse
    · exact huses use huse
    · obtain ⟨ref, href, rfl⟩ := List.mem_map.mp huse
      exact hlive ref href
  rw [HostCall.recording]
  dsimp only
  cases hcall : call t with
  | ok a s' => exact .ok a ⟨rfl, huses'⟩
  | error message s' => exact .error message (hE message s' hcall) ⟨rfl, huses'⟩

/-- A living node refuses a value only because it does not fit the field. -/
theorem setProperty_error {s : Scene} {ref : NodeRef} {field : NodeField} {v : Value}
    {e : SceneError} (hlive : (s.live? ref).isSome = true)
    (h : s.setProperty ref field v = .error e) : e = .wrongProperty field v := by
  obtain ⟨entry, hentry⟩ := require_of_live hlive
  simp only [setProperty, hentry, bind, Except.bind] at h
  split at h
  · cases h
  · exact (Except.error.inj h).symm

theorem live_of_alive {hook : Hook} {ref : NodeRef} {s : Scene}
    (h : (hostCalling hook).Alive ref s) : (s.live? ref).isSome = true :=
  (@alive_iff (fun _ _ => []) s ref).mp h

/-- A living node has every field, and none of them holds a node. -/
theorem getProperty_of_alive {hook : Hook} {ref : NodeRef} {s : Scene}
    (h : (hostCalling hook).Alive ref s) (field : NodeField) :
    ∃ v, (hostCalling hook).getProperty ref field s = .ok v s ∧ v.type ≠ .node := by
  obtain ⟨v, hv, htype⟩ := (hostWith_keeps (fun _ _ => []) []).getProperty ref field s h
  exact ⟨v, hv, by rw [htype]; cases field <;> decide⟩

/-- A living node is put to use. -/
theorem alike_used {hook : Hook} {call : HostCall Scene α} {ref : NodeRef} {s : Scene}
    {t : Scene × List (NodeUse Scene)} (h : Recorded s t) (halive : (hostCalling hook).Alive ref s)
    (hE : ∀ message s', call s = .error message s' → E message) :
    Alike Recorded E (call s) (call.recording [ref] t) :=
  alike_recording h [ref] (List.forall_mem_singleton.mpr (live_of_alive halive)) hE

/-- A scene and its recording agree on living nodes, all of which get into the record alive. -/
theorem agrees_recording (hook : Hook) :
    (hostCalling hook).Agrees (hostCalling hook).recording Recorded (FailsWith hook) where
  sameNode a b s t h :=
    alike_recording h [] (fun _ hr => absurd hr List.not_mem_nil) fun _ _ he => by cases he
  print line s t h := by
    refine alike_recording h [] (fun _ hr => absurd hr List.not_mem_nil) fun message s' he => ?_
    exact .inr ⟨line, _, s', he⟩
  isAlive ref s t h := by
    obtain ⟨t, uses⟩ := t
    obtain ⟨rfl, -⟩ := h
    refine ⟨_, rfl, ?_⟩
    show EStateM.Result.ok _ (t, uses ++ []) = _
    rw [List.append_nil]
  getProperty ref field s t h halive := by
    obtain ⟨v, hl, hnode⟩ := getProperty_of_alive halive field
    have hend : Alike Recorded (FailsWith hook) ((hostCalling hook).getProperty ref field s)
        ((hostCalling hook).recording.getProperty ref field t) :=
      alike_used h halive fun _ _ he => by cases hl.symm.trans he
    rw [hl] at hend
    generalize hr : (hostCalling hook).recording.getProperty ref field t = q at hend
    cases hend with
    | ok _ hR => exact ⟨v, _, hl, rfl, hR, hnode⟩
  setProperty ref field v s t h halive := by
    refine alike_used h halive fun message s' he => .inl ⟨field, v, ?_⟩
    have hset : (hostCalling hook).setProperty ref field v s =
        change (fun s => s.setProperty ref field v) s := rfl
    rw [hset, change] at he
    cases hx : s.setProperty ref field v with
    | ok s'' =>
        rw [hx] at he
        cases he
    | error e =>
        rw [hx] at he
        cases he
        rw [setProperty_error (live_of_alive halive) hx]
  getNode ref path s t h halive := alike_used h halive fun _ _ he => by cases he
  getParent ref s t h halive := alike_used h halive fun _ _ he => by cases he
  findChild ref name s t h halive := alike_used h halive fun _ _ he => by cases he
  emit ref signal args s t h halive := alike_used h halive fun _ _ he => by cases he

/-- A scene that works on living nodes only says of none that it is not alive. -/
theorem hook_of_failsWith {hook : Hook} {ref : NodeRef}
    (h : FailsWith hook (SceneError.notAlive ref).message) :
    ∃ line s s', hook line s = .error (SceneError.notAlive ref).message s' := by
  rcases h with ⟨field, v, hmessage⟩ | h
  · -- The two wordings differ behind the first word.
    have hdead : (SceneError.notAlive ref).message.units[4]? = some (unitOf ' ') := by
      show ((Text.ofString "Node ").units ++ ref.text.units ++ _)[4]? = _
      rw [List.append_assoc]
      rfl
    have hwrong : (SceneError.wrongProperty field v).message.units[4]? = some (unitOf '.') := by
      show (Text.ofString ("Node." ++ field.word ++ " expects " ++ SceneError.holds field ++
        ", got " ++ v.kindWord)).units[4]? = _
      simp only [Text.ofString, String.toList_append, List.append_assoc, List.flatMap_append]
      rfl
    rw [hmessage, hwrong] at hdead
    cases hdead
  · exact h

end Scene

/-! ## Freed nodes -/

/-- The expression with further fields behind it. -/
def Expr.followedBy (e : Expr) (fields : List (Span × Ident)) : Expr :=
  fields.foldl (fun e f => .field f.1 e f.2) e

namespace Machine

variable {m : Machine σ} {depth fuel : Nat} {locals : Locals} {w w' : World σ} {ref : NodeRef}

theorem checkAlive_freed (h : m.host.isAlive ref w.host = .ok false w.host) (span : Span) :
    m.checkAlive ref span w = .error (.fault ⟨.freed ref, some span, []⟩) w :=
  bind_of_ok (ofHost_of_ok h)

/-- A fault of an expression is one of its fields too. -/
theorem eval_followedBy {h : Halt} (fields : List (Span × Ident)) :
    ∀ {e : Expr} {fuel : Nat}, m.eval depth locals fuel e w = .error h w' →
      m.eval depth locals (fuel + fields.length) (e.followedBy fields) w = .error h w' := by
  induction fields with
  | nil => exact fun he => he
  | cons f rest ih =>
      intro e fuel he
      have hfield : m.eval depth locals (fuel + 1) (.field f.1 e f.2) w = .error h w' :=
        bind_of_error he
      have hrest := ih hfield
      rw [Nat.add_right_comm, Nat.add_assoc] at hrest
      exact hrest

/-- A read through a freed node, of one of its fields or of a part of it. -/
theorem eval_freed {object : Expr} {span : Span} {field : Ident} {f : NodeField}
    (hobject : m.eval depth locals fuel object w = .ok (.node ref) w')
    (hfreed : m.host.isAlive ref w'.host = .ok false w'.host)
    (hfield : NodeField.ofText? field.name = some f) (fields : List (Span × Ident)) :
    m.eval depth locals (fuel + 1 + fields.length)
        ((Expr.field span object field).followedBy fields) w =
      .error (.fault ⟨.freed ref, some span, []⟩) w' := by
  refine eval_followedBy fields ?_
  have hread : m.readField (.node ref) span field w' =
      .error (.fault ⟨.freed ref, some span, []⟩) w' := by
    simp only [readField, hfield]
    exact bind_of_error (checkAlive_freed hfreed span)
  exact (bind_of_ok hobject).trans hread

/-- A write through a freed node, to one of its fields or to a part of it. -/
theorem exec_freed {span : Span} {target : AssignTarget} {op : AssignOp} {value : Expr}
    {rhs : Value} {field : Ident} {rest : List Ident} {f : NodeField}
    (hvalue : m.eval depth locals fuel value w = .ok rhs w')
    (hroot : m.eval depth locals 1 target.root.expr w' = .ok (.node ref) w')
    (hfreed : m.host.isAlive ref w'.host = .ok false w'.host)
    (hpath : target.path = field :: rest) (hfield : NodeField.ofText? field.name = some f) :
    m.exec depth (fuel + 1) locals (.assign span target op value) w =
      .error (.fault ⟨.freed ref, some span, []⟩) w' := by
  have hwrite : m.writePath rhs op span (.node ref) (field.name :: rest.map Ident.name) w' =
      .error (.fault ⟨.freed ref, some span, []⟩) w' := by
    rw [writePath_node hfield]
    exact bind_of_error (checkAlive_freed hfreed span)
  have hassign : m.assign locals span target op rhs w' =
      .error (.fault ⟨.freed ref, some span, []⟩) w' := by
    unfold assign
    rw [hpath]
    cases hr : target.root with
    | self _ =>
        rw [hr] at hroot
        cases hroot
        exact bind_of_error hwrite
    | name id =>
        rw [hr] at hroot
        have hlookup : (lookup locals id : Eval σ Value) w' = .ok (.node ref) w' := hroot
        refine (bind_of_ok hlookup).trans ?_
        exact bind_of_error hwrite
  exact (bind_of_ok hvalue).trans (bind_of_error hassign)

end Machine

/-! ## Every script, every scene -/

namespace Scene

/-- An operation of an instance on a scene, beside the same on a recording of the scene. Both come
    to the same; all nodes in the record were alive when they were used; and if the scene failed
    because a node was not alive, then the hook had it do so. -/
structure UsesLiving (hook : Hook) (ran : Ran Scene α)
    (recorded : Ran (Scene × List (NodeUse Scene)) α) : Prop where
  result  : recorded.result = ran.result
  log     : recorded.log = ran.log
  scene   : recorded.host.1 = ran.host
  living  : ∀ use ∈ recorded.host.2, (use.state.live? use.ref).isSome = true
  failure : ∀ f ref, ran.result = .error (.fault f) →
    f.cause = .hostFailure (SceneError.notAlive ref).message →
    ∃ line s s', hook line s = .error (SceneError.notAlive ref).message s'

theorem usesLiving_of_alike {hook : Hook} {ran : Ran Scene α}
    {recorded : Ran (Scene × List (NodeUse Scene)) α}
    (h : Ran.Alike Recorded (FailsWith hook) ran recorded) : UsesLiving hook ran recorded :=
  ⟨h.result, h.log, h.host.1, h.host.2, fun f _ hf hcause =>
    hook_of_failsWith (h.blames (.fault f) hf _ hcause)⟩

/-- Scripts use living nodes only, when an instance is created and when a function is called. A
    read or a write through a freed node, of a field or of a part of it, is a fault `E402`, and
    nothing has happened since the operands had their values. -/
theorem uses_living (hook : Hook) (fuel : Nat) (script : Script) (a : Attachment) (scene : Scene) :
    (∀ properties, UsesLiving hook
      (Instance.create (hostCalling hook) fuel script a properties scene)
      (Instance.create (hostCalling hook).recording fuel script a properties (scene, []))) ∧
    (∀ globals name args,
      let i : Instance := ⟨script, a, globals⟩
      (i.invoke (hostCalling hook).recording fuel name args (scene, [])).1 =
        (i.invoke (hostCalling hook) fuel name args scene).1 ∧
      UsesLiving hook (i.invoke (hostCalling hook) fuel name args scene).2
        (i.invoke (hostCalling hook).recording fuel name args (scene, [])).2) ∧
    (∀ depth locals w w' ref (field : Ident) f,
      let m := Instance.machine (hostCalling hook) script a
      w'.host.live? ref = none → NodeField.ofText? field.name = some f →
      (∀ object span fields, m.eval depth locals fuel object w = .ok (.node ref) w' →
        m.eval depth locals (fuel + 1 + fields.length)
          ((Expr.field span object field).followedBy fields) w =
            .error (.fault ⟨.freed ref, some span, []⟩) w') ∧
      ∀ span target op value rhs rest, m.eval depth locals fuel value w = .ok rhs w' →
        m.eval depth locals 1 target.root.expr w' = .ok (.node ref) w' →
        target.path = field :: rest →
        m.exec depth (fuel + 1) locals (.assign span target op value) w =
          .error (.fault ⟨.freed ref, some span, []⟩) w') ∧
    ∀ ref span trace, (⟨.freed ref, span, trace⟩ : Fault).kind = .invalidReference ∧
      (⟨.freed ref, span, trace⟩ : Fault).code = "E402" := by
  have hagrees := agrees_recording hook
  have hstart : Recorded scene (scene, []) := ⟨rfl, fun _ huse => absurd huse List.not_mem_nil⟩
  refine ⟨fun properties => ?_, fun globals name args => ?_, ?_, fun _ _ _ => ⟨rfl, rfl⟩⟩
  · exact usesLiving_of_alike (Instance.create_alike hagrees fuel script a properties hstart)
  · obtain ⟨hsame, hran⟩ := Instance.invoke_alike hagrees fuel ⟨script, a, globals⟩ name args hstart
    exact ⟨hsame, usesLiving_of_alike hran⟩
  · intro depth locals w w' ref field f m hfreed hfield
    have hdead : m.host.isAlive ref w'.host = .ok false w'.host := by
      show EStateM.Result.ok (w'.host.live? ref).isSome w'.host = _
      rw [hfreed]
      rfl
    exact ⟨fun object span fields hobject => Machine.eval_freed hobject hdead hfield fields,
      fun span target op value rhs rest hvalue hroot hpath =>
        Machine.exec_freed hvalue hroot hdead hpath hfield⟩

end Scene

end SceneScript
