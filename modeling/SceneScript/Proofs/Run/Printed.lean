import SceneScript.Proofs.Session.Creation
import SceneScript.Proofs.Session.Living

/-!
# What is printed is in the output

To say which lines a script prints, they are noted when the host is given them. The script does not
notice. A scene puts each line into its output before it calls its hook, so whatever the hook does,
short of taking lines back, the notes are in the output in the end.

* **`Host.noting`** — a host that notes what it is given to print.
* **`Scene.Noted`** — the notes since some scene, and the output.
* **`Scene.agrees_noting`** — a scene and its notes agree on living nodes.
-/

namespace SceneScript

/-! ## Noting -/

/-- An operation that comes with lines to note. -/
def HostCall.noting {σ α : Type} (lines : List Text) (call : HostCall σ α) :
    HostCall (σ × List Text) α := fun s =>
  match call s.1 with
  | .ok a s'    => .ok a (s', s.2 ++ lines)
  | .error e s' => .error e (s', s.2 ++ lines)

/-- A host that notes the lines that it is given to print, in order. -/
def Host.noting {σ : Type} (host : Host σ) : Host (σ × List Text) where
  print line              := (host.print line).noting [line]
  isAlive ref             := (host.isAlive ref).noting []
  sameNode a b            := (host.sameNode a b).noting []
  getProperty ref field   := (host.getProperty ref field).noting []
  setProperty ref field v := (host.setProperty ref field v).noting []
  getNode ref path        := (host.getNode ref path).noting []
  getParent ref           := (host.getParent ref).noting []
  findChild ref name      := (host.findChild ref name).noting []
  emit ref signal args    := (host.emit ref signal args).noting []

/-- To be asked with notes is no more than to be asked. -/
theorem HostCall.IsQuestion.noting {σ α : Type} {call : HostCall σ α} (h : call.IsQuestion) :
    (call.noting []).IsQuestion := by
  intro s
  have hs := h s.1
  rw [Ends, HostCall.noting, List.append_nil]
  rw [Ends] at hs
  cases hcall : call s.1 <;> rw [hcall] at hs <;> exact congrArg (·, s.2) hs

theorem Host.IsObserved.noting {σ : Type} {host : Host σ} (h : host.IsObserved) :
    host.noting.IsObserved where
  isAlive ref           := (h.isAlive ref).noting
  sameNode a b          := (h.sameNode a b).noting
  getProperty ref field := (h.getProperty ref field).noting
  getNode ref path      := (h.getNode ref path).noting
  getParent ref         := (h.getParent ref).noting
  findChild ref name    := (h.findChild ref name).noting

/-! ## The output of a scene -/

/-- The lines one after the other, each with its end. -/
def Text.ended (lines : List Text) : List UInt16 :=
  lines.flatMap fun line => line.units ++ [lineFeed]

namespace Scene

/-- The output is as it was. -/
def sameOutput : Changes Scene :=
  ⟨fun s s' => s'.output = s.output, fun _ => rfl, fun h h' => h'.trans h⟩

/-- Nothing is taken out of the output. -/
def growingOutput : Changes Scene :=
  ⟨fun s s' => s.output.toList <+: s'.output.toList, fun _ => List.prefix_rfl, List.IsPrefix.trans⟩

/-- The hook takes nothing back that was printed. -/
def Hook.KeepsOutput (hook : Hook) : Prop := ∀ line, HostCall.Within growingOutput (hook line)

/-- The hook prints nothing itself. -/
def Hook.IsSilent (hook : Hook) : Prop := ∀ line, HostCall.Within sameOutput (hook line)

/-- Notes that were taken since a scene `start`: they are in the output, behind what was there
    before, and nothing else is if the hook prints nothing. -/
structure Noted (hook : Hook) (start s : Scene) (t : Scene × List Text) : Prop where
  scene  : t.1 = s
  held   : hook.KeepsOutput →
    ∃ new, s.output.toList = start.output.toList ++ new ∧ t.2.Sublist new
  silent : hook.IsSilent → s.output.toList = start.output.toList ++ t.2

variable {α : Type} {hook : Hook} {start s s' : Scene} {t : Scene × List Text}

/-- A line that is printed is noted. -/
theorem Noted.print (h : Noted hook start s t) (line : Text) :
    Noted hook start (s.print line) (s.print line, t.2 ++ [line]) := by
  have hline : (s.print line).output.toList = s.output.toList ++ [line] := Array.toList_push
  refine ⟨rfl, fun hk => ?_, fun hk => by rw [hline, h.silent hk, List.append_assoc]⟩
  obtain ⟨new, hnew, hsub⟩ := h.held hk
  exact ⟨new ++ [line], by rw [hline, hnew, List.append_assoc], hsub.append_right [line]⟩

/-- What the hook does to the output. -/
theorem Noted.hooked (h : Noted hook start s t) (hheld : hook.KeepsOutput → growingOutput.rel s s')
    (hsilent : hook.IsSilent → sameOutput.rel s s') : Noted hook start s' (s', t.2) := by
  refine ⟨rfl, fun hk => ?_, fun hk => ?_⟩
  · obtain ⟨new, hnew, hsub⟩ := h.held hk
    obtain ⟨more, hmore⟩ := hheld hk
    refine ⟨new ++ more, ?_, hsub.trans (List.sublist_append_left new more)⟩
    rw [← hmore, hnew, List.append_assoc]
  · have hsame : s'.output = s.output := hsilent hk
    rw [hsame, h.silent hk]

/-- Two hosts that start with one scene end alike if the notes are right in the end. -/
theorem alike_noting {call : HostCall Scene α} (hscene : t.1 = s) (lines : List Text)
    (hends : Ends call s (fun _ s' => Noted hook start s' (s', t.2 ++ lines))
      (fun _ s' => Noted hook start s' (s', t.2 ++ lines))) :
    Alike (Noted hook start) (fun _ => True) (call s) (call.noting lines t) := by
  obtain ⟨_, notes⟩ := t
  obtain rfl := hscene
  rw [HostCall.noting]
  dsimp only
  cases hcall : call _ with
  | ok a s' => exact .ok a ((ends_of_ok hcall).mp hends)
  | error message s' => exact .error message trivial ((ends_of_error hcall).mp hends)

/-- An operation that leaves the output alone. -/
theorem alike_unnoted {call : HostCall Scene α} (h : Noted hook start s t)
    (hcall : HostCall.Within sameOutput call) :
    Alike (Noted hook start) (fun _ => True) (call s) (call.noting [] t) := by
  have hnoted : ∀ s', sameOutput.rel s s' → Noted hook start s' (s', t.2 ++ []) := by
    intro s' hs
    have hs' : s'.output = s.output := hs
    rw [List.append_nil]
    exact h.hooked (fun _ => ⟨[], by rw [List.append_nil, hs']⟩) fun _ => hs
  exact alike_noting h.scene [] ((hcall s).mono (fun _ => hnoted) fun _ => hnoted)

theorem within_setProperty (ref : NodeRef) (field : NodeField) (v : Value) :
    HostCall.Within sameOutput (change fun s => s.setProperty ref field v) := by
  intro s
  rw [Ends, change]
  cases hset : s.setProperty ref field v with
  | error e => rfl
  | ok s' =>
      obtain ⟨n, node, changed, -, -, -, rfl⟩ := setProperty_cases hset
      rfl

/-- A scene and its notes agree on living nodes. -/
theorem agrees_noting (hook : Hook) (start : Scene) :
    (hostCalling hook).Agrees (hostCalling hook).noting (Noted hook start) fun _ => True where
  sameNode a b s t h := alike_unnoted h fun _ => rfl
  print line s t h := by
    -- The hook finds the line in the output, and the note of it goes with the scene it leaves.
    have hprint := h.print line
    refine alike_noting h.scene [line] ?_
    show Ends (hook line) (s.print line) _ _
    rw [Ends]
    cases hcall : hook line (s.print line) with
    | ok _ s' =>
        exact hprint.hooked (fun hk => (ends_of_ok hcall).mp (hk line _))
          fun hk => (ends_of_ok hcall).mp (hk line _)
    | error _ s' =>
        exact hprint.hooked (fun hk => (ends_of_error hcall).mp (hk line _))
          fun hk => (ends_of_error hcall).mp (hk line _)
  isAlive ref s t h := by
    obtain ⟨s₀, notes⟩ := t
    obtain rfl : s₀ = s := h.scene
    refine ⟨_, rfl, ?_⟩
    show EStateM.Result.ok _ (s₀, notes ++ []) = _
    rw [List.append_nil]
  getProperty ref field s t h halive := by
    obtain ⟨v, hv, hnode⟩ := getProperty_of_alive halive field
    obtain ⟨s₀, notes⟩ := t
    obtain rfl : s₀ = s := h.scene
    refine ⟨v, (s₀, notes ++ []), hv, ?_, ?_, hnode⟩
    · show HostCall.noting [] _ _ = _
      simp only [HostCall.noting, hv]
    · rwa [List.append_nil]
  setProperty ref field v s t h halive := alike_unnoted h (within_setProperty ref field v)
  getNode ref path s t h halive := alike_unnoted h fun _ => rfl
  getParent ref s t h halive := alike_unnoted h fun _ => rfl
  findChild ref name s t h halive := alike_unnoted h fun _ => rfl
  emit ref signal args s t h halive := alike_unnoted h fun _ => rfl

end Scene

/-- A scene that calls a hook is not changed by being asked. -/
theorem Scene.hostCalling_isObserved (hook : Hook) : (hostCalling hook).IsObserved where
  isAlive     := (hostWith_isObserved fun _ _ => []).isAlive
  sameNode    := (hostWith_isObserved fun _ _ => []).sameNode
  getProperty := (hostWith_isObserved fun _ _ => []).getProperty
  getNode     := (hostWith_isObserved fun _ _ => []).getNode
  getParent   := (hostWith_isObserved fun _ _ => []).getParent
  findChild   := (hostWith_isObserved fun _ _ => []).findChild

end SceneScript
