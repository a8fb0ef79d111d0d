import SceneScript.Proofs.Session.Properties
import SceneScript.Proofs.Typing.Edited

/-!
# What a host sees of a script

A host attaches a script to a node and then asks for things: that a function or a callback is
called, that a property is set, that the script is replaced. In between its own state changes. All
that it ever learns about the script are the answers, the lines logged, the globals, and what has
become of its own state, which is where printed lines, signals and nodes are.

* **`Request`**, **`Instance.serve`** — what a host asks for, and what comes of it.
* **`Script.life`** — all that a host sees, from the creation of an instance to the last request.
* **`Script.StandsIn`** — a script that can take the place of another one; then no host sees a
  difference, by `Script.StandsIn.life`.
* **`Script.Edited`** — a script with other variables in its functions; it can take the place of the
  first when its code does the same, by `Script.Edited.standsIn`.
-/

namespace SceneScript

variable {σ α β : Type}

/-- What a host asks of an instance. Its own state changes in between. -/
inductive Request (σ : Type) where
  | invoke (fuel : Nat) (name : Text) (args : List Value)
  | lifecycle (fuel : Nat) (callback : Lifecycle) (args : List Value)
  | setProperty (name : Text) (v : Value)
  | reload (fuel : Nat) (script : Script)
  | elsewhere (f : σ → σ)

/-- What a host sees after a request. -/
structure Served (σ : Type) where
  reply      : Reply
  log        : List LogEvent
  properties : List (Property × Value)
  globals    : Bindings
  host       : σ

namespace Instance

/-- What a host sees of an instance. -/
def seen (i : Instance) (reply : Reply) (log : List LogEvent) (state : σ) : Served σ :=
  ⟨reply, log, i.listProperties, i.globals, state⟩

/-- An instance after a call of it, and what a host sees then. -/
def called (x : Instance × Ran σ Value) : Instance × Served σ :=
  (x.1, x.1.seen
    (match x.2.result with
      | .ok v    => .value v
      | .error h => .halted h) x.2.log x.2.host)

/-- One request. An instance that cannot be reloaded stays. -/
def serve (host : Host σ) (i : Instance) (state : σ) : Request σ → Instance × Served σ
  | .invoke fuel name args          => called (i.invoke host fuel name args state)
  | .lifecycle fuel callback args => called (i.invokeLifecycle host fuel callback args state)
  | .setProperty name v =>
      match i.setProperty name v with
      | .ok i'   => (i', i'.seen .done [] state)
      | .error e => (i, i.seen (.refused e) [] state)
  | .reload fuel script =>
      let ran := i.reload host fuel script state
      match ran.result with
      | .ok i'   => (i', i'.seen .done ran.log ran.host)
      | .error h => (i, i.seen (.halted h) ran.log ran.host)
  | .elsewhere f => (i, i.seen .done [] (f state))

/-- A list of requests, and what a host sees after each of them. -/
def serveAll (host : Host σ) : Instance → σ → List (Request σ) → List (Served σ)
  | _, _, []            => []
  | i, state, r :: rest =>
      let (i', served) := i.serve host state r
      served :: serveAll host i' served.host rest

/-- An instance with another script in place of its own. -/
def onScript (s : Script) (i : Instance) : Instance := { i with script := s }

end Instance

/-- Properties are set on any script that has the same ones. -/
theorem Instance.setProperty_onScript {s' : Script} {i : Instance}
    (h : s'.checked.properties = i.script.checked.properties) (name : Text) (v : Value) :
    (i.onScript s').setProperty name v = (i.setProperty name v).map (Instance.onScript s') := by
  have hfind : (i.onScript s').script.property? name = i.script.property? name := by
    rw [Script.property?, Script.property?, onScript, h]
  rw [Instance.setProperty, Instance.setProperty, hfind]
  cases i.script.property? name with
  | none => rfl
  | some p => dsimp only; cases p.accept v <;> rfl

/-- An operation that made something, the thing changed. -/
def Ran.map (f : α → β) (r : Ran σ α) : Ran σ β := ⟨r.result.map f, r.host, r.log⟩

/-- What a host sees of a script: an instance is created, then requests are served. -/
def Script.life (host : Host σ) (fuel : Nat) (script : Script) (a : Attachment)
    (properties : List (Text × Value)) (state : σ) (requests : List (Request σ)) :
    List (Served σ) :=
  let ran := Instance.create host fuel script a properties state
  match ran.result with
  | .ok i    => i.seen .done ran.log ran.host :: i.serveAll host ran.host requests
  | .error h => [⟨.halted h, ran.log, [], [], ran.host⟩]

/-- Script `s'` can take the place of `s`: it has the same properties and callbacks, its instances
    are created alike, and a call does the same to an instance of which `I` holds. This is so of
    the instances of `s` at all times. -/
structure Script.StandsIn (host : Host σ) (I : Instance → Prop) (s s' : Script) : Prop where
  properties : s'.checked.properties = s.checked.properties
  lifecycle  : s'.checked.lifecycle = s.checked.lifecycle
  create     : ∀ fuel a properties state, Instance.create host fuel s' a properties state =
    (Instance.create host fuel s a properties state).map (Instance.onScript s')
  invoke     : ∀ i, i.script = s → I i → ∀ fuel name args state,
    (i.onScript s').invoke host fuel name args state =
      (i.invoke host fuel name args state).map (Instance.onScript s') id
  created    : ∀ fuel a properties state i,
    (Instance.create host fuel s a properties state).result = .ok i → I i
  invoked    : ∀ i, i.script = s → I i → ∀ fuel name args state,
    I (i.invoke host fuel name args state).1
  set        : ∀ i i' name v, i.script = s → I i → i.setProperty name v = .ok i' → I i'

namespace Script.StandsIn

variable {host : Host σ} {I : Instance → Prop} {s s' : Script} (h : StandsIn host I s s')
include h

theorem seen {i : Instance} (hi : i.script = s) (reply : Reply) (log : List LogEvent) (state : σ) :
    (i.onScript s').seen reply log state = i.seen reply log state := by
  rw [Instance.seen, Instance.listProperties, Instance.onScript, h.properties, Instance.seen,
    Instance.listProperties, hi]

theorem called {x : Instance × Ran σ Value} (hx : x.1.script = s) :
    Instance.called (x.map (Instance.onScript s') id) =
      (Instance.called x).map (Instance.onScript s') id :=
  Prod.ext rfl (h.seen hx _ _ _)

theorem reload {i : Instance} (hi : i.script = s) (fuel : Nat) (script : Script) (state : σ) :
    (i.onScript s').reload host fuel script state = i.reload host fuel script state := by
  have hproperties : (i.onScript s').script.checked.properties = i.script.checked.properties :=
    h.properties.trans (hi ▸ rfl)
  rw [Instance.reload, Instance.carriedOver, hproperties]
  rfl

theorem handler? {i : Instance} (hi : i.script = s) (callback : Lifecycle) :
    (i.onScript s').handler? callback = i.handler? callback := by
  rw [Instance.handler?, Instance.onScript, h.lifecycle, Instance.handler?, hi]

theorem invokeLifecycle {i : Instance} (hi : i.script = s) (hI : I i) (fuel : Nat)
    (callback : Lifecycle) (args : List Value) (state : σ) :
    (i.onScript s').invokeLifecycle host fuel callback args state =
      (i.invokeLifecycle host fuel callback args state).map (Instance.onScript s') id := by
  rw [Instance.invokeLifecycle, Instance.invokeLifecycle, h.handler? hi]
  cases i.handler? callback with
  | none => rfl
  | some name => exact h.invoke i hi hI fuel name args state

/-- One request is served alike: the instances are as before, or another script was loaded and they
    are one. -/
theorem serve {i : Instance} (hi : i.script = s) (hI : I i) (state : σ) (r : Request σ) :
    (((i.serve host state r).1.script = s ∧ I (i.serve host state r).1) ∧
      (i.onScript s').serve host state r =
        (i.serve host state r).map (Instance.onScript s') id) ∨
    (i.onScript s').serve host state r = i.serve host state r := by
  cases r with
  | invoke fuel name args =>
      have hscript := (Instance.invoke_script host fuel i name args state).trans hi
      refine .inl ⟨⟨hscript, h.invoked i hi hI fuel name args state⟩, ?_⟩
      exact (congrArg Instance.called (h.invoke i hi hI fuel name args state)).trans
        (h.called hscript)
  | lifecycle fuel callback args =>
      have hkept : (i.invokeLifecycle host fuel callback args state).1.script = s ∧
          I (i.invokeLifecycle host fuel callback args state).1 := by
        rw [Instance.invokeLifecycle]
        cases i.handler? callback with
        | none => exact ⟨hi, hI⟩
        | some name =>
            exact ⟨(Instance.invoke_script host fuel i name args state).trans hi,
              h.invoked i hi hI fuel name args state⟩
      refine .inl ⟨hkept, ?_⟩
      exact (congrArg Instance.called (h.invokeLifecycle hi hI fuel callback args state)).trans
        (h.called hkept.1)
  | setProperty name v =>
      rw [Instance.serve, Instance.serve,
        Instance.setProperty_onScript (h.properties.trans (hi ▸ rfl))]
      cases hset : i.setProperty name v with
      | error e => exact .inl ⟨⟨hi, hI⟩, Prod.ext rfl (h.seen hi _ _ _)⟩
      | ok i' =>
          obtain ⟨p, w, -, -, -, hwritten⟩ := Instance.setProperty_cases hset
          have hi' : i'.script = s := hwritten ▸ hi
          exact .inl ⟨⟨hi', h.set i i' name v hi hI hset⟩, Prod.ext rfl (h.seen hi' _ _ _)⟩
  | reload fuel script =>
      rw [Instance.serve, Instance.serve, h.reload hi]
      cases hran : (i.reload host fuel script state).result with
      | ok i' => exact .inr rfl
      | error e => exact .inl ⟨⟨hi, hI⟩, Prod.ext rfl (h.seen hi _ _ _)⟩
  | elsewhere f => exact .inl ⟨⟨hi, hI⟩, Prod.ext rfl (h.seen hi _ _ _)⟩

theorem serveAll (requests : List (Request σ)) : ∀ (i : Instance) (state : σ), i.script = s → I i →
    (i.onScript s').serveAll host state requests = i.serveAll host state requests := by
  induction requests with
  | nil => exact fun _ _ _ _ => rfl
  | cons r rest ih =>
      intro i state hi hI
      rw [Instance.serveAll, Instance.serveAll]
      rcases h.serve hi hI state r with ⟨⟨hscript, hI'⟩, hserve⟩ | hserve
      · rw [hserve]
        exact congrArg _ (ih _ _ hscript hI')
      · rw [hserve]

/-- No host sees a difference. -/
theorem life (fuel : Nat) (a : Attachment) (properties : List (Text × Value)) (state : σ)
    (requests : List (Request σ)) :
    s'.life host fuel a properties state requests =
      s.life host fuel a properties state requests := by
  rw [Script.life, Script.life, h.create, Ran.map]
  cases hran : (Instance.create host fuel s a properties state).result with
  | error e => rfl
  | ok i =>
      have hi := Instance.create_script hran
      have hI := h.created fuel a properties state i hran
      simp only [Except.map, h.seen hi, h.serveAll requests i _ hi hI]

end Script.StandsIn

/-! ## Other variables -/

/-- Script `s'` is `s` with the variables of its functions changed. -/
structure Script.Edited (c : LetEdit Ty Ty) (s s' : Script) : Prop where
  functions : s'.checked.functions = s.checked.functions.map (·.edit c)
  globals   : s'.checked.globals = s.checked.globals
  signals   : s'.checked.signals = s.checked.signals

namespace Script.Edited

variable {c : LetEdit Ty Ty} {s s' : Script} (h : Edited c s s')
include h

theorem properties : s'.checked.properties = s.checked.properties := by
  rw [Checked.properties, h.globals, Checked.properties]

theorem lifecycle : s'.checked.lifecycle = s.checked.lifecycle := by
  rw [Checked.lifecycle, h.functions, List.filterMap_map, Checked.lifecycle]
  rfl

theorem function? (name : Text) :
    s'.function? name = (s.function? name).map (·.edit c) := by
  rw [Script.function?, h.functions]
  exact List.find?_map

theorem receive (name : Text) (args : List Value) :
    Instance.receive s' name args = Instance.receive s name args := by
  rw [Instance.receive, Instance.receive, h.function?]
  cases s.function? name <;> rfl

theorem setProperties (properties : List (Text × Value)) : ∀ i : Instance, i.script = s →
    (i.onScript s').setProperties properties =
      (i.setProperties properties).map (Instance.onScript s') id := by
  induction properties with
  | nil => exact fun _ _ => rfl
  | cons e rest ih =>
      intro i hi
      obtain ⟨name, v⟩ := e
      rw [Instance.setProperties, Instance.setProperties,
        Instance.setProperty_onScript (h.properties.trans (hi ▸ rfl))]
      cases hset : i.setProperty name v with
      | ok i' =>
          obtain ⟨p, w, -, -, -, rfl⟩ := Instance.setProperty_cases hset
          exact ih _ hi
      | error e =>
          simp only [Except.map, ih i hi]
          rfl

/-- Globals that get the same values make the same instances. -/
theorem create {host : Host σ} {fuel : Nat} {a : Attachment} {state : σ}
    (hseed : Instance.seedGlobals (Instance.machine host s' a) fuel s.checked.globals ⟨[], state⟩ =
      Instance.seedGlobals (Instance.machine host s a) fuel s.checked.globals ⟨[], state⟩)
    (properties : List (Text × Value)) :
    Instance.create host fuel s' a properties state =
      (Instance.create host fuel s a properties state).map (Instance.onScript s') := by
  rw [Instance.create, Instance.create, h.globals, hseed]
  cases Instance.seedGlobals (Instance.machine host s a) fuel s.checked.globals ⟨[], state⟩ with
  | mk result state =>
      cases result with
      | error e => rfl
      | ok globals =>
          have hset := h.setProperties properties ⟨s, a, globals⟩ rfl
          simp only [Instance.onScript] at hset
          simp only [hset]
          rfl

/-- Calls that do the same to the world do the same to instances. -/
theorem invoke {host : Host σ} {i : Instance} (hi : i.script = s) {fuel : Nat} {name : Text}
    {args : List Value} {state : σ}
    (hcall : ∀ bound, Instance.receive s name args = .ok bound →
      (Instance.machine host s' i.attachment).call 0 fuel name bound none ⟨i.globals, state⟩ =
        (Instance.machine host s i.attachment).call 0 fuel name bound none ⟨i.globals, state⟩) :
    (i.onScript s').invoke host fuel name args state =
      (i.invoke host fuel name args state).map (Instance.onScript s') id := by
  rw [Instance.invoke_eq, Instance.invoke_eq, Instance.onScript, h.receive, hi]
  cases hreceive : Instance.receive s name args with
  | error cause => rfl
  | ok bound =>
      simp only [hcall bound hreceive]
      cases (Instance.machine host s i.attachment).call 0 fuel name bound none
        ⟨i.globals, state⟩ <;> rfl

end Script.Edited

end SceneScript
