import SceneScript.Instance
import SceneScript.Proofs.Eval.Moments

/-!
# Instances keep their globals typed

The values of an instance come from four places: initializers, properties that the host sets,
code that runs, and properties that survive a reload. Each of them brings a value to the type
that the script records before it is stored.

* **`Instance.Typed`** — every global has a value of its recorded type, and nothing else has one.
* **`Instance.Becomes`** — an instance at a later time, its immutable globals as they were.
* **`Instance.create_sound`**, **`Instance.invoke_sound`**, **`Instance.reload_sound`** — the
  operations that run code, against any host that answers.
* **`Instance.Refuses`** — why a call from outside is turned away before any code runs.
* **`Instance.invoke_eq`** — a call from outside in two parts: it is received, then code runs;
  **`Instance.entry`** — the moment at which its code begins.
-/

namespace SceneScript

variable {σ : Type} {R : Changes σ} {host : Host σ}

/-- The function of a script with a name. -/
def Script.function? (s : Script) (name : Text) : Option FunctionInfo :=
  s.checked.functions.find? fun f => f.name == name

/-- The script obeys the rules, and its globals have values of their recorded types. -/
structure Instance.Typed (i : Instance) : Prop where
  script  : i.script.checked.WellTyped
  globals : i.globals.Matches (i.script.checked.globals.map GlobalInfo.declared)

/-- The second instance is the first at a later time: it has the same script, and what may not
    be assigned is as it was. -/
structure Instance.Becomes (i i' : Instance) : Prop where
  script  : i'.script = i.script
  globals : i.globals.Steady (i.script.checked.globals.map GlobalInfo.declared) i'.globals

/-! ## Globals and properties -/

theorem Checked.WellTyped.inFrame?_global {c : Checked} (h : c.WellTyped) {g : GlobalInfo}
    (hg : g ∈ c.globals) :
    Scope.inFrame? g.name (c.globals.map GlobalInfo.declared) = some g.declared := by
  obtain ⟨before, after, hsplit⟩ := List.append_of_mem hg
  have hfresh := (h.globals before g after hsplit).fresh
  have hbefore : Scope.inFrame? g.name (before.map GlobalInfo.declared) = none := by
    rw [Checked.initializing, Scope.find?_cons] at hfresh
    exact (Option.or_eq_none_iff.mp hfresh).1
  have hhead : (g.declared.id.name == g.name) = true := beq_self_eq_true g.name
  rw [Scope.inFrame?] at hbefore
  rw [hsplit, List.map_append, List.map_cons, Scope.inFrame?, List.find?_append, hbefore,
    Option.none_or, List.find?_cons, hhead]

/-- A recorded global has a value of its recorded type. -/
theorem Instance.Typed.global {i : Instance} (h : i.Typed) {g : GlobalInfo}
    (hg : g ∈ i.script.checked.globals) :
    ∃ v, i.globals.find? g.name = some v ∧ v.type = g.type := by
  have hvalue := h.globals g.name
  rw [h.script.inFrame?_global hg, Option.map_some] at hvalue
  exact Option.map_eq_some_iff.mp hvalue

/-- An exported property is a mutable global of the same name and type. -/
theorem Checked.WellTyped.property_global {c : Checked} (h : c.WellTyped) {p : Property}
    (hp : p ∈ c.properties) :
    ∃ g ∈ c.globals, p.name = g.name ∧ p.type = g.type ∧ g.decl.mutable = true := by
  obtain ⟨g, hg, hgp⟩ := List.mem_filterMap.mp hp
  obtain ⟨before, after, hsplit⟩ := List.append_of_mem hg
  exact ⟨g, hg, (h.globals before g after hsplit).property p hgp⟩

theorem Hint.clamp_type (hint : Hint) (v : Value) : (hint.clamp v).type = v.type := by
  cases hint <;> cases v <;> rfl

/-- A property takes values of its type only. -/
theorem Property.accept_type {p : Property} {v w : Value} (h : p.accept v = .ok w) :
    w.type = p.type := by
  unfold accept at h
  cases hc : v.coerce? p.type with
  | none =>
      rw [hc] at h
      cases h
  | some u =>
      have hu := Value.coerce?_type hc
      simp only [hc] at h
      split at h
      · cases h
      · split at h
        · split at h
          · cases h
            exact hu
          · cases h
        · cases h
          rw [Hint.clamp_type, hu]

namespace Instance

/-- A property that is set is an exported one and takes a value that it accepts. -/
theorem setProperty_cases {i i' : Instance} {name : Text} {v : Value}
    (hset : i.setProperty name v = .ok i') :
    ∃ p w, p ∈ i.script.checked.properties ∧ p.name = name ∧ p.accept v = .ok w ∧
      i' = { i with globals := i.globals.set name w } := by
  unfold Instance.setProperty at hset
  split at hset
  · cases hset
  · next p hp =>
      split at hset
      · next w hw =>
          cases hset
          exact ⟨p, w, List.mem_of_find?_eq_some hp, by simpa using List.find?_some hp, hw, rfl⟩
      · cases hset

theorem Typed.setProperty {i i' : Instance} (h : i.Typed) {name : Text} {v : Value}
    (hset : i.setProperty name v = .ok i') : i'.Typed := by
  obtain ⟨p, w, hp, rfl, hw, rfl⟩ := setProperty_cases hset
  obtain ⟨g, hg, hname, htype, -⟩ := h.script.property_global hp
  refine ⟨h.script, h.globals.set ?_⟩
  rw [hname, h.script.inFrame?_global hg, Option.map_some, Property.accept_type hw, htype]
  rfl

theorem Typed.setProperties (properties : List (Text × Value)) :
    ∀ {i : Instance}, i.Typed → (i.setProperties properties).1.Typed := by
  induction properties with
  | nil => exact fun h => h
  | cons e rest ih =>
      intro i h
      rw [Instance.setProperties]
      cases hset : i.setProperty e.1 e.2 with
      | ok i' => exact ih (h.setProperty hset)
      | error e => exact ih h

/-! ## Creation -/

/-- The globals `before` have values; what the initializers of the others lead to. -/
theorem seedGlobals_sound {script : Script} {a : Attachment} (hc : script.checked.WellTyped)
    (hk : host.Keeps script.checked.signals R) (fuel : Nat) (after : List GlobalInfo) :
    ∀ (before : List GlobalInfo) (w : World σ), script.checked.globals = before ++ after →
      w.globals.Matches (before.map GlobalInfo.declared) →
      (∃ b s, seedGlobals (machine host script a) fuel after w = (.ok b, s) ∧
        b.Matches (script.checked.globals.map GlobalInfo.declared) ∧ R.rel w.host s) ∨
      (∃ name h s, seedGlobals (machine host script a) fuel after w = (.error (name, h), s) ∧
        h.IsOrdinary ∧ R.rel w.host s) := by
  induction after with
  | nil =>
      intro before w hsplit hw
      rw [List.append_nil] at hsplit
      exact .inl ⟨w.globals, w.host, rfl, hsplit ▸ hw, R.refl _⟩
  | cons g rest ih =>
      intro before w hsplit hw
      have hwell := hc.globals before g rest hsplit
      obtain ⟨t, ht, hfit⟩ := hwell.init
      -- No function may be called here, so nothing is asked of the functions.
      have hready : (machine host script a).Ready (before.map GlobalInfo.declared) false R :=
        ⟨hk, Bool.noConfusion⟩
      have hrun : Runs (before.map GlobalInfo.declared) R
          ((machine host script a).eval 0 [] fuel g.decl.init) w (fun v _ => v.type = t) :=
        (Machine.soundAt hready fuel).eval ht (Locals.sees_globals _) hw
      rw [seedGlobals]
      cases hx : (machine host script a).eval 0 [] fuel g.decl.init w with
      | error h w' =>
          obtain ⟨⟨-, -, hR⟩, hord⟩ := (ends_of_error hx).mp hrun
          exact .inr ⟨g.name, h, w'.host, rfl, hord, hR⟩
      | ok v w' =>
          obtain ⟨⟨hw', -, hR⟩, hv⟩ := (ends_of_ok hx).mp hrun
          have hfresh : Scope.inFrame? g.name (before.map GlobalInfo.declared) = none := by
            have hfind := hwell.fresh
            rw [Checked.initializing, Scope.find?_cons] at hfind
            exact (Option.or_eq_none_iff.mp hfind).1
          -- The value is brought to the type of its global before the next initializer sees it.
          have hset : (w'.globals.set g.name (v.coerceOrKeep g.type)).Matches
              ((before ++ [g]).map GlobalInfo.declared) := by
            rw [List.map_append]
            exact hw'.declare (x := g.declared) hfresh (Value.coerceOrKeep_type (hv ▸ hfit))
          rcases ih (before ++ [g]) { w' with globals := w'.globals.set g.name _ }
            (by rw [hsplit, List.append_assoc]; rfl) hset with
            ⟨b, s, hrest, hb, hR'⟩ | ⟨name, h, s, hrest, hord, hR'⟩
          · exact .inl ⟨b, s, hrest, hb, R.trans hR hR'⟩
          · exact .inr ⟨name, h, s, hrest, hord, R.trans hR hR'⟩

/-- A new instance has typed globals, and only an ordinary fault prevents it. -/
theorem create_sound {script : Script} (hc : script.checked.WellTyped)
    (hk : host.Keeps script.checked.signals R) (fuel : Nat) (a : Attachment)
    (properties : List (Text × Value)) (state : σ) :
    R.rel state (create host fuel script a properties state).host ∧
      match (create host fuel script a properties state).result with
      | .ok i    => i.Typed
      | .error h => h.IsOrdinary := by
  rcases seedGlobals_sound (a := a) hc hk fuel script.checked.globals [] ⟨[], state⟩ rfl
    Bindings.matches_nil with ⟨b, s, hseed, hb, hR⟩ | ⟨name, h, s, hseed, hord, hR⟩
  · rw [create, hseed]
    have htyped : Typed ⟨script, a, b⟩ := ⟨hc, hb⟩
    exact ⟨hR, htyped.setProperties properties⟩
  · rw [create, hseed]
    exact ⟨hR, hord⟩

/-- A reload is a creation, whatever the old instance was. -/
theorem reload_sound {script : Script} (hc : script.checked.WellTyped)
    (hk : host.Keeps script.checked.signals R) (fuel : Nat) (i : Instance) (state : σ) :
    R.rel state (i.reload host fuel script state).host ∧
      match (i.reload host fuel script state).result with
      | .ok i'   => i'.Typed
      | .error h => h.IsOrdinary :=
  create_sound hc hk fuel i.attachment (i.carriedOver script) state

/-! ## Calls -/

/-- A call from outside is turned away: there is no such function, the number of arguments is
    wrong, or an argument is of another type than its parameter. -/
inductive Refuses (i : Instance) (name : Text) (args : List Value) : FaultCause → Prop where
  | function : i.script.function? name = none → Refuses i name args (.unknownFunction name)
  | count (f : FunctionInfo) :
      i.script.function? name = some f → args.length ≠ f.signature.params.length →
      Refuses i name args (.argumentCount name f.signature.params.length args.length)
  | type (f : FunctionInfo) (n : Nat) (p : TypedName) (v : Value) :
      i.script.function? name = some f → args.length = f.signature.params.length →
      f.signature.params[n]? = some p → args[n]? = some v → v.coerce? p.type = none →
      Refuses i name args (.argumentType p.name name p.type v.type)

theorem Refuses.kind {i : Instance} {name : Text} {args : List Value} {cause : FaultCause}
    (h : i.Refuses name args cause) :
    cause.kind = .unknownFunction ∨ cause.kind = .argumentMismatch := by
  cases h with
  | function _ => exact .inl rfl
  | count _ _ _ => exact .inr rfl
  | type _ _ _ _ _ _ _ _ _ => exact .inr rfl

/-- Arguments are bound to parameters of their types, or one of them cannot be. -/
theorem bindArguments_sound (name : Text) (params : List TypedName) :
    ∀ args : List Value, args.length = params.length →
      (∃ bound, bindArguments name params args = .ok bound ∧ ArgumentsFit bound params) ∨
      (∃ (n : Nat) (p : TypedName) (v : Value), bindArguments name params args =
        .error (.argumentType p.name name p.type v.type) ∧
        params[n]? = some p ∧ args[n]? = some v ∧ v.coerce? p.type = none) := by
  induction params with
  | nil =>
      intro args hlen
      cases args with
      | nil => exact .inl ⟨[], rfl, .nil⟩
      | cons _ _ => cases hlen
  | cons p ps ih =>
      intro args hlen
      cases args with
      | nil => cases hlen
      | cons v vs =>
          cases hv : v.coerce? p.type with
          | none => exact .inr ⟨0, p, v, by rw [bindArguments, hv], rfl, rfl, hv⟩
          | some u =>
              rcases ih vs (Nat.succ.inj hlen) with
                ⟨bound, hb, hfit⟩ | ⟨n, q, x, hb, hq, hx, hc⟩
              · exact .inl ⟨u :: bound, by rw [bindArguments, hv, hb]; rfl,
                  .cons (.inl (Value.coerce?_type hv)) hfit⟩
              · exact .inr ⟨n + 1, q, x, by rw [bindArguments, hv, hb]; rfl, hq, hx, hc⟩

/-- What the arguments of a call from outside are bound to, or why it is turned away. -/
def receive (script : Script) (name : Text) (args : List Value) : Except FaultCause (List Value) :=
  match script.function? name with
  | none   => .error (.unknownFunction name)
  | some f =>
      if args.length ≠ f.signature.params.length then
        .error (.argumentCount name f.signature.params.length args.length)
      else bindArguments name f.signature.params args

/-- How a call from outside ends, once its code has run. -/
def concluded (i : Instance) (name : Text) :
    EStateM.Result Halt (World σ) Value → Instance × Ran σ Value
  | .ok v w    => ({ i with globals := w.globals }, ⟨.ok v, w.host, []⟩)
  | .error h w =>
      let payload := Json.obj [("trace", .array ((haltTrace h).map Json.string))]
      ({ i with globals := w.globals },
       ⟨.error h, w.host, i.attachment.logger.emit .warn
          (.text s!"{name}() failed: {haltText h}") (some payload)⟩)

/-- A call from outside is turned away before anything happens, or its code runs. -/
theorem invoke_eq (host : Host σ) (fuel : Nat) (i : Instance) (name : Text) (args : List Value)
    (state : σ) :
    i.invoke host fuel name args state =
      match receive i.script name args with
      | .error cause => (i, ⟨.error (.fault ⟨cause, none, []⟩), state, []⟩)
      | .ok bound    => i.concluded name
          ((machine host i.script i.attachment).call 0 fuel name bound none ⟨i.globals, state⟩) := by
  have hfind : (machine host i.script i.attachment).function? name = i.script.function? name := rfl
  rw [invoke, receive, hfind]
  cases i.script.function? name with
  | none => rfl
  | some f =>
      by_cases hlen : args.length ≠ f.signature.params.length
      · simp only [if_pos hlen]
      · simp only [if_neg hlen]
        cases bindArguments name f.signature.params args with
        | error cause => rfl
        | ok bound =>
            dsimp only
            cases (machine host i.script i.attachment).call 0 fuel name bound none
              ⟨i.globals, state⟩ <;> rfl

/-- The moment at which the code of a call from outside begins, if the call is not turned away. -/
def entry (fuel : Nat) (i : Instance) (name : Text) (args : List Value) (state : σ) :
    Option (Moment σ) :=
  match receive i.script name args with
  | .error _  => none
  | .ok bound => some ⟨0, fuel, .call name bound none, ⟨i.globals, state⟩⟩

theorem entry_eq_some_iff {fuel : Nat} {i : Instance} {name : Text} {args : List Value} {state : σ}
    {x : Moment σ} :
    entry fuel i name args state = some x ↔ ∃ bound, receive i.script name args = .ok bound ∧
      x = ⟨0, fuel, .call name bound none, ⟨i.globals, state⟩⟩ := by
  rw [entry]
  cases receive i.script name args with
  | error cause => exact ⟨nofun, nofun⟩
  | ok bound =>
      constructor
      · intro h
        exact ⟨bound, rfl, (Option.some.inj h).symm⟩
      · rintro ⟨_, ⟨⟩, rfl⟩
        rfl

/-- A call is refused for a reason, or its arguments fit the parameters. -/
theorem receive_sound (i : Instance) (name : Text) (args : List Value) :
    (∃ cause, receive i.script name args = .error cause ∧ i.Refuses name args cause) ∨
    (∃ f bound, receive i.script name args = .ok bound ∧ i.script.function? name = some f ∧
      ArgumentsFit bound f.signature.params) := by
  rw [receive]
  cases hf : i.script.function? name with
  | none => exact .inl ⟨_, rfl, .function hf⟩
  | some f =>
      by_cases hlen : args.length = f.signature.params.length
      · simp only [if_neg (not_not_intro hlen)]
        rcases bindArguments_sound name f.signature.params args hlen with
          ⟨bound, hb, hfit⟩ | ⟨n, p, v, hb, hp, hv, hc⟩
        · exact .inr ⟨f, bound, hb, rfl, hfit⟩
        · exact .inl ⟨_, hb, .type f n p v hf hlen hp hv hc⟩
      · simp only [ne_eq, if_pos hlen]
        exact .inl ⟨_, rfl, .count f hf hlen⟩

/-- The code of a call that is not turned away is that of a function whose parameters the arguments
    fit. -/
theorem entry_cases {fuel : Nat} {i : Instance} {name : Text} {args : List Value} {state : σ}
    {x : Moment σ} (h : entry fuel i name args state = some x) :
    ∃ f bound, i.script.function? name = some f ∧ ArgumentsFit bound f.signature.params ∧
      x = ⟨0, fuel, .call name bound none, ⟨i.globals, state⟩⟩ := by
  obtain ⟨bound, hreceive, rfl⟩ := entry_eq_some_iff.mp h
  rcases receive_sound i name args with ⟨cause, hrefused, -⟩ | ⟨f, bound', hreceive', hf, hfit⟩
  · cases hreceive.symm.trans hrefused
  · cases hreceive.symm.trans hreceive'
    exact ⟨f, bound, hf, hfit, rfl⟩

/-- What a call from outside leads to. It is refused and nothing happened; or code ran, the
    globals are typed, the immutable ones are as they were, and there is a value of the declared
    type or an ordinary fault. -/
theorem invoke_sound {i : Instance} (h : i.Typed) (hk : host.Keeps i.script.checked.signals R)
    (fuel : Nat) (name : Text) (args : List Value) (state : σ) :
    (∃ cause, i.Refuses name args cause ∧
      i.invoke host fuel name args state = (i, ⟨.error (.fault ⟨cause, none, []⟩), state, []⟩)) ∨
    (∃ f i' ran, i.script.function? name = some f ∧
      i.invoke host fuel name args state = (i', ran) ∧
      i'.Typed ∧ i.Becomes i' ∧ R.rel state ran.host ∧
      match ran.result with
      | .ok v    => v.type = f.signature.returns
      | .error h => h.IsOrdinary) := by
  rcases receive_sound i name args with ⟨cause, hreceive, hrefuses⟩ | ⟨f, bound, hreceive, hf, hfit⟩
  · exact .inl ⟨cause, hrefuses, by rw [invoke_eq, hreceive]⟩
  · right
    -- From outside every function may be called, and each of them obeys the rules.
    have hready : (machine host i.script i.attachment).Ready
        (i.script.checked.globals.map GlobalInfo.declared) true R :=
      ⟨hk, fun _ => h.script.functions⟩
    have hrun : Runs (i.script.checked.globals.map GlobalInfo.declared) R
        ((machine host i.script i.attachment).call 0 fuel name bound none)
        ⟨i.globals, state⟩ (fun v _ => v.type = f.signature.returns) :=
      (Machine.soundAt hready fuel).call rfl hf hfit h.globals
    rw [invoke_eq, hreceive]
    dsimp only
    cases hx : (machine host i.script i.attachment).call 0 fuel name bound none
        ⟨i.globals, state⟩ with
    | ok v w =>
        obtain ⟨⟨hg, hsteady, hR⟩, hv⟩ := (ends_of_ok hx).mp hrun
        exact ⟨f, _, _, hf, rfl, ⟨h.script, hg⟩, ⟨rfl, hsteady⟩, hR, hv⟩
    | error e w =>
        obtain ⟨⟨hg, hsteady, hR⟩, hord⟩ := (ends_of_error hx).mp hrun
        exact ⟨f, _, _, hf, rfl, ⟨h.script, hg⟩, ⟨rfl, hsteady⟩, hR, hord⟩

end Instance

end SceneScript
