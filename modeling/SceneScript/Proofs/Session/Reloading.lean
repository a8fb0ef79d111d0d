import Mathlib.Data.List.Induction
import Mathlib.Data.List.Nodup
import SceneScript.Proofs.Session.Creation
import SceneScript.Proofs.Session.Immutable
import SceneScript.Proofs.Typing.Reordering

/-!
# What carries over to another script

When an instance is replaced by one of another script, all globals of the new script are
initialized first, and then its properties are given the values of the old properties of the same
name and type. A value is brought into the new range, and one that the new property does not accept
is left out. Nothing else of the old instance is seen by the new one, and the old one stays.

* **`Property.accepts`** — which values of its type a property takes.
* **`Instance.find?_setProperties`** — the globals after properties were written.
* **`Instance.mem_carriedOver`** — which values are carried over.
* **`Instance.InitialValue`**, **`Instance.initialValue_of_seedGlobals`** — what initializers give.
* **`Instance.reload_spec`**, **`Session.reload_carriesOver`** — the values after a reload.
-/

namespace SceneScript

/-! ## Names -/

/-- A list of which no item has the name of an earlier one has distinct names. -/
theorem nodup_of_fresh {α : Type} {name : α → Text} (items : List α)
    (h : ∀ before x after, items = before ++ x :: after → name x ∉ before.map name) :
    (items.map name).Nodup := by
  induction items using List.reverseRecOn with
  | nil => exact List.nodup_nil
  | append_singleton rest x ih =>
      have hrest : (rest.map name).Nodup := by
        refine ih fun before y after hsplit => h before y (after ++ [x]) ?_
        rw [hsplit, List.append_assoc]
        rfl
      rw [List.map_append, List.nodup_append]
      refine ⟨hrest, List.nodup_singleton _, fun n hn m hm hsame => ?_⟩
      obtain rfl : m = name x := List.mem_singleton.mp hm
      exact h rest x [] rfl (hsame ▸ hn)

theorem Bindings.find?_eq_some_iff_mem {b : Bindings} (h : (b.map Prod.fst).Nodup) {n : Text}
    {v : Value} : b.find? n = some v ↔ (n, v) ∈ b := by
  induction b with
  | nil => simp [find?]
  | cons e rest ih =>
      obtain ⟨m, w⟩ := e
      obtain ⟨hfresh, hrest⟩ := List.nodup_cons.mp h
      rw [find?_cons, List.mem_cons]
      by_cases hm : m = n
      · subst hm
        rw [if_pos rfl, Option.some.injEq, Prod.mk.injEq]
        refine ⟨fun hw => .inl ⟨rfl, hw.symm⟩, ?_⟩
        rintro (⟨-, hw⟩ | hin)
        · exact hw.symm
        · exact absurd (List.mem_map_of_mem hin) hfresh
      · rw [if_neg hm, ih hrest, Prod.mk.injEq]
        exact ⟨.inr, fun hin => hin.resolve_left fun hsame => hm hsame.1.symm⟩

namespace Checked.WellTyped

variable {c : Checked}

theorem nodup_globals (h : c.WellTyped) : (c.globals.map GlobalInfo.name).Nodup := by
  refine nodup_of_fresh c.globals fun before g after hsplit hin => ?_
  have hfresh := (h.globals before g after hsplit).fresh
  rw [Checked.initializing, Scope.find?_cons] at hfresh
  have hnone := List.find?_eq_none.mp (Option.or_eq_none_iff.mp hfresh).1
  obtain ⟨x, hx, hname⟩ := List.mem_map.mp hin
  exact hnone x.declared (List.mem_map_of_mem hx) (beq_iff_eq.mpr hname)

theorem property_name (h : c.WellTyped) {g : GlobalInfo} (hg : g ∈ c.globals) {p : Property}
    (hp : g.property = some p) : p.name = g.name ∧ p.type = g.type := by
  obtain ⟨before, after, hsplit⟩ := List.append_of_mem hg
  obtain ⟨hname, htype, -⟩ := (h.globals before g after hsplit).property p hp
  exact ⟨hname, htype⟩

/-- Properties have distinct names, because the globals that they are have. -/
theorem nodup_properties (h : c.WellTyped) : (c.properties.map Property.name).Nodup :=
  (map_filterMap_sublist c.globals fun _ hg _ hp => (h.property_name hg hp).1).nodup
    h.nodup_globals

/-- The property of a name is that of the global of the name. -/
theorem property_of_name (h : c.WellTyped) {g : GlobalInfo} (hg : g ∈ c.globals) {q : Property}
    (hq : q ∈ c.properties) (hname : q.name = g.name) : g.property = some q := by
  obtain ⟨g', hg', hq'⟩ := List.mem_filterMap.mp hq
  have hsame : g' = g := List.inj_on_of_nodup_map h.nodup_globals hg' hg
    ((h.property_name hg' hq').1.symm.trans hname)
  exact hsame ▸ hq'

end Checked.WellTyped

theorem Script.property?_eq_some_iff {s : Script} (h : s.checked.WellTyped) {n : Text}
    {q : Property} : s.property? n = some q ↔ q ∈ s.checked.properties ∧ q.name = n := by
  constructor
  · intro hq
    exact ⟨List.mem_of_find?_eq_some hq, by simpa using List.find?_some hq⟩
  · rintro ⟨hq, rfl⟩
    obtain ⟨before, after, hsplit⟩ := List.append_of_mem hq
    have hnodup := h.nodup_properties
    rw [hsplit, List.map_append, List.nodup_append] at hnodup
    refine List.find?_eq_some_iff_append.mpr
      ⟨beq_self_eq_true q.name, before, after, hsplit, fun p hp => ?_⟩
    have hne : p.name ≠ q.name := hnodup.2.2 _ (List.mem_map_of_mem hp) _ List.mem_cons_self
    rw [beq_eq_false_iff_ne.mpr hne]
    rfl

/-! ## Writing properties -/

/-- Whether a property takes a value of its type: a finite one, and one of its options. -/
def Property.accepts (q : Property) (v : Value) : Bool :=
  v.isFinite &&
    match q.hint with
    | .options values => isOption values v
    | _               => true

/-- A value that can be brought to the type is brought into the range too, if it is accepted. -/
theorem Property.accept_coerced {q : Property} {v w : Value} (h : v.coerce? q.type = some w) :
    (q.accept v).toOption = if q.accepts w then some (q.hint.clamp w) else none := by
  rw [accept, accepts, h]
  dsimp only
  cases hfinite : w.isFinite with
  | false => simp [Except.toOption]
  | true =>
      cases q.hint with
      | options values =>
          cases hoption : isOption values w with
          | false => simp [hoption, Except.toOption]
          | true => simp [hoption, Except.toOption, Hint.clamp]
      | _ => simp [Except.toOption]

/-- The value that a property has when it is given one, if it takes it. -/
def Script.taken? (s : Script) (name : Text) (v : Value) : Option Value :=
  (s.property? name).bind fun q => (q.accept v).toOption

namespace Instance

/-- A property is set to the value that it takes, or it is left alone. -/
theorem setProperty_taken (i : Instance) (name : Text) (v : Value) :
    match i.setProperty name v with
    | .ok i'   => ∃ u, i.script.taken? name v = some u ∧
        i' = { i with globals := i.globals.set name u }
    | .error _ => i.script.taken? name v = none := by
  rw [Instance.setProperty, Script.taken?]
  cases i.script.property? name with
  | none => rfl
  | some q =>
      rw [Option.bind_some]
      dsimp only
      cases q.accept v with
      | error e => rfl
      | ok u => exact ⟨u, rfl, rfl⟩

/-- Properties that are written under different names do not see each other. -/
theorem find?_setProperties (properties : Bindings) :
    ∀ i : Instance, (properties.map Prod.fst).Nodup → ∀ n,
      (i.setProperties properties).1.globals.find? n =
        ((properties.find? n).bind (i.script.taken? n)).or (i.globals.find? n) := by
  induction properties with
  | nil => exact fun i _ n => rfl
  | cons e rest ih =>
      intro i h n
      obtain ⟨m, v⟩ := e
      obtain ⟨hfresh, hrest⟩ := List.nodup_cons.mp h
      have habsent : m = n → Bindings.find? rest n = none := by
        rintro rfl
        refine Option.eq_none_iff_forall_ne_some.mpr fun w hw => hfresh ?_
        have hin : (m, w) ∈ rest := (Bindings.find?_eq_some_iff_mem hrest).mp hw
        exact List.mem_map.mpr ⟨(m, w), hin, rfl⟩
      have hset := i.setProperty_taken m v
      rw [Instance.setProperties, Bindings.find?_cons]
      cases hcase : i.setProperty m v with
      | error e =>
          rw [hcase] at hset
          refine (ih i hrest n).trans ?_
          by_cases hm : m = n
          · rw [habsent hm, if_pos hm, Option.bind_some, ← hm, hset]
            rfl
          · rw [if_neg hm]
      | ok i' =>
          rw [hcase] at hset
          obtain ⟨u, hu, rfl⟩ := hset
          refine (ih { i with globals := i.globals.set m u } hrest n).trans ?_
          rw [Bindings.find?_set]
          by_cases hm : m = n
          · rw [habsent hm, if_pos hm, if_pos hm, Option.bind_some, ← hm, hu]
            rfl
          · rw [if_neg hm, if_neg hm]

/-! ## Carrying over -/

/-- What is carried over to a property: the value of the old property of its name and type. -/
theorem mem_carriedOver {i : Instance} {script : Script} {n : Text} {v : Value} :
    (n, v) ∈ i.carriedOver script ↔ ∃ p ∈ i.script.checked.properties, p.name = n ∧
      (∃ q, script.property? n = some q ∧ q.type = p.type) ∧ i.globals.find? n = some v := by
  rw [carriedOver, List.mem_filterMap]
  constructor
  · rintro ⟨p, hp, hcarried⟩
    split at hcarried
    · next q w hq hw =>
        split at hcarried
        · next htype =>
            cases hcarried
            exact ⟨p, hp, rfl, ⟨q, hq, htype⟩, hw⟩
        · cases hcarried
    · cases hcarried
  · rintro ⟨p, hp, rfl, ⟨q, hq, htype⟩, hv⟩
    refine ⟨p, hp, ?_⟩
    rw [hq, hv]
    exact if_pos htype

theorem nodup_carriedOver {i : Instance} (h : i.script.checked.WellTyped) (script : Script) :
    ((i.carriedOver script).map Prod.fst).Nodup := by
  rw [carriedOver]
  refine (map_filterMap_sublist _ fun p _ e he => ?_).nodup h.nodup_properties
  split at he
  · split at he
    · cases he
      rfl
    · cases he
  · cases he

/-! ## Initial values -/

variable {σ : Type} {host : Host σ} {script : Script} {a : Attachment} {fuel : Nat}

/-- What the initializer of a global gives in a new instance. It sees the globals before it with
    what their initializers gave. -/
def InitialValue (m : Machine σ) (fuel : Nat) (globals : List GlobalInfo) (state : σ)
    (g : GlobalInfo) (u : Value) : Prop :=
  ∃ before after b v, globals = before ++ g :: after ∧
    seedGlobals m fuel before ⟨[], state⟩ = (.ok b, state) ∧
    m.eval 0 [] fuel g.decl.init ⟨b, state⟩ = .ok v ⟨b, state⟩ ∧ u = v.coerceOrKeep g.type

/-- Initializers run one after the other. -/
theorem seedGlobals_append {m : Machine σ} (before : List GlobalInfo) {after : List GlobalInfo}
    {b : Bindings} {s : σ} :
    ∀ {w : World σ}, seedGlobals m fuel (before ++ after) w = (.ok b, s) →
      ∃ b' s', seedGlobals m fuel before w = (.ok b', s') ∧
        seedGlobals m fuel after ⟨b', s'⟩ = (.ok b, s) := by
  induction before with
  | nil => exact fun {w} h => ⟨w.globals, w.host, rfl, h⟩
  | cons g rest ih =>
      intro w h
      rw [List.cons_append, seedGlobals] at h
      rw [seedGlobals]
      cases hx : m.eval 0 [] fuel g.decl.init w with
      | error e w' =>
          rw [hx] at h
          cases h
      | ok v w' =>
          rw [hx] at h
          exact ih h

/-- Initializers leave all other globals alone. -/
theorem find?_seedGlobals (hc : script.checked.WellTyped) {b : Bindings} {s : σ}
    (after : List GlobalInfo) :
    ∀ (before : List GlobalInfo) (w : World σ), script.checked.globals = before ++ after →
      seedGlobals (machine host script a) fuel after w = (.ok b, s) →
      ∀ n, n ∉ after.map GlobalInfo.name → b.find? n = w.globals.find? n := by
  induction after with
  | nil =>
      intro before w _ h n _
      cases h
      rfl
  | cons g rest ih =>
      intro before w hsplit h n hn
      have hlooks := looks_init (a := a) hc host.looks_anything fuel hsplit
      obtain ⟨hname, hrest⟩ := not_or.mp (List.mem_cons.not.mp hn)
      rw [seedGlobals] at h
      cases hx : (machine host script a).eval 0 [] fuel g.decl.init w with
      | error e w' =>
          rw [hx] at h
          cases h
      | ok v w' =>
          have hseen := (ends_of_ok hx).mp (hlooks w)
          rw [hx] at h
          have hlater := ih (before ++ [g]) _ (by rw [hsplit, List.append_assoc]; rfl) h n hrest
          rw [hlater, Bindings.find?_set, if_neg (Ne.symm hname), hseen.globals]

/-- After all initializers each global has what its own one gave. -/
theorem initialValue_of_seedGlobals (hc : script.checked.WellTyped) (hh : host.IsObserved)
    {b : Bindings} {s state : σ}
    (h : seedGlobals (machine host script a) fuel script.checked.globals ⟨[], state⟩ = (.ok b, s))
    {g : GlobalInfo} (hg : g ∈ script.checked.globals) :
    ∃ u, InitialValue (machine host script a) fuel script.checked.globals state g u ∧
      b.find? g.name = some u := by
  obtain ⟨before, after, hsplit⟩ := List.append_of_mem hg
  have hall := (seedGlobals_quiet (a := a) hc hh fuel script.checked.globals [] ⟨[], state⟩ rfl).1
  rw [h] at hall
  obtain rfl : s = state := hall
  rw [hsplit] at h
  obtain ⟨b', s', hbefore, hafter⟩ := seedGlobals_append before h
  have hhost := (seedGlobals_quiet (a := a) hc hh fuel (g :: after) before ⟨b', s'⟩ hsplit).1
  rw [hafter] at hhost
  obtain rfl : s = s' := hhost
  have hquiet := quiet_init (a := a) hc hh fuel hsplit
  rw [seedGlobals] at hafter
  cases hx : (machine host script a).eval 0 [] fuel g.decl.init ⟨b', s⟩ with
  | error e w =>
      rw [hx] at hafter
      cases hafter
  | ok v w =>
      obtain rfl : w = ⟨b', s⟩ := (ends_of_ok hx).mp (hquiet _)
      rw [hx] at hafter
      refine ⟨v.coerceOrKeep g.type, ⟨before, after, b', v, hsplit, hbefore, hx, rfl⟩, ?_⟩
      -- No global behind it has its name, so its value is there at the end.
      have hnames := hc.nodup_globals
      rw [hsplit, List.map_append, List.map_cons] at hnames
      have hfresh := (List.nodup_cons.mp (List.nodup_append.mp hnames).2.1).1
      have hlater := find?_seedGlobals hc after (before ++ [g]) _
        (by rw [hsplit, List.append_assoc]; rfl) hafter g.name hfresh
      rw [hlater, Bindings.find?_set, if_pos rfl]

/-! ## Reloads -/

theorem create_ok {properties : List (Text × Value)} {state : σ} {j : Instance}
    (h : (create host fuel script a properties state).result = .ok j) :
    ∃ b s, seedGlobals (machine host script a) fuel script.checked.globals ⟨[], state⟩ = (.ok b, s) ∧
      j = (setProperties ⟨script, a, b⟩ properties).1 := by
  rw [create] at h
  cases hseed : seedGlobals (machine host script a) fuel script.checked.globals ⟨[], state⟩ with
  | mk seeded s =>
      rw [hseed] at h
      cases seeded with
      | error e => cases h
      | ok b =>
          cases h
          exact ⟨b, s, rfl, rfl⟩

/-- An exported property has a value of its type. -/
theorem Typed.property {i : Instance} (h : i.Typed) {p : Property}
    (hp : p ∈ i.script.checked.properties) :
    ∃ v, i.globals.find? p.name = some v ∧ v.type = p.type := by
  obtain ⟨g, hg, hname, htype, -⟩ := h.script.property_global hp
  rw [hname, htype]
  exact h.global hg

/-- The value of a global in an instance `j` that takes the place of `i`, where its initializer
    gave `u`. A property of the same name and type carries over, if its value is accepted. -/
structure Inherits (i j : Instance) (g : GlobalInfo) (u : Value) : Prop where
  carried : ∀ q p, g.property = some q → p ∈ i.script.checked.properties → p.name = q.name →
    p.type = q.type → ∃ v w, i.globals.find? q.name = some v ∧ v.coerce? q.type = some w ∧
      j.globals.find? g.name = some (if q.accepts w then q.hint.clamp w else u)
  own     : (∀ q p, g.property = some q → p ∈ i.script.checked.properties → p.name = q.name →
    p.type ≠ q.type) → j.globals.find? g.name = some u

/-- An old property of the name and type of a new one carries its value over. -/
theorem find?_carriedOver {i : Instance} (hi : i.Typed) (hc : script.checked.WellTyped)
    {p q : Property} (hp : p ∈ i.script.checked.properties) (hq : q ∈ script.checked.properties)
    (hname : p.name = q.name) (htype : p.type = q.type) :
    ∃ v, i.globals.find? q.name = some v ∧ v.type = q.type ∧
      Bindings.find? (i.carriedOver script) q.name = some v := by
  obtain ⟨v, hv, hvtype⟩ := hi.property hp
  rw [hname] at hv
  have hfind : script.property? q.name = some q :=
    (Script.property?_eq_some_iff hc).mpr ⟨hq, rfl⟩
  refine ⟨v, hv, hvtype.trans htype, ?_⟩
  refine (Bindings.find?_eq_some_iff_mem (nodup_carriedOver hi.script script)).mpr ?_
  exact mem_carriedOver.mpr ⟨p, hp, hname, ⟨q, hfind, htype.symm⟩, hv⟩

/-- To a global that is no property of the name and type of an old one nothing is carried over. -/
theorem find?_carriedOver_none {i : Instance} (hi : i.script.checked.WellTyped)
    (hc : script.checked.WellTyped) {g : GlobalInfo} (hg : g ∈ script.checked.globals)
    (hother : ∀ q p, g.property = some q → p ∈ i.script.checked.properties → p.name = q.name →
      p.type ≠ q.type) :
    Bindings.find? (i.carriedOver script) g.name = none := by
  refine Option.eq_none_iff_forall_ne_some.mpr fun v hv => ?_
  obtain ⟨p, hp, hname, ⟨q, hq, htype⟩, -⟩ :=
    mem_carriedOver.mp ((Bindings.find?_eq_some_iff_mem (nodup_carriedOver hi script)).mp hv)
  obtain ⟨hmem, hqname⟩ := (Script.property?_eq_some_iff hc).mp hq
  have hproperty := hc.property_of_name hg hmem hqname
  exact hother q p hproperty hp (hname.trans hqname.symm) htype.symm

/-- The globals after a reload. -/
theorem reload_spec {i j : Instance} (hi : i.Typed) (hc : script.checked.WellTyped)
    (hh : host.IsObserved) {state : σ} (h : (i.reload host fuel script state).result = .ok j) :
    j.script = script ∧ ∀ g ∈ script.checked.globals, ∃ u,
      InitialValue (machine host script i.attachment) fuel script.checked.globals state g u ∧
        i.Inherits j g u := by
  refine ⟨create_script h, fun g hg => ?_⟩
  obtain ⟨b, s, hseed, rfl⟩ := create_ok h
  obtain ⟨u, hinit, hu⟩ := initialValue_of_seedGlobals hc hh hseed hg
  have hvalue := find?_setProperties (i.carriedOver script) ⟨script, i.attachment, b⟩
    (nodup_carriedOver hi.script script) g.name
  rw [hu] at hvalue
  refine ⟨u, hinit, ⟨fun q p hq hp hname htype => ?_, fun hother => ?_⟩⟩
  · have hqname := (hc.property_name hg hq).1
    have hmem : q ∈ script.checked.properties := List.mem_filterMap.mpr ⟨g, hg, hq⟩
    obtain ⟨v, hv, hvtype, hcarried⟩ := find?_carriedOver hi hc hp hmem hname htype
    have hcoerce : v.coerce? q.type = some v := if_pos hvtype
    refine ⟨v, v, hv, hcoerce, hvalue.trans ?_⟩
    have hfind : script.property? q.name = some q :=
      (Script.property?_eq_some_iff hc).mpr ⟨hmem, rfl⟩
    rw [← hqname, hcarried, Option.bind_some, Script.taken?, hfind, Option.bind_some,
      Property.accept_coerced hcoerce]
    by_cases haccepts : q.accepts v = true
    · rw [if_pos haccepts, if_pos haccepts]
      rfl
    · rw [if_neg haccepts, if_neg haccepts]
      rfl
  · rw [hvalue, find?_carriedOver_none hi.script hc hg hother]
    rfl

end Instance

namespace Session

/-- What carries over in a reload. After any history an instance is replaced by one of another
    script that compiles. The scene and all instances, with their globals and scripts, are as they
    were, and the new instance is behind them. Each of its globals has the value that its
    initializer gives in the scene, whatever the old instance was; but a property has the value of
    the old property of the same name and type, brought into its range, if it takes it. -/
theorem reload_carriesOver (onPrint : PrintHook) (scene : Scene) (history : List Action)
    (fuel k : Nat) (next : AcceptedScript) (i j : Instance)
    (hk : (run onPrint ⟨scene, []⟩ history).instances[k]? = some i)
    (hj : (i.reload (Scene.hostWith onPrint) fuel next.1
      (run onPrint ⟨scene, []⟩ history).scene).result = .ok j) :
    let s := run onPrint ⟨scene, []⟩ history
    (s.step onPrint (.reload fuel k next)).1 = ⟨s.scene, s.instances ++ [j]⟩ ∧
    j.script = next.1 ∧
    ∀ g ∈ next.1.checked.globals, ∃ u,
      Instance.InitialValue (Instance.machine (Scene.hostWith onPrint) next.1 i.attachment) fuel
        next.1.checked.globals s.scene g u ∧
      i.Inherits j g u := by
  intro s
  have hi : i.Typed := run_typed onPrint scene history i (List.mem_of_getElem? hk)
  have hh := Scene.hostWith_isObserved onPrint
  refine ⟨?_, Instance.reload_spec hi next.2.wellTyped hh hj⟩
  have hhost : (i.reload (Scene.hostWith onPrint) fuel next.1 s.scene).host = s.scene :=
    (Instance.create_quiet next.2.wellTyped hh fuel i.attachment (i.carriedOver next.1) s.scene).1
  rw [step, hk]
  dsimp only
  rw [attach, hj, hhost]

/-- A script that writes a property beyond its range. -/
def healing : AcceptedScript :=
  (AcceptedScript.ofText?
    "@export(range(0, 100)) let mut hp: i32 = 10; fn heal() { hp = 150; }").get (by decide +kernel)

/-- A script with a property of the same name and type and a narrower range. -/
def frail : AcceptedScript :=
  (AcceptedScript.ofText? "@export(range(0, 20)) let mut hp: i32 = 10; let full = hp * 2;").get
    (by decide +kernel)

/-- The property of `healing` and that of `frail`. -/
def health (max : Nat) : Property := ⟨"hp", .i32, .range .zero (.ofInt max) (.ofInt 1), .int 10⟩

theorem reload_carriesOver_health :
    let history : List Action :=
      [.create 9 healing ⟨Scene.root, 256, .silent⟩ [], .invoke 20 0 "heal" []]
    let s := run (fun _ _ => []) ⟨Scene.ofRoot "root", []⟩ history
    ∃ i j : Instance, s.instances[0]? = some i ∧
      (i.reload (Scene.hostWith fun _ _ => []) 9 frail.1 s.scene).result = .ok j ∧
      i.globals.find? "hp" = some (.int 150) ∧ j.globals.find? "hp" = some (.int 20) := by
  intro history s
  -- One evaluation for the three facts: each compiles the scripts.
  obtain ⟨hold, hmade, hnew⟩ :
      (s.instances[0]?.map fun i => (i.script.checked.properties, i.globals.find? "hp")) =
        some ([health 100], some (.int 150)) ∧
      (s.instances[0]?.map fun i =>
        (i.reload (Scene.hostWith fun _ _ => []) 9 frail.1 s.scene).result.isOk) = some true ∧
      ∃ g ∈ frail.1.checked.globals, g.name = "hp" ∧ g.property = some (health 20) := by
    decide +kernel
  obtain ⟨i, hi, hi'⟩ := Option.map_eq_some_iff.mp hold
  obtain ⟨hproperties, hvalue⟩ := Prod.mk.inj hi'
  rw [hi] at hmade
  cases hj : (i.reload (Scene.hostWith fun _ _ => []) 9 frail.1 s.scene).result with
  | error e =>
      rw [Option.map_some, hj] at hmade
      cases hmade
  | ok j =>
      obtain ⟨-, -, hall⟩ := reload_carriesOver (fun _ _ => []) (Scene.ofRoot "root") history 9 0
        frail i j hi hj
      obtain ⟨g, hg, hname, hproperty⟩ := hnew
      obtain ⟨u, -, hinherits⟩ := hall g hg
      obtain ⟨v, w, hv, hw, hjv⟩ := hinherits.carried (health 20) (health 100) hproperty
        (hproperties ▸ List.mem_singleton_self _) rfl rfl
      cases hvalue.symm.trans hv
      cases hw
      refine ⟨i, j, hi, hj, hvalue, ?_⟩
      have hclamp : (if (health 20).accepts (.int 150) then (health 20).hint.clamp (.int 150)
          else u) = .int 20 := by
        rw [if_pos (by decide +kernel)]
        decide +kernel
      rw [← hname, hjv, hclamp]

end Session

end SceneScript
