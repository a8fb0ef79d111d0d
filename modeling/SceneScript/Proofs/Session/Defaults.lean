import SceneScript.Proofs.Eval.Constants
import SceneScript.Proofs.Session.Properties

/-!
# What a new instance begins with

Right after its creation a property has the default that the script shows for it, or the last
value that it accepted of those that the host provides. The default was checked against a list of
options when the script was compiled, and a value from the host is checked when it is written, so a
property with options has one of them, whatever the host is. The default was not checked against a
range: a property with a range is outside of it when its default is and the host provides no value.

* **`Instance.find?_default`** — what the initializers give a property.
* **`Script.taken`**, **`Instance.create_property`** — the last value that is taken from the host,
  or the default.
* **`Instance.create_constants`** — constants, and an instance to which the host gives nothing.
* **`Instance.create_listed`**, **`Instance.create_range`** — options and ranges of a new instance.
* **`Instance.create_hints`** — all properties with a hint, and when a range is kept.
-/

namespace SceneScript

namespace Instance

variable {σ : Type} {host : Host σ} {script : Script} {a : Attachment} {fuel : Nat}

/-! ## Defaults -/

/-- After all initializers a property has its default, whatever the host is. -/
theorem find?_default (hs : script.Accepted) {b : Bindings} {state s : σ}
    (h : seedGlobals (machine host script a) fuel script.checked.globals ⟨[], state⟩ = (.ok b, s))
    {p : Property} (hp : p ∈ script.checked.properties) :
    b.find? p.name = some p.defaultValue := by
  obtain ⟨g, hg, hgp, mark, hexports⟩ := hs.property_exports hp
  obtain ⟨before, after, hsplit⟩ := List.append_of_mem hg
  rw [hsplit] at h
  obtain ⟨b', s', -, hafter⟩ := seedGlobals_append before h
  obtain ⟨v, hv, -⟩ := Option.bind_eq_some_iff.mp hexports.default
  rw [seedGlobals] at hafter
  rcases Machine.eval_constant hv (machine host script a) 0 [] fuel ⟨b', s'⟩ with hx | ⟨-, hx⟩
  · rw [hx] at hafter
    -- No global behind it has its name, so its value is there at the end.
    have hnames := hs.wellTyped.nodup_globals
    rw [hsplit, List.map_append, List.map_cons] at hnames
    have hfresh := (List.nodup_cons.mp (List.nodup_append.mp hnames).2.1).1
    have hlater := find?_seedGlobals hs.wellTyped after (before ++ [g]) _
      (by rw [hsplit, List.append_assoc]; rfl) hafter g.name hfresh
    have hname : p.name = g.name := hexports.name
    rw [hname, hlater, Bindings.find?_set, if_pos rfl, coerceOrKeep_constant hv hexports.default]
  · rw [hx] at hafter
    cases hafter

end Instance

/-! ## Values of the host -/

/-- What the property of a name takes of some values, in order. -/
def Script.taken (s : Script) (n : Text) (properties : List (Text × Value)) : List Value :=
  properties.filterMap fun e => if e.1 = n then s.taken? n e.2 else none

namespace Instance

variable {σ : Type} {host : Host σ} {script : Script} {a : Attachment} {fuel : Nat}

/-- Of several values that are written to a property, the last one that it takes is left. -/
theorem find?_setProperties_taken (n : Text) (properties : List (Text × Value)) :
    ∀ i : Instance, (i.setProperties properties).1.globals.find? n =
      ((i.script.taken n properties).getLast?).or (i.globals.find? n) := by
  induction properties with
  | nil => exact fun i => rfl
  | cons e rest ih =>
      intro i
      obtain ⟨m, v⟩ := e
      have hset := i.setProperty_taken m v
      rw [Instance.setProperties, Script.taken, List.filterMap_cons]
      cases hcase : i.setProperty m v with
      | error e =>
          rw [hcase] at hset
          refine (ih i).trans ?_
          by_cases hm : m = n
          · subst hm
            rw [if_pos rfl, hset]
            rfl
          · rw [if_neg hm]
            rfl
      | ok i' =>
          rw [hcase] at hset
          obtain ⟨u, hu, rfl⟩ := hset
          refine (ih { i with globals := i.globals.set m u }).trans ?_
          rw [Bindings.find?_set]
          by_cases hm : m = n
          · subst hm
            rw [if_pos rfl, if_pos rfl, hu, List.getLast?_cons]
            change ((i.script.taken m rest).getLast?).or (some u) =
              some (((i.script.taken m rest).getLast?).getD u)
            cases (i.script.taken m rest).getLast? <;> rfl
          · rw [if_neg hm, if_neg hm]
            rfl

/-- A property of a new instance has the last value that it takes from the host, or its default. -/
theorem create_property (hs : script.Accepted) {properties : List (Text × Value)} {state : σ}
    {i : Instance} (h : (create host fuel script a properties state).result = .ok i)
    {p : Property} (hp : p ∈ script.checked.properties) :
    i.getProperty p.name =
      some (((script.taken p.name properties).getLast?).getD p.defaultValue) := by
  have hscript := create_script h
  have hfind : i.script.property? p.name = some p := by
    rw [hscript]
    exact (Script.property?_eq_some_iff hs.wellTyped).mpr ⟨hp, rfl⟩
  obtain ⟨b, s, hseed, rfl⟩ := create_ok h
  rw [getProperty, hfind, Option.bind_some, find?_setProperties_taken, find?_default hs hseed hp]
  cases (script.taken p.name properties).getLast? <;> rfl

/-- Constants are what they are said to be. Wherever a constant expression of a type runs, with
    whatever variables, at whatever depth and on whatever host, it ends with one value, and this
    value as one of the type is the constant; no host is needed for it, since the host may fail at
    everything, and the world is as before. So an instance that is created without values from the
    host begins with the defaults that its properties show. -/
theorem create_constants :
    (∀ (e : Expr) (t : Ty) (v : Value), constantAs? e t = some v →
      ∃ (u : Value) (enough : Nat), u.coerce? t = some v ∧
        ∀ {σ : Type} (m : Machine σ) (depth : Nat) (locals : Locals) (fuel : Nat) (w : World σ),
          enough ≤ fuel → m.eval depth locals fuel e w = .ok u w) ∧
    ∀ {σ : Type} (host : Host σ) (fuel : Nat) (script : AcceptedScript) (a : Attachment)
      (state : σ) (i : Instance), (create host fuel script.1 a [] state).result = .ok i →
      ∀ p ∈ script.1.checked.properties, i.getProperty p.name = some p.defaultValue := by
  refine ⟨fun e t v h => ?_, fun host fuel script a state i h p hp => ?_⟩
  · obtain ⟨u, hu, hcoerce⟩ := Option.bind_eq_some_iff.mp h
    refine ⟨u, sizeOf e + 1, hcoerce, fun m depth locals fuel w hle => ?_⟩
    exact (Machine.eval_constant hu m depth locals fuel w).resolve_right fun hfuel => hfuel.1 hle
  · exact create_property script.2 h hp

/-- The literal `Vector2 { x: -1, x: 2, y: 0.5 }`. -/
def repeatedField : Expr :=
  .struct .origin ⟨"Vector2", .origin⟩
    [(⟨"x", .origin⟩, .unary .origin .neg (.int .origin 1 "1")),
     (⟨"x", .origin⟩, .int .origin 2 "2"),
     (⟨"y", .origin⟩, .float .origin (.ofRatio false 1 2) "0.5")]

/-- A script with defaults that are negated, widened and nested. -/
def nestedDefaults : AcceptedScript :=
  (AcceptedScript.ofText?
    ("@export let mut speed: f32 = -3;" ++
      "@export let mut area = Rect2 \x7b position: Vector2 { x: 1, y: -2.5 }, " ++
        "size: Vector2 { x: 4, y: 4 } \x7d;")).get (by decide +kernel)

theorem create_constants_nested :
    (∃ v, constantAs? repeatedField .vector2 = some v ∧
      ∃ (u : Value) (fuel : Nat), u.coerce? .vector2 = some v ∧
        (machine Scene.host nestedDefaults.1 ⟨Scene.root, 256, .silent⟩).eval 3 [] fuel
          repeatedField ⟨[], Scene.ofRoot "root"⟩ = .ok u ⟨[], Scene.ofRoot "root"⟩) ∧
    ∃ i : Instance, (create Scene.host 9 nestedDefaults.1 ⟨Scene.root, 256, .silent⟩ []
        (Scene.ofRoot "root")).result = .ok i ∧
      ∃ p ∈ nestedDefaults.1.checked.properties, p.type = .rect2 ∧
        i.getProperty p.name = some p.defaultValue := by
  obtain ⟨hconstant, hcreate⟩ := create_constants
  constructor
  · have hv : constantAs? repeatedField .vector2 =
        some (.vector2 (.single (.ofInt32 2) (.ofRatio false 1 2))) := by decide +kernel
    obtain ⟨u, enough, hcoerce, hruns⟩ := hconstant _ _ _ hv
    exact ⟨_, hv, u, enough, hcoerce, hruns _ 3 [] enough _ (Nat.le_refl enough)⟩
  · obtain ⟨hmade, p, hp, htype⟩ :
        (create Scene.host 9 nestedDefaults.1 ⟨Scene.root, 256, .silent⟩ []
          (Scene.ofRoot "root")).result.isOk = true ∧
        ∃ p ∈ nestedDefaults.1.checked.properties, p.type = .rect2 := by decide +kernel
    cases hi : (create Scene.host 9 nestedDefaults.1 ⟨Scene.root, 256, .silent⟩ []
        (Scene.ofRoot "root")).result with
    | error e =>
        rw [hi] at hmade
        cases hmade
    | ok i => exact ⟨i, rfl, p, hp, htype, hcreate _ _ _ _ _ i hi p hp⟩

/-! ## Hints -/

/-- What a property takes of the values for its name is what it accepts. -/
theorem mem_taken (hs : script.Accepted) {properties : List (Text × Value)} {p : Property}
    (hp : p ∈ script.checked.properties) {w : Value} :
    w ∈ script.taken p.name properties ↔
      ∃ v, (p.name, v) ∈ properties ∧ p.accept v = .ok w := by
  have hfind : script.property? p.name = some p :=
    (Script.property?_eq_some_iff hs.wellTyped).mpr ⟨hp, rfl⟩
  have htaken : ∀ v, script.taken? p.name v = some w ↔ p.accept v = .ok w := by
    intro v
    rw [Script.taken?, hfind, Option.bind_some]
    cases p.accept v <;> simp [Except.toOption]
  rw [Script.taken, List.mem_filterMap]
  constructor
  · rintro ⟨⟨n, v⟩, hmem, hw⟩
    obtain ⟨rfl, hw⟩ := Option.ite_none_right_eq_some.mp hw
    exact ⟨v, hmem, (htaken v).mp hw⟩
  · rintro ⟨v, hmem, hw⟩
    exact ⟨(p.name, v), hmem, (if_pos rfl).trans ((htaken v).mpr hw)⟩

variable {properties : List (Text × Value)} {state : σ} {i : Instance} {p : Property}

/-- A property of a new instance has a value that it accepted from the host; or it has its default,
    and then it accepted none. -/
theorem create_cases (hs : script.Accepted)
    (h : (create host fuel script a properties state).result = .ok i)
    (hp : p ∈ script.checked.properties) :
    (∃ v w, (p.name, v) ∈ properties ∧ p.accept v = .ok w ∧ i.getProperty p.name = some w) ∨
    (i.getProperty p.name = some p.defaultValue ∧
      ∀ v, (p.name, v) ∈ properties → ∀ w, p.accept v ≠ .ok w) := by
  have hvalue := create_property hs h hp
  cases hlast : (script.taken p.name properties).getLast? with
  | some w =>
      obtain ⟨v, hmem, hw⟩ := (mem_taken hs hp).mp (List.mem_of_getLast? hlast)
      rw [hlast] at hvalue
      exact .inl ⟨v, w, hmem, hw, hvalue⟩
  | none =>
      rw [hlast] at hvalue
      refine .inr ⟨hvalue, fun v hmem w hw => ?_⟩
      have hin := (mem_taken hs hp).mpr ⟨v, hmem, hw⟩
      rw [List.getLast?_eq_none_iff.mp hlast] at hin
      exact absurd hin List.not_mem_nil

/-- A property with options begins with one of them. -/
theorem create_listed (hs : script.Accepted)
    (h : (create host fuel script a properties state).result = .ok i)
    (hp : p ∈ script.checked.properties) {values : List Text} (hhint : p.hint = .options values) :
    ∃ v, i.getProperty p.name = some v ∧ v.IsListed values := by
  rcases create_cases hs h hp with ⟨v, w, -, hw, hvalue⟩ | ⟨hvalue, -⟩
  · exact ⟨w, hvalue, Property.accept_listed hw hhint⟩
  · obtain ⟨_, -, -, _, hexports⟩ := hs.property_exports hp
    exact ⟨_, hvalue, isOption_iff.mp (hexports.listed values hhint)⟩

/-- An integer with a range begins inside it when its default is there or the host provides an
    integer for it, and outside of it otherwise. -/
theorem create_range (hs : script.Accepted)
    (h : (create host fuel script a properties state).result = .ok i)
    (hp : p ∈ script.checked.properties) {min max step : Binary64}
    (hhint : p.hint = .range min max step) (htype : p.type = .i32) :
    ∃ a b d n : Int32, min = .ofInt32 a ∧ max = .ofInt32 b ∧ p.defaultValue = .int d ∧
      i.getProperty p.name = some (.int n) ∧
      (a.toInt ≤ n.toInt ∧ n.toInt ≤ b.toInt ↔
        (a.toInt ≤ d.toInt ∧ d.toInt ≤ b.toInt) ∨ ∃ m, (p.name, .int m) ∈ properties) := by
  obtain ⟨_, -, -, _, hexports⟩ := hs.property_exports hp
  obtain ⟨a, b, ha, hb, -⟩ := hexports.range_ints hhint htype
  obtain ⟨d, hd⟩ : ∃ d, p.defaultValue = .int d := by
    have hdtype := hexports.default_type
    rw [htype] at hdtype
    cases hvalue : p.defaultValue <;> rw [hvalue] at hdtype <;> cases hdtype
    exact ⟨_, rfl⟩
  rcases create_cases hs h hp with ⟨v, w, hmem, hw, hvalue⟩ | ⟨hvalue, hnone⟩
  · obtain ⟨a', b', n, m, ha', hb', rfl, rfl, hlower, hupper, -⟩ :=
      (Property.accept_takes hexports hw).nearest min max step hhint htype
    obtain rfl : a' = a := Binary64.ofInt32_injective (ha'.symm.trans ha)
    obtain rfl : b' = b := Binary64.ofInt32_injective (hb'.symm.trans hb)
    exact ⟨a', b', d, m, ha, hb, hd, hvalue, fun _ => .inr ⟨n, hmem⟩, fun _ => ⟨hlower, hupper⟩⟩
  · rw [hd] at hvalue
    refine ⟨a, b, d, d, ha, hb, hd, hvalue, .inl, ?_⟩
    rintro (hinside | ⟨m, hm⟩)
    · exact hinside
    · obtain ⟨w, hw⟩ := Property.accept_int htype (by rw [hhint]; simp) m
      exact absurd hw (hnone _ hm w)

/-- A new instance and the hints of its script. Whatever the host is and provides, a property with
    options begins with one of them. An integer with a range begins inside it exactly when its
    default lies there or the host provides an integer for it: a default is not checked against
    its range. -/
theorem create_hints (host : Host σ) (fuel : Nat) (script : AcceptedScript) (a : Attachment)
    (properties : List (Text × Value)) (state : σ) (i : Instance)
    (h : (create host fuel script.1 a properties state).result = .ok i) :
    (∀ p ∈ script.1.checked.properties, ∀ values, p.hint = .options values →
      ∃ v, i.getProperty p.name = some v ∧ v.IsListed values) ∧
    ∀ p ∈ script.1.checked.properties, ∀ min max step, p.hint = .range min max step →
      p.type = .i32 → ∃ a b d n : Int32, min = .ofInt32 a ∧ max = .ofInt32 b ∧
        p.defaultValue = .int d ∧ i.getProperty p.name = some (.int n) ∧
        (a.toInt ≤ n.toInt ∧ n.toInt ≤ b.toInt ↔
          (a.toInt ≤ d.toInt ∧ d.toInt ≤ b.toInt) ∨ ∃ m, (p.name, .int m) ∈ properties) :=
  ⟨fun _ hp _ hhint => create_listed script.2 h hp hhint,
    fun _ hp _ _ _ hhint htype => create_range script.2 h hp hhint htype⟩

open Session in
theorem create_hints_guarded : ∃ i : Instance,
    (create (Scene.hostWith fun _ _ => []) 9 guarded.1 ⟨Scene.root, 256, .silent⟩
      [("hp", .int 99)] (Scene.ofRoot "root")).result = .ok i ∧
    (∃ v, i.getProperty "mode" = some v ∧ v.IsListed ["a", "b"]) ∧
    ∃ n : Int32, i.getProperty "hp" = some (.int n) ∧ 0 ≤ n.toInt ∧ n.toInt ≤ 10 := by
  obtain ⟨hmade, hproperties⟩ :
      (create (Scene.hostWith fun _ _ => []) 9 guarded.1 ⟨Scene.root, 256, .silent⟩
        [("hp", .int 99)] (Scene.ofRoot "root")).result.isOk = true ∧
      guarded.1.checked.properties =
        [⟨"hp", .i32, .range (.ofInt32 0) (.ofInt32 10) (.ofInt32 1), .int 5⟩,
          ⟨"mode", .string, .options ["a", "b"], .string "a"⟩] := by decide +kernel
  cases hi : (create (Scene.hostWith fun _ _ => []) 9 guarded.1 ⟨Scene.root, 256, .silent⟩
      [("hp", .int 99)] (Scene.ofRoot "root")).result with
  | error e =>
      rw [hi] at hmade
      cases hmade
  | ok i =>
      obtain ⟨hlisted, hranged⟩ := create_hints (Scene.hostWith fun _ _ => []) 9 guarded
        ⟨Scene.root, 256, .silent⟩ [("hp", .int 99)] (Scene.ofRoot "root") i hi
      rw [hproperties] at hlisted hranged
      obtain ⟨a, b, d, n, ha, hb, -, hn, hinside⟩ :=
        hranged _ List.mem_cons_self _ _ _ rfl rfl
      rw [← Binary64.ofInt32_injective ha, ← Binary64.ofInt32_injective hb] at hinside
      obtain ⟨hlower, hupper⟩ := hinside.mpr (.inr ⟨99, List.mem_cons_self⟩)
      exact ⟨i, rfl, hlisted _ (List.mem_cons_of_mem _ List.mem_cons_self) _ rfl,
        n, hn, hlower, hupper⟩

/-- A script with a default beyond its range. -/
def oversized : AcceptedScript :=
  (AcceptedScript.ofText? "@export(range(0, 10)) let mut hp: i32 = 50;").get (by decide +kernel)

theorem create_hints_oversized :
    oversized.1.checked.properties =
      [⟨"hp", .i32, .range (.ofInt32 0) (.ofInt32 10) (.ofInt32 1), .int 50⟩] ∧
    ∃ i : Instance, (create (Scene.hostWith fun _ _ => []) 9 oversized.1
        ⟨Scene.root, 256, .silent⟩ [] (Scene.ofRoot "root")).result = .ok i ∧
      ∃ n : Int32, i.getProperty "hp" = some (.int n) ∧ 10 < n.toInt := by
  obtain ⟨hproperties, hvalue⟩ :
      oversized.1.checked.properties =
        [⟨"hp", .i32, .range (.ofInt32 0) (.ofInt32 10) (.ofInt32 1), .int 50⟩] ∧
      ((create (Scene.hostWith fun _ _ => []) 9 oversized.1
        ⟨Scene.root, 256, .silent⟩ [] (Scene.ofRoot "root")).result.toOption.bind
          fun i => i.getProperty "hp") = some (.int 50) := by decide +kernel
  refine ⟨hproperties, ?_⟩
  cases hi : (create (Scene.hostWith fun _ _ => []) 9 oversized.1
      ⟨Scene.root, 256, .silent⟩ [] (Scene.ofRoot "root")).result with
  | error e =>
      rw [hi] at hvalue
      cases hvalue
  | ok i =>
      rw [hi] at hvalue
      exact ⟨i, rfl, 50, hvalue, by decide⟩

end Instance

end SceneScript
