import SceneScript.Proofs.Scene.Tree
import SceneScript.Proofs.Session.Precision

/-!
# What an assignment changes

An assignment changes its target and nothing else. A target that is a variable, or a part of the
value of one, is changed in the innermost variable of its name. A target behind a node is changed
in one field of this node: the variable keeps its handle, and the scene keeps everything else. In
both cases the new value comes from the old one and from the value assigned, and it takes the place
of the old one alone.

* **`Scene.Writes`** — a scene before and after a part of one field of one node is written.
* **`Machine.Assigns`** — the locals and the world before and after an assignment.
* **`Machine.assign_assigns`** — an assignment that obeys the rules and ends well.
* **`Session.assigns_of_run`** — every assignment in every session.
-/

namespace SceneScript

/-! ## Fields of nodes -/

/-- The value that a field of a node is read as. -/
def SceneNode.value (node : SceneNode) : NodeField → Value
  | .position => .vector2 node.position
  | .rotation => .ofFloat node.rotation
  | .scale    => .vector2 node.scale
  | .name     => .string node.name

/-- The second node is the first one, but for a field. -/
structure SceneNode.SameBut (field : NodeField) (node node' : SceneNode) : Prop where
  parent   : node'.parent = node.parent
  children : node'.children = node.children
  alive    : node'.alive = node.alive
  position : field ≠ .position → node'.position = node.position
  rotation : field ≠ .rotation → node'.rotation = node.rotation
  scale    : field ≠ .scale → node'.scale = node.scale
  name     : field ≠ .name → node'.name = node.name

namespace Scene

variable {s s' : Scene} {ref : NodeRef} {field : NodeField} {n : Nat} {v c next : Value}
variable {path : List Text}

/-- The second scene is the first one with `c` at a path in a field of node `n`. -/
structure Writes (s : Scene) (n : Nat) (field : NodeField) (path : List Text) (c : Value)
    (s' : Scene) : Prop where
  node    : ∃ node node', s.node? n = some node ∧ s'.node? n = some node' ∧
    node.SameBut field node' ∧ (node.value field).Replaced path c (node'.value field)
  others  : ∀ k, k ≠ n → s'.node? k = s.node? k
  count   : s'.nodes.length = s.nodes.length
  output  : s'.output = s.output
  emitted : s'.emitted = s.emitted

theorem setField?_sameBut {node changed : SceneNode} (ht : next.type = field.type)
    (h : setField? node field next = some changed) :
    node.SameBut field changed ∧ changed.value field = next.stored := by
  cases field <;> cases next <;> cases ht <;> cases h
  all_goals
    refine ⟨⟨rfl, rfl, rfl, fun h => ?_, fun h => ?_, fun h => ?_, fun h => ?_⟩, ?_⟩ <;>
    first
    | rfl
    | exact absurd rfl h
    | simp only [SceneNode.value, Value.stored, Value.ofFloat, Binary64.toSingle_toSingle]

/-- What is read from a scene is a field of a living node. -/
theorem getProperty_cases (h : s.getProperty ref field = .ok v) :
    ∃ n node, s.live? ref = some n ∧ s.node? n = some node ∧ v = node.value field := by
  unfold getProperty at h
  cases hr : s.require ref with
  | error e =>
      rw [hr] at h
      cases h
  | ok e =>
      rw [hr] at h
      obtain ⟨hlive, hnode⟩ := require_cases hr
      refine ⟨e.1, e.2, hlive, hnode, ?_⟩
      cases h
      cases field <;> rfl

/-- A field that is given its old value with a part replaced. -/
theorem writes_setProperty {node : SceneNode} (hlive : s.live? ref = some n)
    (hnode : s.node? n = some node) (ht : (node.value field).type = field.type)
    (hnext : (node.value field).Replaced path (c.storedAt path) next)
    (h : s.setProperty ref field next = .ok s') : s.Writes n field path c.stored s' := by
  obtain ⟨n', node', changed, hlive', hnode', hchanged, rfl⟩ := setProperty_cases h
  cases hlive.symm.trans hlive'
  cases hnode.symm.trans hnode'
  obtain ⟨hsame, hvalue⟩ := setField?_sameBut (hnext.type.trans ht) hchanged
  have hupdate := node?_update s (fun _ => changed) (node?_pos hnode)
  refine ⟨⟨node, changed, hnode, ?_, hsame, hvalue ▸ hnext.stored⟩, fun k hk => ?_, ?_, rfl, rfl⟩
  · rw [hupdate, if_pos rfl, hnode]
    rfl
  · rw [hupdate, if_neg hk]
  · exact List.length_modify ..

theorem value_type (node : SceneNode) (field : NodeField) :
    (node.value field).type = field.type := by
  cases field <;> rfl

end Scene

/-! ## Assignments -/

/-- A variable that has the value that is written keeps it. -/
theorem Bindings.set_self {b : Bindings} {name : Text} {v : Value} (h : b.find? name = some v) :
    b.set name v = b := by
  induction b with
  | nil => cases h
  | cons e b ih =>
      obtain ⟨n, u⟩ := e
      rw [find?_cons] at h
      rw [set]
      by_cases hn : n = name
      · rw [if_pos hn] at h
        cases h
        rw [if_pos (by simpa using hn)]
      · rw [if_neg hn] at h
        rw [if_neg (by simpa using hn), ih h]

theorem Locals.assign?_self {name : Text} {v : Value} :
    ∀ {locals changed : Locals}, locals.assign? name v = some changed →
      locals.find? name = some v → changed = locals
  | [], _, h, _ => by cases h
  | b :: locals, _, h, hv => by
      rw [find?_cons] at hv
      rw [assign?] at h
      cases hb : b.find? name with
      | some u =>
          rw [hb] at h hv
          cases hv
          cases h
          rw [Bindings.set_self hb]
      | none =>
          rw [hb] at h hv
          obtain ⟨changed, hchanged, rfl⟩ := Option.map_eq_some_iff.mp h
          rw [assign?_self hchanged hv]

namespace Machine

/-- The node that a root of a target stands for, if it stands for one. -/
def rootNode? (m : Machine Scene) (locals : Locals) (w : World Scene) : TargetRoot → Option NodeRef
  | .self _  => some m.self
  | .name id =>
      match Locals.find? (w.frames locals) id.name with
      | some (.node ref) => some ref
      | _                => none

/-- The locals and the world before and after an assignment of a value to a path behind a root.
    The first two cases are the ones in which a variable changes: the root is given another value
    as a whole, or a part of a value that is no node is written. In the last case a node is
    written. In all of them `c` is the new value of the target, which was combined from the old one
    and coerced to its type. -/
inductive Assigns (m : Machine Scene) (root : TargetRoot) (path : List Text) (op : AssignOp)
    (rhs c : Value) (locals : Locals) (w : World Scene) (locals' : Locals) (w' : World Scene) :
    Prop where
  | binding (id : Ident) (v old v' : Value) :
      root = .name id → (path = [] ∨ m.rootNode? locals w root = none) →
      v.read? path = some old → Machine.combined? op old rhs = some c →
      v.Replaced path (c.storedAt path) v' →
      Rebinds id.name v v' (w.frames locals) (w'.frames locals') → w'.host = w.host →
      Assigns m root path op rhs c locals w locals' w'
  | node (ref : NodeRef) (name : Text) (rest : List Text) (field : NodeField) (n : Nat)
      (node : SceneNode) (old : Value) :
      path = name :: rest → m.rootNode? locals w root = some ref →
      NodeField.ofText? name = some field → w.host.live? ref = some n →
      w.host.node? n = some node → (node.value field).read? rest = some old →
      Machine.combined? op old rhs = some c → w.host.Writes n field rest c.stored w'.host →
      locals' = locals → w'.globals = w.globals → Assigns m root path op rhs c locals w locals' w'

variable {m : Machine Scene} {g : List Variable} {R : Changes Scene} {onPrint : PrintHook}
variable {w w' : World Scene} {locals locals' : Locals} {rhs : Value} {op : AssignOp}
variable {span : Span} {t : Ty}

theorem ofHost_ok {σ α : Type} {call : HostCall σ α} {w w' : World σ} {a : α}
    (h : Eval.ofHost call w = .ok a w') :
    ∃ s, call w.host = .ok a s ∧ w' = { w with host := s } := by
  rw [Eval.ofHost] at h
  cases hcall : call w.host with
  | ok b s =>
      rw [hcall] at h
      cases h
      exact ⟨s, rfl, rfl⟩
  | error e s =>
      rw [hcall] at h
      cases h

/-- Reading a field of a node leaves the scene alone. -/
theorem getProperty_ok (hm : m.host = Scene.hostWith onPrint) {ref : NodeRef} {field : NodeField}
    {v : Value} (h : Eval.ofHost (m.host.getProperty ref field) w = .ok v w') :
    w' = w ∧ w.host.getProperty ref field = .ok v := by
  obtain ⟨s, hcall, rfl⟩ := ofHost_ok h
  rw [hm] at hcall
  change Scene.query (fun s => s.getProperty ref field) w.host = .ok v s at hcall
  obtain ⟨rfl, hold⟩ := Scene.query_ok hcall
  exact ⟨rfl, hold⟩

theorem setProperty_ok (hm : m.host = Scene.hostWith onPrint) {ref : NodeRef} {field : NodeField}
    {v : Value} {u : Unit} (h : Eval.ofHost (m.host.setProperty ref field v) w = .ok u w') :
    w'.globals = w.globals ∧ w.host.setProperty ref field v = .ok w'.host := by
  obtain ⟨s, hcall, rfl⟩ := ofHost_ok h
  rw [hm] at hcall
  change Scene.change (fun s => s.setProperty ref field v) w.host = .ok u s at hcall
  rw [Scene.change] at hcall
  split at hcall
  · next hwrite =>
      cases hcall
      exact ⟨rfl, hwrite⟩
  · cases hcall

/-- A write through a node changes a part of one field of it. -/
theorem writePath_writes (hm : m.host = Scene.hostWith onPrint) (hg : w.globals.Matches g)
    (hc : Combines op t rhs.type) {ref : NodeRef} {name : Text} {rest : List Text} {v : Value}
    (halong : Ty.node.along? (name :: rest) = some t)
    (h : m.writePath rhs op span (.node ref) (name :: rest) w = .ok v w') :
    v = .node ref ∧ w'.globals = w.globals ∧ ∃ field n node old c,
      NodeField.ofText? name = some field ∧ w.host.live? ref = some n ∧
      w.host.node? n = some node ∧ (node.value field).read? rest = some old ∧
      Machine.combined? op old rhs = some c ∧ w.host.Writes n field rest c.stored w'.host := by
  obtain ⟨s, hs, halong⟩ := Option.bind_eq_some_iff.mp halong
  obtain ⟨field, hf, rfl⟩ := NodeField.ofText?_typed hs
  rw [writePath_node hf] at h
  obtain ⟨u, w₁, hcheck, h⟩ := of_bind_ok h
  obtain ⟨old, w₂, hget, h⟩ := of_bind_ok h
  obtain ⟨next, w₃, hnext, h⟩ := of_bind_ok h
  obtain ⟨u', w₄, hset, h⟩ := of_bind_ok h
  cases h
  -- Looking leaves the world alone.
  have hkeeps : m.host.Keeps m.signals (Scene.emitting m.signals) :=
    hm ▸ Scene.hostWith_keeps onPrint m.signals
  obtain ⟨-, rfl, -⟩ := (runs_checkAlive hkeeps hg ref span).of_ok hcheck
  obtain ⟨rfl, hread⟩ := getProperty_ok hm hget
  obtain ⟨n, node, hlive, hnode, rfl⟩ := Scene.getProperty_cases hread
  have htype := Scene.value_type node field
  obtain ⟨rfl, o, c, ho, hcombined, hreplaced⟩ := nextValue_replaced hg hc rest
    (htype ▸ (Ty.fieldNamed?_storable hs).2) (htype.symm ▸ halong) hnext
  obtain ⟨hglobals, hwrite⟩ := setProperty_ok hm hset
  exact ⟨rfl, hglobals, field, n, node, o, c, hf, hlive, hnode, ho, hcombined,
    Scene.writes_setProperty hlive hnode htype hreplaced hwrite⟩

theorem rootNode?_of_value {id : Ident} {v : Value} (hn : v.type ≠ .node)
    (hv : Locals.find? (w.frames locals) id.name = some v) :
    m.rootNode? locals w (.name id) = none := by
  simp only [rootNode?, hv]
  cases v <;> first | rfl | exact absurd rfl hn

/-- A variable that is given the value that it has is not changed. -/
theorem store_self {name : Text} {v : Value} (hv : Locals.find? (w.frames locals) name = some v)
    (h : store locals name v w = .ok locals' w') : locals' = locals ∧ w' = w := by
  rw [World.find?_frames] at hv
  rw [store_run] at h
  cases hassign : locals.assign? name v with
  | some changed =>
      rw [hassign] at h
      cases h
      obtain ⟨u, hu⟩ := Option.isSome_iff_exists.mp (Locals.isSome_find?_of_assign? hassign)
      rw [hu] at hv
      cases hv
      exact ⟨Locals.assign?_self hassign hu, rfl⟩
  | none =>
      rw [hassign] at h
      cases h
      rw [Locals.find?_of_assign? hassign, Option.none_or] at hv
      exact ⟨rfl, by rw [Bindings.set_self hv]⟩

theorem store_ok {name : Text} {v v' : Value}
    (hv : Locals.find? (w.frames locals) name = some v)
    (h : store locals name v' w = .ok locals' w') :
    w'.host = w.host ∧ Rebinds name v v' (w.frames locals) (w'.frames locals') := by
  obtain ⟨locals₁, w₁, hstore, hhost, hrebinds⟩ := store_rebinds v' hv
  cases hstore.symm.trans h
  exact ⟨hhost, hrebinds⟩

/-- An assignment to a target that may take the value changes the target only. -/
theorem assign_assigns (hm : m.host = Scene.hostWith onPrint) (hg : w.globals.Matches g)
    {s : Surroundings} (hl : locals.Sees g s.scope) {target : AssignTarget}
    (ht : TargetOk s target t) (hc : Combines op t rhs.type)
    (h : m.assign locals span target op rhs w = .ok locals' w') :
    ∃ c, m.Assigns target.root (target.path.map Ident.name) op rhs c locals w locals' w' := by
  cases ht with
  | self place root path _ hne halong =>
      obtain ⟨name, rest, rfl⟩ : ∃ name rest, path = name :: rest := List.exists_cons_of_ne_nil hne
      rw [assign] at h
      obtain ⟨v, w₁, hwrite, h⟩ := of_bind_ok h
      cases h
      obtain ⟨-, hglobals, field, n, node, old, c, hf, hlive, hnode, hold, hcombined, hwrites⟩ :=
        writePath_writes hm hg hc halong hwrite
      exact ⟨c, .node m.self _ _ field n node old rfl rfl hf hlive hnode hold hcombined hwrites rfl
        hglobals⟩
  | name place id path x _ hx halong _ =>
      rw [assign_name] at h
      obtain ⟨current, w₁, hlookup, hrest⟩ := of_bind_ok h
      have hlooks : Runs g .anything (lookup locals id) w _ := runs_lookup hl hg hx
      obtain ⟨-, rfl, hcur, hvalue⟩ := hlooks.of_ok hlookup
      rw [← World.find?_frames] at hvalue
      rw [← hcur] at halong
      obtain ⟨next, w₂, hnext, hstore⟩ := of_bind_ok hrest
      cases path with
      | nil =>
          cases halong
          obtain ⟨rfl, hcombined, htype⟩ := combine_combined hg hc hnext
          obtain ⟨hhost, hrebinds⟩ := store_ok hvalue hstore
          exact ⟨next, .binding id current current next rfl (.inl rfl) rfl hcombined
            ⟨htype, rfl, fun q _ hq => absurd List.nil_prefix hq⟩ hrebinds hhost⟩
      | cons name rest =>
          by_cases hnode : current.type = .node
          · cases current <;> cases hnode
            rename_i ref
            obtain ⟨rfl, hglobals, field, n, node, old, c, hf, hlive, hn, hold, hcombined, hwrites⟩ :=
              writePath_writes hm hg hc halong hnext
            have hframes : w₂.frames locals = w₁.frames locals := by
              rw [World.frames, World.frames, hglobals]
            obtain ⟨rfl, rfl⟩ := store_self (hframes ▸ hvalue) hstore
            refine ⟨c, .node ref _ _ field n node old rfl ?_ hf hlive hn hold hcombined hwrites rfl
              hglobals⟩
            simp only [rootNode?, hvalue]
          · obtain ⟨rfl, old, c, hold, hcombined, hreplaced⟩ :=
              nextValue_replaced hg hc (name.name :: rest.map Ident.name) hnode halong hnext
            obtain ⟨hhost, hrebinds⟩ := store_ok hvalue hstore
            exact ⟨c, .binding id current old next rfl (.inr (rootNode?_of_value hnode hvalue)) hold
              hcombined hreplaced hrebinds hhost⟩

/-- A target that takes floats of single precision is given one. -/
theorem isStored_combined? {old c : Value} (hr : rhs.IsStored)
    (h : Machine.combined? op old rhs = some c) : c.IsStored := by
  rw [combined?] at h
  split at h
  · exact hr.coerce? h
  · split at h
    · next happly => exact (isStored_applyBinary happly).coerce? h
    · cases h

theorem Assigns.combined {root : TargetRoot} {path : List Text} {c : Value}
    (h : m.Assigns root path op rhs c locals w locals' w') :
    ∃ old, Machine.combined? op old rhs = some c := by
  cases h with
  | binding _ _ old _ _ _ _ hcombined => exact ⟨old, hcombined⟩
  | node _ _ _ _ _ _ old _ _ _ _ _ _ hcombined => exact ⟨old, hcombined⟩

/-- The moment at which the first statement of a called function is executed. -/
def firstStatement? {σ : Type} (m : Machine σ) :
    Moment σ → Option (Nat × Nat × Locals × Stmt Ty × World σ)
  | ⟨d, n + 2, .call name args _, w⟩ =>
      (m.function? name).bind fun f =>
        match f.decl.body.body with
        | st :: _ =>
            if m.maxDepth ≤ d then none
            else some (d + 1, n, [parameterFrame f.decl.params f.signature.params args []], st, w)
        | [] => none
  | _ => none

theorem reaches_firstStatement? {σ : Type} {m : Machine σ} {x : Moment σ} {d n : Nat}
    {l : Locals} {st : Stmt Ty} {w : World σ} (h : m.firstStatement? x = some (d, n, l, st, w)) :
    m.Reaches x ⟨d, n, .exec l st, w⟩ := by
  unfold firstStatement? at h
  split at h
  · obtain ⟨f, hf, h⟩ := Option.bind_eq_some_iff.mp h
    split at h
    · next hbody =>
        split at h
        · cases h
        · next hdepth =>
            cases h
            refine .tail (.single (.body hf hdepth)) ?_
            rw [hbody]
            exact .first
    · cases h
  · cases h
end Machine

/-! ## Assignments in sessions -/

/-- An assignment that is about to be executed: where, with which local variables and in which
    world. -/
structure Assignment where
  depth  : Nat
  fuel   : Nat
  locals : Locals
  span   : Span
  target : AssignTarget
  op     : AssignOp
  value  : Expr
  world  : World Scene

namespace Assignment

/-- The statement. -/
def statement (x : Assignment) : Stmt Ty := .assign x.span x.target x.op x.value

/-- The moment at which it is executed. -/
def moment (x : Assignment) : Moment Scene :=
  ⟨x.depth, x.fuel + 1, .exec x.locals x.statement, x.world⟩

/-- What is assigned: the value of the right side, and the world after its evaluation. -/
def right (x : Assignment) (m : Machine Scene) : EStateM.Result Halt (World Scene) Value :=
  m.eval x.depth x.locals x.fuel x.value x.world

/-- The execution. -/
def run (x : Assignment) (m : Machine Scene) : EStateM.Result Halt (World Scene) Flow :=
  m.exec x.depth (x.fuel + 1) x.locals x.statement x.world

/-- Field names from the root to the target. -/
def path (x : Assignment) : List Text := x.target.path.map Ident.name

end Assignment

/-- The machine that runs an instance on a scene. -/
abbrev Instance.onScene (i : Instance) (onPrint : PrintHook) : Machine Scene :=
  Instance.machine (Scene.hostWith onPrint) i.script i.attachment

namespace Session

/-- The moment at which an action begins to run code of a function, and of which instance. -/
def start? (s : Session) : Action → Option (Instance × Moment Scene)
  | .invoke fuel k name args        =>
      s.instances[k]?.bind fun i => (i.entry fuel name args s.scene).map fun x => (i, x)
  | .lifecycle fuel k callback args =>
      s.instances[k]?.bind fun i => (i.handler? callback).bind fun name =>
        (i.entry fuel name args s.scene).map fun x => (i, x)
  | _ => none

variable {s : Session} {a : Action} {i : Instance} {start : Moment Scene}

theorem start?_cases (h : s.start? a = some (i, start)) :
    i ∈ s.instances ∧ ∃ fuel name args, i.entry fuel name args s.scene = some start ∧
      (a.Stored → ∀ v ∈ args, v.IsStored) := by
  cases a with
  | invoke fuel k name args =>
      obtain ⟨j, hj, h⟩ := Option.bind_eq_some_iff.mp h
      obtain ⟨x, hx, h⟩ := Option.map_eq_some_iff.mp h
      cases h
      exact ⟨List.mem_of_getElem? hj, fuel, name, args, hx, id⟩
  | lifecycle fuel k callback args =>
      obtain ⟨j, hj, h⟩ := Option.bind_eq_some_iff.mp h
      obtain ⟨name, -, h⟩ := Option.bind_eq_some_iff.mp h
      obtain ⟨x, hx, h⟩ := Option.map_eq_some_iff.mp h
      cases h
      exact ⟨List.mem_of_getElem? hj, fuel, name, args, hx, id⟩
  | _ => cases h

/-- Code of a function that is called from outside begins by the rules. -/
theorem entry_ok (hi : i.Typed) (onPrint : PrintHook) {fuel : Nat} {name : Text}
    {args : List Value} {scene : Scene} (h : i.entry fuel name args scene = some start) :
    start.Ok (i.onScene onPrint) (i.script.checked.globals.map GlobalInfo.declared) := by
  obtain ⟨f, bound, hf, hfit, rfl⟩ := Instance.entry_cases h
  exact ⟨⟨f, hf, hfit⟩, hi.globals⟩

/-- An assignment changes exactly its target. Wherever a script that compiles comes to execute one,
    in whatever session, and the assignment ends, its right side has a value `rhs`, and what
    follows changes only what the target stands for: one variable, or one field of one node. The
    new value `c` was combined from the old value and `rhs` and coerced to the type of the old one;
    it is what is read at the path of the target from then on, as long as floats of single
    precision were handed over. -/
theorem assigns_of_run (onPrint : PrintHook) (scene : Scene) (history : List Action)
    (next : Action) (i : Instance) (start : Moment Scene) (x : Assignment) (flow : Flow)
    (w' : World Scene) (hentry : (run onPrint ⟨scene, []⟩ history).start? next = some (i, start))
    (hreach : (i.onScene onPrint).Reaches start x.moment)
    (hends : x.run (i.onScene onPrint) = .ok flow w') :
    ∃ rhs w c locals', x.right (i.onScene onPrint) = .ok rhs w ∧ flow = .next locals' ∧
      (i.onScene onPrint).Assigns x.target.root x.path x.op rhs c x.locals w locals' w' ∧
      ((∀ a ∈ history ++ [next], a.Stored) → c.stored = c) := by
  obtain ⟨hi, fuel, name, args, hstart, hargs⟩ := start?_cases hentry
  have htyped : i.Typed := run_typed onPrint scene history i hi
  have hready : (i.onScene onPrint).Ready (i.script.checked.globals.map GlobalInfo.declared) true
      (Scene.emitting i.script.checked.signals) :=
    ⟨Scene.hostWith_keeps onPrint _, fun _ => htyped.script.functions⟩
  obtain ⟨⟨r, scope, scope', hl, hstatement⟩, hg⟩ :=
    hreach.ok hready (entry_ok htyped onPrint hstart)
  cases hstatement with
  | assign _ _ _ _ _ t found htarget hvalue hcombines =>
      obtain ⟨rhs, w, hright, hrest⟩ := of_bind_ok hends
      obtain ⟨locals', w₁, hassign, hflow⟩ := of_bind_ok hrest
      cases hflow
      obtain ⟨hg', hfound⟩ :=
        ((Machine.soundAt hready x.fuel).eval hvalue hl.sees hg).of_ok hright
      obtain ⟨c, hassigns⟩ := Machine.assign_assigns rfl hg' hl.sees htarget (hfound ▸ hcombines)
        hassign
      refine ⟨rhs, w, c, locals', hright, rfl, hassigns, fun hall => ?_⟩
      -- What is handed over has single precision, and so has what is computed from it.
      have hread := Scene.hostWith_readsStored onPrint
      have hsession := run_stored onPrint scene history
        fun a ha => hall a (List.mem_append_left _ ha)
      have hgiven := hargs (hall next (List.mem_append_right _ (List.mem_singleton.mpr rfl)))
      obtain ⟨hlocals, hw⟩ :=
        hreach.stored hread (Instance.entry_stored (hsession i hi) hgiven hstart)
      obtain ⟨-, hrhs⟩ :=
        ((Machine.storesAt (m := i.onScene onPrint) hread x.fuel).eval x.depth x.value
          hlocals).of_ok hw hright
      obtain ⟨old, hcombined⟩ := hassigns.combined
      exact Machine.isStored_combined? hrhs hcombined

/-- The assignment that a called function begins with. -/
def firstAssignment? (onPrint : PrintHook) (s : Session) (a : Action) :
    Option (Instance × Moment Scene × Assignment) :=
  (s.start? a).bind fun e =>
    match (e.1.onScene onPrint).firstStatement? e.2 with
    | some (d, n + 1, l, .assign span target op value, w) =>
        some (e.1, e.2, ⟨d, n, l, span, target, op, value, w⟩)
    | _ => none

theorem reaches_firstAssignment? {onPrint : PrintHook} {s : Session} {a : Action} {i : Instance}
    {start : Moment Scene} {x : Assignment}
    (h : s.firstAssignment? onPrint a = some (i, start, x)) :
    s.start? a = some (i, start) ∧ (i.onScene onPrint).Reaches start x.moment := by
  obtain ⟨⟨j, y⟩, hentry, h⟩ := Option.bind_eq_some_iff.mp h
  split at h
  · next hfirst =>
      cases h
      exact ⟨hentry, Machine.reaches_firstStatement? hfirst⟩
  · cases h

/-- What is checked of the assignment that a called function begins with holds of one. -/
theorem exists_firstAssignment {s : Session} {a : Action}
    (P : Instance → Assignment → Value → World Scene → World Scene → Prop)
    [∀ i x rhs w w', Decidable (P i x rhs w w')]
    (h : ((s.firstAssignment? (fun _ _ => []) a).any fun e =>
      match e.2.2.right (e.1.onScene fun _ _ => []), e.2.2.run (e.1.onScene fun _ _ => []) with
      | .ok rhs w, .ok (.next _) w' => decide (P e.1 e.2.2 rhs w w')
      | _, _                        => false) = true) :
    ∃ (i : Instance) (start : Moment Scene) (x : Assignment) (rhs : Value) (w w' : World Scene)
      (locals' : Locals), s.start? a = some (i, start) ∧
      (i.onScene fun _ _ => []).Reaches start x.moment ∧
      x.right (i.onScene fun _ _ => []) = .ok rhs w ∧
      x.run (i.onScene fun _ _ => []) = .ok (.next locals') w' ∧ P i x rhs w w' := by
  obtain ⟨⟨i, start, x⟩, hfirst, hcheck⟩ := Option.any_eq_true .. |>.mp h
  obtain ⟨hentry, hreach⟩ := reaches_firstAssignment? hfirst
  dsimp only at hcheck
  split at hcheck
  · next rhs w locals' w' hright hrun =>
      exact ⟨i, start, x, rhs, w, w', locals', hentry, hreach, hright, hrun,
        of_decide_eq_true hcheck⟩
  · cases hcheck

/-- A script that keeps a handle and writes a part of a field. -/
def retargeting : AcceptedScript :=
  (AcceptedScript.ofText?
    ("let mut n: Node = self; fn f() \x7b n = get_node(\"a\"); \x7d" ++
      "fn g() { self.position.x += 2; }")).get (by decide +kernel)

/-- A node below the root, and the script at the root. -/
def hosting : List Action :=
  [.edit (.add Scene.root { name := "a", parent := none }),
    .create 50 retargeting ⟨Scene.root, 256, .silent⟩ []]

/-- The session after that. -/
abbrev hosted : Session := run (fun _ _ => []) ⟨Scene.ofRoot "root", []⟩ hosting

theorem assigns_of_run_position : ∃ (i : Instance) (start : Moment Scene) (x : Assignment)
    (flow : Flow) (w' : World Scene),
    hosted.start? (.invoke 50 0 "g" []) = some (i, start) ∧
    (i.onScene fun _ _ => []).Reaches start x.moment ∧
    x.run (i.onScene fun _ _ => []) = .ok flow w' ∧
    ∃ rhs w c locals', x.right (i.onScene fun _ _ => []) = .ok rhs w ∧ flow = .next locals' ∧
      (i.onScene fun _ _ => []).Assigns x.target.root x.path x.op rhs c x.locals w locals' w' ∧
      c.stored = c := by
  obtain ⟨i, start, x, -, -, w', flow, hentry, hreach, -, hrun, -⟩ :=
    exists_firstAssignment (s := hosted) (a := .invoke 50 0 "g" []) (fun _ _ _ _ _ => True)
      (by decide +kernel)
  obtain ⟨rhs, w, c, locals', hright, hflow, hassigns, hstored⟩ :=
    assigns_of_run (fun _ _ => []) (Scene.ofRoot "root") hosting (.invoke 50 0 "g" []) i start x
      (.next flow) w' hentry hreach hrun
  refine ⟨i, start, x, .next flow, w', hentry, hreach, hrun, rhs, w, c, locals', hright, hflow,
    hassigns, hstored fun a ha => ?_⟩
  rcases List.mem_append.mp ha with ha | ha
  · rcases List.mem_cons.mp ha with rfl | ha
    · trivial
    · rw [List.mem_singleton.mp ha]
      exact fun _ h => absurd h List.not_mem_nil
  · rw [List.mem_singleton.mp ha]
    exact fun _ h => absurd h List.not_mem_nil

/-- A script that writes what it is given into a part of a variable. -/
def pointing : AcceptedScript :=
  (AcceptedScript.ofText?
    ("let mut v: Vector2 = Vector2 { x: 0, y: 0 };" ++
      "fn f(x: f32) { v.x = x; }")).get (by decide +kernel)

/-- The session of an instance of it. -/
abbrev pointed : Session :=
  run (fun _ _ => []) ⟨Scene.ofRoot "root", []⟩
    [.create 50 pointing ⟨Scene.root, 256, .silent⟩ []]

/-- One tenth in double precision. -/
def tenth : Binary64 := .ofRatio false 1 10

/-- Assigning to a variable itself changes it also when it has a node. And a part of a variable
    keeps a float in single precision, so the float that is assigned is not what is read there
    afterwards when it came from outside in double precision. -/
theorem assigns_handles_and_rounds :
    (∃ (i : Instance) (start : Moment Scene) (x : Assignment) (rhs : Value) (w w' : World Scene)
      (locals' : Locals), hosted.start? (.invoke 50 0 "f" []) = some (i, start) ∧
      (i.onScene fun _ _ => []).Reaches start x.moment ∧
      x.right (i.onScene fun _ _ => []) = .ok rhs w ∧
      x.run (i.onScene fun _ _ => []) = .ok (.next locals') w' ∧
      (i.onScene fun _ _ => []).rootNode? x.locals w x.target.root = some (.numbered 1) ∧
      w.globals.find? "n" = some (.node (.numbered 1)) ∧
      w'.globals.find? "n" = some (.node (.numbered 2))) ∧
    ∃ (i : Instance) (start : Moment Scene) (x : Assignment) (rhs : Value) (w w' : World Scene)
      (locals' : Locals), pointed.start? (.invoke 50 0 "f" [.float tenth]) = some (i, start) ∧
      (i.onScene fun _ _ => []).Reaches start x.moment ∧
      x.right (i.onScene fun _ _ => []) = .ok rhs w ∧
      x.run (i.onScene fun _ _ => []) = .ok (.next locals') w' ∧
      x.target.root = .name ⟨"v", ⟨59, 0, 59⟩, ⟨60, 0, 60⟩⟩ ∧ x.path = ["x"] ∧
      (w.globals.find? "v").bind (·.read? x.path) = some (.ofFloat .zero) ∧
      Machine.combined? x.op (.ofFloat .zero) rhs = some rhs ∧
      (w'.globals.find? "v").bind (·.read? x.path) = some (.ofFloat tenth) ∧
      Value.ofFloat tenth ≠ rhs := by
  constructor
  · exact exists_firstAssignment
      (fun i x _ w w' =>
        (i.onScene fun _ _ => []).rootNode? x.locals w x.target.root = some (.numbered 1) ∧
        w.globals.find? "n" = some (.node (.numbered 1)) ∧
        w'.globals.find? "n" = some (.node (.numbered 2))) (by decide +kernel)
  · exact exists_firstAssignment
      (fun _ x rhs w w' =>
        x.target.root = .name ⟨"v", ⟨59, 0, 59⟩, ⟨60, 0, 60⟩⟩ ∧ x.path = ["x"] ∧
        (w.globals.find? "v").bind (·.read? x.path) = some (.ofFloat .zero) ∧
        Machine.combined? x.op (.ofFloat .zero) rhs = some rhs ∧
        (w'.globals.find? "v").bind (·.read? x.path) = some (.ofFloat tenth) ∧
        Value.ofFloat tenth ≠ rhs) (by decide +kernel)

end Session

end SceneScript
