import SceneScript.Proofs.Session.Scenes

/-!
# The tree of a scene

A scene stores its tree twice: a node has the number of its parent and the numbers of its
children, and nodes that were freed stay where they are and still point at each other. Here freeing
follows parents and looking around follows children, and both rest on the two views telling the same
tree as far as it is alive. That a loop over children frees the same nodes is in
`Proofs.Scene.Freeing`.

* **`Scene.IsTree`** — the two views agree on living nodes, and parents are older than children.
* **`Scene.Reaches`** — what is found below a node by following children.
* **`Scene.Frees`** — what freeing a node does to all nodes.
* **`Scene.Becomes`** — a scene at a later time: numbers keep their nodes and the dead stay dead.
* **`Scene.IsTree.edit`**, **`Scene.becomes_edit`** — one edit; **`Scene.tree_of_edits`** — every
  scene that edits lead to.
* **`Scene.Reachable`** — a scene that a program comes to, which is a tree.
-/

namespace SceneScript

/-- What a node has of the tree: its parent, its children and whether it is alive. -/
def SceneNode.place (node : SceneNode) : Option Nat × List Nat × Bool :=
  (node.parent, node.children, node.alive)

namespace Scene

variable {s s' s'' : Scene} {k n p : Nat} {node q : SceneNode}

/-- The scene after edits, one after the other. -/
def edits (s : Scene) (es : List SceneEdit) : Scene := es.foldl edit s

/-- What an edit leads to: a scene, or the reason why it fails. -/
def attempt (s : Scene) : SceneEdit → Except SceneError Scene
  | .add parent node         => (s.add parent node).map Prod.snd
  | .free ref                => .ok (s.free ref)
  | .setPosition ref p       => s.setPosition ref p
  | .setProperty ref field v => s.setProperty ref field v

/-- Node `n` is node `top`, or a child of a node that is reached from it. -/
inductive Reaches (s : Scene) (top : Nat) : Nat → Prop where
  | refl : Reaches s top top
  | child {p n : Nat} {q : SceneNode} :
      Reaches s top p → s.node? p = some q → n ∈ q.children → Reaches s top n

/-- The root has no parent and every other node an older one. A living node has a living parent,
    which lists it once, and what a living node lists are living nodes that it is the parent of. -/
structure IsTree (s : Scene) : Prop where
  root     : ∃ top, s.node? 1 = some top ∧ top.parent = none
  older    : ∀ n node, s.node? n = some node → n ≠ 1 →
    ∃ p, node.parent = some p ∧ 0 < p ∧ p < n
  listed   : ∀ n node, s.liveNode? n = some node → n ≠ 1 →
    ∃ p q, node.parent = some p ∧ s.liveNode? p = some q ∧ q.children.count n = 1
  children : ∀ p q, s.liveNode? p = some q → ∀ c ∈ q.children,
    ∃ node, s.liveNode? c = some node ∧ node.parent = some p

/-- Every number keeps its node, with its parent, and a dead node stays dead. -/
def Becomes (s s' : Scene) : Prop :=
  ∀ n node, s.node? n = some node →
    ∃ node', s'.node? n = some node' ∧ node'.parent = node.parent ∧
      (node'.alive = true → node.alive = true)

/-- Node `n` and all that is reached from it are dead, its parent no longer lists it, and every
    other node is as it was. -/
structure Frees (s : Scene) (n : Nat) (s' : Scene) : Prop where
  below  : ∀ k node, s.Reaches n k → s.node? k = some node →
    s'.node? k = some { node with alive := false }
  parent : ∀ p q, (s.node? n).bind SceneNode.parent = some p → s.node? p = some q →
    s'.node? p = some { q with children := q.children.filter (· ≠ n) }
  others : ∀ k, ¬s.Reaches n k → (s.node? n).bind SceneNode.parent ≠ some k →
    s'.node? k = s.node? k

/-! ## Nodes by number -/

theorem node?_pos (h : s.node? n = some node) : 0 < n := by
  cases n with
  | zero => cases h
  | succ i => exact Nat.succ_pos i

theorem node?_le (h : s.node? n = some node) : n ≤ s.nodes.length := by
  cases n with
  | zero => cases h
  | succ i => exact (List.getElem?_eq_some_iff.mp h).1

theorem node?_update (s : Scene) (f : SceneNode → SceneNode) (hp : 0 < p) (n : Nat) :
    (s.update p f).node? n = if n = p then (s.node? n).map f else s.node? n := by
  obtain ⟨j, rfl⟩ : ∃ j, p = j + 1 := ⟨p - 1, by omega⟩
  cases n with
  | zero =>
      rw [if_neg (by omega)]
      rfl
  | succ i =>
      show (s.nodes.modify j f)[i]? = _
      rw [List.getElem?_modify]
      by_cases hij : j = i
      · simp only [hij, if_true]
        rfl
      · simp only [hij, if_false, if_neg fun h : i + 1 = j + 1 => hij (Nat.succ.inj h).symm]
        exact id_map _

theorem node?_push (s : Scene) (x : SceneNode) (n : Nat) :
    node? { s with nodes := s.nodes ++ [x] } n =
      if n = s.nodes.length + 1 then some x else s.node? n := by
  cases n with
  | zero =>
      rw [if_neg (by omega)]
      rfl
  | succ i =>
      show (s.nodes ++ [x])[i]? = if i + 1 = s.nodes.length + 1 then some x else s.nodes[i]?
      rcases Nat.lt_trichotomy i s.nodes.length with hi | rfl | hi
      · rw [List.getElem?_append_left hi, if_neg (by omega)]
      · rw [List.getElem?_concat_length, if_pos rfl]
      · rw [List.getElem?_append_right (by omega), if_neg (by omega),
          List.getElem?_eq_none (l := s.nodes) (by omega), List.getElem?_eq_none]
        simp only [List.length_singleton]
        omega

theorem node?_kill (s : Scene) (dead : Nat → Bool) (n : Nat) :
    (s.kill dead).node? n =
      (s.node? n).map fun node => { node with alive := node.alive && !dead n } := by
  cases n with
  | zero => rfl
  | succ i =>
      show (s.nodes.mapIdx _)[i]? = s.nodes[i]?.map _
      rw [List.getElem?_mapIdx]
      cases dead (i + 1) <;> simp

theorem liveNode?_eq_some_iff :
    s.liveNode? n = some node ↔ s.node? n = some node ∧ node.alive = true :=
  Option.filter_eq_some_iff

/-- A handle stands for a living node when it is its number. -/
theorem live?_eq_some_iff {ref : NodeRef} :
    s.live? ref = some n ↔ ref = .numbered n ∧ ∃ node, s.liveNode? n = some node := by
  rw [live?, Option.filter_eq_some_iff, Option.any_eq_true]
  simp only [liveNode?_eq_some_iff]
  refine and_congr_left fun ⟨node, hnode, _⟩ => ?_
  have hpos := node?_pos hnode
  have hle := node?_le hnode
  cases ref with
  | named id => simp [numberOf?]
  | numbered id =>
      simp only [numberOf?, NodeRef.numbered.injEq]
      constructor
      · intro h
        split at h
        · next hid =>
            cases h
            omega
        · cases h
      · rintro rfl
        rw [if_pos (by omega)]
        rfl

/-! ## The two views -/

theorem IsTree.parent_lt (ht : s.IsTree) (hn : s.node? n = some node) (hp : node.parent = some p) :
    0 < p ∧ p < n := by
  by_cases h1 : n = 1
  · obtain ⟨top, htop, hnone⟩ := ht.root
    rw [h1, htop] at hn
    cases hn
    rw [hnone] at hp
    cases hp
  · obtain ⟨p', hp', hlt⟩ := ht.older n node hn h1
    cases hp.symm.trans hp'
    exact hlt

theorem isBelow_self (s : Scene) (n : Nat) : s.isBelow n n = true := by
  rw [isBelow, if_pos rfl]

/-- What is below a node has its parent there too. -/
theorem IsTree.isBelow_parent (ht : s.IsTree) (hk : s.node? k = some node)
    (hp : node.parent = some p) (hne : k ≠ n) : s.isBelow n k = s.isBelow n p := by
  rw [isBelow, if_neg hne, hk, Option.bind_some, hp]
  exact if_pos (ht.parent_lt hk hp).2

theorem isBelow_of_no_parent (hk : s.node? k = some node) (hp : node.parent = none)
    (hne : k ≠ n) : s.isBelow n k = false := by
  rw [isBelow, if_neg hne, hk, Option.bind_some, hp]

/-- What is below a node is not older. -/
theorem le_of_isBelow (s : Scene) (h : s.isBelow n k = true) : n ≤ k := by
  induction k using Nat.strongRecOn with
  | ind k ih =>
      rw [isBelow] at h
      split at h
      · omega
      · split at h
        · split at h
          · next hlt =>
              have := ih _ hlt h
              omega
          · cases h
        · cases h

/-- The parent of a node is older than everything below the node. -/
theorem IsTree.isBelow_of_parent (ht : s.IsTree) (hp : (s.node? n).bind SceneNode.parent = some p) :
    s.isBelow n p = false := by
  obtain ⟨node, hn, hnp⟩ := Option.bind_eq_some_iff.mp hp
  have hlt := (ht.parent_lt hn hnp).2
  cases hb : s.isBelow n p with
  | false => rfl
  | true =>
      have := le_of_isBelow s hb
      omega

/-- From a living node, following children leads to the living nodes whose parents lead back. -/
theorem IsTree.reaches_iff (ht : s.IsTree) (hn : s.liveNode? n = some node) :
    s.Reaches n k ↔ (∃ node, s.liveNode? k = some node) ∧ s.isBelow n k = true := by
  constructor
  · intro h
    induction h with
    | refl => exact ⟨⟨node, hn⟩, isBelow_self s n⟩
    | @child p c q hreach hq hc ih =>
        obtain ⟨⟨q', hq'⟩, hbelow⟩ := ih
        cases hq.symm.trans (liveNode?_eq_some_iff.mp hq').1
        obtain ⟨child, hchild, hparent⟩ := ht.children p q hq' c hc
        refine ⟨⟨child, hchild⟩, ?_⟩
        by_cases hcn : c = n
        · rw [hcn]
          exact isBelow_self s n
        · rw [ht.isBelow_parent (liveNode?_eq_some_iff.mp hchild).1 hparent hcn]
          exact hbelow
  · rintro ⟨⟨x, hx⟩, hbelow⟩
    -- Parents are older, so the way up ends.
    induction k using Nat.strongRecOn generalizing x with
    | ind k ih =>
        by_cases hkn : k = n
        · rw [hkn]
          exact .refl
        · have hxn := (liveNode?_eq_some_iff.mp hx).1
          have hk1 : k ≠ 1 := by
            rintro rfl
            obtain ⟨top, htop, hnone⟩ := ht.root
            rw [isBelow_of_no_parent htop hnone hkn] at hbelow
            cases hbelow
          obtain ⟨p, q, hp, hq, hcount⟩ := ht.listed k x hx hk1
          rw [ht.isBelow_parent hxn hp hkn] at hbelow
          have hreach := ih p (ht.parent_lt hxn hp).2 hbelow q hq
          exact .child hreach (liveNode?_eq_some_iff.mp hq).1
            (List.count_pos_iff.mp (by omega))

/-! ## What an edit does -/

/-- A node that is added is the last one, and a living one has it as its last child. -/
theorem add_cases {parent ref : NodeRef} (h : s.add parent node = .ok (ref, s')) :
    ∃ p q, s.liveNode? p = some q ∧ ref = .numbered ((s.nodes.length + 1 : Nat) : Int) ∧
      ∀ k, s'.node? k = if k = s.nodes.length + 1 then
          some (node.placed p)
        else (s.node? k).map fun x =>
          { x with children := x.children ++ if k = p then [s.nodes.length + 1] else [] } := by
  unfold add at h
  split at h
  · cases h
  · next p hp =>
      obtain ⟨-, q, hq⟩ := live?_eq_some_iff.mp hp
      have hpos := node?_pos (liveNode?_eq_some_iff.mp hq).1
      have hlen : ∀ f : SceneNode → SceneNode, (s.update p f).nodes.length = s.nodes.length :=
        fun f => List.length_modify f s.nodes (p - 1)
      cases h
      refine ⟨p, q, hq, rfl, fun k => ?_⟩
      rw [node?_push, hlen, node?_update s _ hpos]
      by_cases hk : k = p
      · simp only [hk, if_true]
      · simp [hk]

/-- To take a node from its parent changes the list of the parent only. -/
theorem IsTree.node?_detach (ht : s.IsTree) (n k : Nat) :
    (s.detach n).node? k = (s.node? k).map fun node =>
      { node with
        children := if (s.node? n).bind SceneNode.parent = some k
          then node.children.filter (· ≠ n) else node.children } := by
  rw [detach]
  cases hp : (s.node? n).bind SceneNode.parent with
  | none => simp
  | some p =>
      obtain ⟨node, hn, hnp⟩ := Option.bind_eq_some_iff.mp hp
      simp only [node?_update s _ (ht.parent_lt hn hnp).1, Option.some.injEq]
      by_cases hk : p = k
      · simp [hk]
      · simp [hk, Ne.symm hk]

theorem IsTree.liveNode?_of_detach (ht : s.IsTree) (h : (s.detach n).liveNode? k = some node) :
    ∃ x, s.liveNode? k = some x := by
  obtain ⟨hk, halive⟩ := liveNode?_eq_some_iff.mp h
  rw [ht.node?_detach] at hk
  obtain ⟨x, hx, rfl⟩ := Option.map_eq_some_iff.mp hk
  exact ⟨x, liveNode?_eq_some_iff.mpr ⟨hx, halive⟩⟩

/-- Freeing follows the parents. -/
theorem free_node? (ht : s.IsTree) {ref : NodeRef} (h : s.live? ref = some n) (k : Nat) :
    (s.free ref).node? k = (s.node? k).map fun node =>
      { node with
        children := if (s.node? n).bind SceneNode.parent = some k
          then node.children.filter (· ≠ n) else node.children
        alive := node.alive && !s.isBelow n k } := by
  rw [free, h]
  dsimp only
  rw [node?_kill, ht.node?_detach, Option.map_map]
  rfl

/-- A change of one node that leaves its place in the tree alone. -/
theorem update_place {f : SceneNode → SceneNode} (hn : s.node? n = some node)
    (hf : (f node).place = node.place) (k : Nat) :
    ((s.update n f).node? k).map SceneNode.place = (s.node? k).map SceneNode.place := by
  rw [node?_update s f (node?_pos hn)]
  split
  · next hk =>
      rw [hk, hn]
      exact congrArg some hf
  · rfl

theorem setField?_place {changed : SceneNode} {field : NodeField} {v : Value}
    (h : setField? node field v = some changed) : changed.place = node.place := by
  unfold setField? at h
  split at h
  · obtain ⟨p, -, rfl⟩ := Option.map_eq_some_iff.mp h
    rfl
  · obtain ⟨p, -, rfl⟩ := Option.map_eq_some_iff.mp h
    rfl
  · obtain ⟨p, -, rfl⟩ := Option.map_eq_some_iff.mp h
    rfl
  · split at h
    · cases h
      rfl
    · cases h

/-- Moving a node moves it on the plane only. -/
theorem setPosition_place {ref : NodeRef} {position : Vec2}
    (h : s.setPosition ref position = .ok s') (k : Nat) :
    (s'.node? k).map SceneNode.place = (s.node? k).map SceneNode.place := by
  unfold setPosition at h
  cases hr : s.require ref with
  | error e => rw [hr] at h; cases h
  | ok e =>
      rw [hr] at h
      cases h
      exact update_place (require_cases hr).2 rfl k

theorem setProperty_place {ref : NodeRef} {field : NodeField} {v : Value}
    (h : s.setProperty ref field v = .ok s') (k : Nat) :
    (s'.node? k).map SceneNode.place = (s.node? k).map SceneNode.place := by
  obtain ⟨n, node, changed, -, hnode, hchanged, rfl⟩ := setProperty_cases h
  exact update_place hnode (setField?_place hchanged) k

/-! ## One edit -/

/-- Two scenes with the same nodes in the same places. -/
theorem node?_of_place
    (h : ∀ k, (s'.node? k).map SceneNode.place = (s.node? k).map SceneNode.place)
    (hn : s.node? n = some node) :
    ∃ node', s'.node? n = some node' ∧ node'.parent = node.parent ∧
      node'.children = node.children ∧ node'.alive = node.alive := by
  have hplace := h n
  rw [hn] at hplace
  obtain ⟨node', hn', hsame⟩ := Option.map_eq_some_iff.mp hplace
  simp only [SceneNode.place, Prod.mk.injEq] at hsame
  exact ⟨node', hn', hsame.1, hsame.2.1, hsame.2.2⟩

theorem liveNode?_of_place
    (h : ∀ k, (s'.node? k).map SceneNode.place = (s.node? k).map SceneNode.place)
    (hn : s.liveNode? n = some node) :
    ∃ node', s'.liveNode? n = some node' ∧ node'.parent = node.parent ∧
      node'.children = node.children := by
  obtain ⟨hnode, halive⟩ := liveNode?_eq_some_iff.mp hn
  obtain ⟨node', hn', hparent, hchildren, hsame⟩ := node?_of_place h hnode
  exact ⟨node', liveNode?_eq_some_iff.mpr ⟨hn', hsame.trans halive⟩, hparent, hchildren⟩

/-- Whether a scene is a tree depends on the places of its nodes only. -/
theorem IsTree.of_place (ht : s.IsTree)
    (h : ∀ k, (s'.node? k).map SceneNode.place = (s.node? k).map SceneNode.place) : s'.IsTree where
  root := by
    obtain ⟨top, htop, hnone⟩ := ht.root
    obtain ⟨top', htop', hparent, -⟩ := node?_of_place h htop
    exact ⟨top', htop', hparent.trans hnone⟩
  older n node hn h1 := by
    obtain ⟨old, hold, hparent, -⟩ := node?_of_place (fun k => (h k).symm) hn
    rw [← hparent]
    exact ht.older n old hold h1
  listed n node hn h1 := by
    obtain ⟨old, hold, hparent, -⟩ := liveNode?_of_place (fun k => (h k).symm) hn
    obtain ⟨p, q, hp, hq, hcount⟩ := ht.listed n old hold h1
    obtain ⟨q', hq', -, hchildren⟩ := liveNode?_of_place h hq
    exact ⟨p, q', hparent.symm.trans hp, hq', by rw [hchildren, hcount]⟩
  children p q hq c hc := by
    obtain ⟨old, hold, -, hchildren⟩ := liveNode?_of_place (fun k => (h k).symm) hq
    rw [← hchildren] at hc
    obtain ⟨child, hchild, hparent⟩ := ht.children p old hold c hc
    obtain ⟨child', hchild', hparent', -⟩ := liveNode?_of_place h hchild
    exact ⟨child', hchild', hparent'.trans hparent⟩

/-- The new node is listed by its parent and lists nothing. -/
theorem IsTree.add (ht : s.IsTree) {parent ref : NodeRef}
    (h : s.add parent node = .ok (ref, s')) : s'.IsTree := by
  obtain ⟨p, q, hq, -, hnodes⟩ := add_cases h
  obtain ⟨hqn, hqa⟩ := liveNode?_eq_some_iff.mp hq
  have hnew : ∀ {k x}, s.node? k = some x → k ≠ s.nodes.length + 1 := fun hx => by
    have := node?_le hx
    omega
  have hadded : s'.liveNode? (s.nodes.length + 1) =
      some (node.placed p) :=
    liveNode?_eq_some_iff.mpr ⟨by rw [hnodes, if_pos rfl], rfl⟩
  have hkept : ∀ {k x}, s.node? k = some x → s'.node? k = some
      { x with children := x.children ++ if k = p then [s.nodes.length + 1] else [] } :=
    fun hx => by rw [hnodes, if_neg (hnew hx), hx, Option.map_some]
  have hlive : ∀ {k x}, s.liveNode? k = some x → s'.liveNode? k = some
      { x with children := x.children ++ if k = p then [s.nodes.length + 1] else [] } :=
    fun hx => liveNode?_eq_some_iff.mpr
      ⟨hkept (liveNode?_eq_some_iff.mp hx).1, (liveNode?_eq_some_iff.mp hx).2⟩
  -- Every node is the new one or comes from an older one.
  have hcases : ∀ {k x'}, s'.node? k = some x' → k ≠ s.nodes.length + 1 → ∃ x,
      s.node? k = some x ∧
      x' = { x with children := x.children ++ if k = p then [s.nodes.length + 1] else [] } := by
    intro k x' hx' hk
    rw [hnodes, if_neg hk] at hx'
    obtain ⟨x, hx, rfl⟩ := Option.map_eq_some_iff.mp hx'
    exact ⟨x, hx, rfl⟩
  refine ⟨?_, fun k x' hx' h1 => ?_, fun k x' hx' h1 => ?_, fun k x' hx' c hc => ?_⟩
  · obtain ⟨top, htop, hnone⟩ := ht.root
    exact ⟨_, hkept htop, hnone⟩
  · by_cases hk : k = s.nodes.length + 1
    · rw [hk, hnodes, if_pos rfl] at hx'
      cases hx'
      have hle := node?_le hqn
      exact ⟨p, rfl, node?_pos hqn, by omega⟩
    · obtain ⟨x, hx, rfl⟩ := hcases hx' hk
      exact ht.older k x hx h1
  · by_cases hk : k = s.nodes.length + 1
    -- No node listed the new number before.
    · rw [hk, hadded] at hx'
      cases hx'
      have hfresh : s.nodes.length + 1 ∉ q.children := fun hmem => by
        obtain ⟨x, hx, -⟩ := ht.children p q hq _ hmem
        exact hnew (liveNode?_eq_some_iff.mp hx).1 rfl
      refine ⟨p, _, rfl, hlive hq, ?_⟩
      rw [hk, if_pos rfl, List.count_append, List.count_eq_zero_of_not_mem hfresh]
      simp
    · obtain ⟨hx'n, hx'a⟩ := liveNode?_eq_some_iff.mp hx'
      obtain ⟨x, hx, rfl⟩ := hcases hx'n hk
      obtain ⟨p', q', hp', hq', hcount⟩ :=
        ht.listed k x (liveNode?_eq_some_iff.mpr ⟨hx, hx'a⟩) h1
      refine ⟨p', _, hp', hlive hq', ?_⟩
      rw [List.count_append, hcount]
      split <;> simp [Ne.symm hk]
  · by_cases hk : k = s.nodes.length + 1
    · rw [hk, hadded] at hx'
      cases hx'
      cases hc
    · obtain ⟨hx'n, hx'a⟩ := liveNode?_eq_some_iff.mp hx'
      obtain ⟨x, hx, rfl⟩ := hcases hx'n hk
      rcases List.mem_append.mp hc with hc | hc
      · obtain ⟨child, hchild, hparent⟩ :=
          ht.children k x (liveNode?_eq_some_iff.mpr ⟨hx, hx'a⟩) c hc
        exact ⟨_, hlive hchild, hparent⟩
      · split at hc
        · next hkp =>
            rw [List.mem_singleton.mp hc, hkp]
            exact ⟨_, hadded, rfl⟩
        · cases hc

/-- What is alive after a node is freed was alive and is not below it. -/
theorem IsTree.liveNode?_free (ht : s.IsTree) {ref : NodeRef} (h : s.live? ref = some n)
    {x' : SceneNode} : (s.free ref).liveNode? k = some x' ↔
      ∃ x, s.liveNode? k = some x ∧ s.isBelow n k = false ∧
        x' = { x with children := if (s.node? n).bind SceneNode.parent = some k
          then x.children.filter (· ≠ n) else x.children } := by
  rw [liveNode?_eq_some_iff, free_node? ht h]
  constructor
  · rintro ⟨hx', halive⟩
    obtain ⟨x, hx, rfl⟩ := Option.map_eq_some_iff.mp hx'
    obtain ⟨ha, hb⟩ := Bool.and_eq_true_iff.mp halive
    have hbelow : s.isBelow n k = false := by simpa using hb
    refine ⟨x, liveNode?_eq_some_iff.mpr ⟨hx, ha⟩, hbelow, ?_⟩
    rw [hbelow, Bool.not_false, Bool.and_true]
  · rintro ⟨x, hx, hbelow, rfl⟩
    obtain ⟨hxn, ha⟩ := liveNode?_eq_some_iff.mp hx
    rw [hxn, hbelow, Bool.not_false]
    simp only [Bool.and_true]
    exact ⟨rfl, ha⟩

/-- What stays alive keeps its parent and its children, as none of these is below the node. -/
theorem IsTree.free (ht : s.IsTree) (ref : NodeRef) : (s.free ref).IsTree := by
  cases h : s.live? ref with
  | none =>
      rw [Scene.free, h]
      exact ht
  | some n =>
      have hkept : ∀ {k x'}, (s.free ref).node? k = some x' →
          ∃ x, s.node? k = some x ∧ x'.parent = x.parent := fun hx' => by
        rw [free_node? ht h] at hx'
        obtain ⟨x, hx, rfl⟩ := Option.map_eq_some_iff.mp hx'
        exact ⟨x, hx, rfl⟩
      refine ⟨?_, fun k x' hx' h1 => ?_, fun k x' hx' h1 => ?_, fun k x' hx' c hc => ?_⟩
      · obtain ⟨top, htop, hnone⟩ := ht.root
        have hroot := free_node? ht h 1
        rw [htop, Option.map_some] at hroot
        exact ⟨_, hroot, hnone⟩
      · obtain ⟨x, hx, hparent⟩ := hkept hx'
        rw [hparent]
        exact ht.older k x hx h1
      · obtain ⟨x, hx, hbelow, rfl⟩ := (ht.liveNode?_free h).mp hx'
        obtain ⟨p, q, hp, hq, hcount⟩ := ht.listed k x hx h1
        have hkn : k ≠ n := by
          rintro rfl
          rw [isBelow_self] at hbelow
          cases hbelow
        have hpbelow : s.isBelow n p = false :=
          (ht.isBelow_parent (liveNode?_eq_some_iff.mp hx).1 hp hkn).symm.trans hbelow
        refine ⟨p, _, hp, (ht.liveNode?_free h).mpr ⟨q, hq, hpbelow, rfl⟩, ?_⟩
        dsimp only
        split
        · rw [List.count_filter (by simpa using hkn), hcount]
        · exact hcount
      · obtain ⟨x, hx, hbelow, rfl⟩ := (ht.liveNode?_free h).mp hx'
        have hmem : c ∈ x.children := by
          dsimp only at hc
          split at hc
          · exact (List.mem_filter.mp hc).1
          · exact hc
        obtain ⟨child, hchild, hparent⟩ := ht.children k x hx c hmem
        have hcn : c ≠ n := by
          rintro rfl
          have hbind : (s.node? c).bind SceneNode.parent = some k := by
            rw [(liveNode?_eq_some_iff.mp hchild).1, Option.bind_some, hparent]
          dsimp only at hc
          rw [if_pos hbind] at hc
          simpa using (List.mem_filter.mp hc).2
        have hcbelow : s.isBelow n c = false :=
          (ht.isBelow_parent (liveNode?_eq_some_iff.mp hchild).1 hparent hcn).trans hbelow
        exact ⟨_, (ht.liveNode?_free h).mpr ⟨child, hchild, hcbelow, rfl⟩, hparent⟩

/-- Freeing a living node kills what is reached from it and touches nothing else. -/
theorem IsTree.frees (ht : s.IsTree) {ref : NodeRef} (h : s.live? ref = some n) :
    s.Frees n (s.free ref) := by
  obtain ⟨-, top, htop⟩ := live?_eq_some_iff.mp h
  refine ⟨fun k x hreach hx => ?_, fun p q hp hq => ?_, fun k hreach hp => ?_⟩
  · obtain ⟨-, hbelow⟩ := (ht.reaches_iff htop).mp hreach
    have hp : (s.node? n).bind SceneNode.parent ≠ some k := fun hp => by
      rw [ht.isBelow_of_parent hp] at hbelow
      cases hbelow
    rw [free_node? ht h, hx, Option.map_some, if_neg hp, hbelow, Bool.not_true, Bool.and_false]
  · rw [free_node? ht h, hq, Option.map_some, if_pos hp, ht.isBelow_of_parent hp, Bool.not_false,
      Bool.and_true]
  · rw [free_node? ht h]
    cases hx : s.node? k with
    | none => rfl
    | some x =>
        rw [Option.map_some, if_neg hp]
        -- A node that stays as it is was dead before or is not below.
        have halive : (x.alive && !s.isBelow n k) = x.alive := by
          cases ha : x.alive with
          | false => rfl
          | true =>
              have hlive := liveNode?_eq_some_iff.mpr ⟨hx, ha⟩
              have hbelow : ¬s.isBelow n k = true := fun hb =>
                hreach ((ht.reaches_iff htop).mpr ⟨⟨x, hlive⟩, hb⟩)
              simp [hbelow]
        rw [halive]

/-! ## Any number of edits -/

theorem edit_eq_attempt (s : Scene) (e : SceneEdit) :
    s.edit e = (s.attempt e).toOption.getD s := by
  cases e with
  | add parent node =>
      rw [edit, attempt]
      cases s.add parent node <;> rfl
  | free ref => rfl
  | setPosition ref p => rfl
  | setProperty ref field v => rfl

theorem attempt_add {parent : NodeRef} (h : s.attempt (.add parent node) = .ok s') :
    ∃ ref, s.add parent node = .ok (ref, s') := by
  rw [attempt] at h
  cases hadd : s.add parent node with
  | error e =>
      rw [hadd] at h
      cases h
  | ok added =>
      rw [hadd] at h
      cases h
      exact ⟨added.1, rfl⟩

/-- An edit keeps the tree, also one that fails. -/
theorem IsTree.edit (ht : s.IsTree) (e : SceneEdit) : (s.edit e).IsTree := by
  rw [edit_eq_attempt]
  cases h : s.attempt e with
  | error _ => exact ht
  | ok s' =>
      show s'.IsTree
      cases e with
      | add parent node =>
          obtain ⟨ref, hadd⟩ := attempt_add h
          exact ht.add hadd
      | free ref =>
          cases h
          exact ht.free ref
      | setPosition ref p => exact ht.of_place (setPosition_place h)
      | setProperty ref field v => exact ht.of_place (setProperty_place h)

theorem Becomes.refl (s : Scene) : s.Becomes s := fun _ node hn => ⟨node, hn, rfl, id⟩

theorem Becomes.trans (h : s.Becomes s') (h' : s'.Becomes s'') : s.Becomes s'' := by
  intro n node hn
  obtain ⟨node', hn', hp', ha'⟩ := h n node hn
  obtain ⟨node'', hn'', hp'', ha''⟩ := h' n node' hn'
  exact ⟨node'', hn'', hp''.trans hp', fun ha => ha' (ha'' ha)⟩

/-- An edit takes no node away and brings none back to life. -/
theorem IsTree.becomes_edit (ht : s.IsTree) (e : SceneEdit) : s.Becomes (s.edit e) := by
  have hplace : ∀ {s' : Scene},
      (∀ k, (s'.node? k).map SceneNode.place = (s.node? k).map SceneNode.place) →
      s.Becomes s' := by
    intro s' h n node hn
    obtain ⟨node', hn', hparent, -, halive⟩ := node?_of_place h hn
    exact ⟨node', hn', hparent, fun ha => halive ▸ ha⟩
  rw [edit_eq_attempt]
  cases h : s.attempt e with
  | error _ => exact .refl s
  | ok s' =>
      show s.Becomes s'
      cases e with
      | add parent node =>
          obtain ⟨ref, hadd⟩ := attempt_add h
          obtain ⟨p, q, -, -, hnodes⟩ := add_cases hadd
          intro n x hx
          have hle := node?_le hx
          have hn := hnodes n
          rw [if_neg (by omega), hx, Option.map_some] at hn
          exact ⟨_, hn, rfl, id⟩
      | free ref =>
          cases h
          cases hlive : s.live? ref with
          | none =>
              rw [Scene.free, hlive]
              exact .refl s
          | some n =>
              intro k x hx
              have hk := free_node? ht hlive k
              rw [hx, Option.map_some] at hk
              exact ⟨_, hk, rfl, fun ha => (Bool.and_eq_true_iff.mp ha).1⟩
      | setPosition ref p => exact hplace (setPosition_place h)
      | setProperty ref field v => exact hplace (setProperty_place h)

theorem IsTree.edits (es : List SceneEdit) :
    ∀ {s : Scene}, s.IsTree → (s.edits es).IsTree ∧ s.Becomes (s.edits es) := by
  induction es with
  | nil => exact fun ht => ⟨ht, .refl _⟩
  | cons e rest ih =>
      intro s ht
      obtain ⟨htree, hbecomes⟩ := ih (ht.edit e)
      exact ⟨htree, (ht.becomes_edit e).trans hbecomes⟩

/-- A scene begins as a tree with one node. -/
theorem isTree_ofRoot (name : Text) : (ofRoot name).IsTree := by
  have hone : ∀ {n x}, (ofRoot name).node? n = some x →
      n = 1 ∧ x = { name := name, parent := none } := by
    intro n x hx
    have hpos := node?_pos hx
    have hle : n ≤ 1 := node?_le hx
    obtain rfl : n = 1 := by omega
    cases hx
    exact ⟨rfl, rfl⟩
  refine ⟨⟨_, rfl, rfl⟩, fun n x hx h1 => absurd (hone hx).1 h1, fun n x hx h1 => ?_,
    fun p q hq c hc => ?_⟩
  · exact absurd (hone (liveNode?_eq_some_iff.mp hx).1).1 h1
  · rw [(hone (liveNode?_eq_some_iff.mp hq).1).2] at hc
    cases hc

/-- A handle that was given out is never given out again. -/
theorem IsTree.add_ref_ne (ht : s.IsTree) {parent ref : NodeRef}
    (h : s.add parent node = .ok (ref, s')) (later : List SceneEdit) {parent' ref' : NodeRef}
    {node' : SceneNode} (h' : (s'.edits later).add parent' node' = .ok (ref', s'')) :
    ref' ≠ ref := by
  obtain ⟨p, q, -, rfl, hnodes⟩ := add_cases h
  obtain ⟨p', q', -, rfl, -⟩ := add_cases h'
  have hnew := hnodes (s.nodes.length + 1)
  rw [if_pos rfl] at hnew
  -- The number stays taken, and a new number is greater than all that are taken.
  obtain ⟨x, hx, -⟩ := ((ht.add h).edits later).2 _ _ hnew
  have hle := node?_le hx
  intro heq
  have : (((s'.edits later).nodes.length + 1 : Nat) : Int) = ((s.nodes.length + 1 : Nat) : Int) :=
    NodeRef.numbered.inj heq
  omega

/-- Every scene that edits lead to, failing ones among them, is a tree. Whatever is edited next,
    no node is taken away or comes back to life; a new node has a number that no node has or had;
    freeing kills a living node with all that is reached from it, and touches nothing else but
    the list it stands in; and an edit that fails changes nothing. -/
theorem tree_of_edits (name : Text) (history : List SceneEdit) :
    let s := (ofRoot name).edits history
    s.IsTree ∧
    (∀ later, s.Becomes (s.edits later)) ∧
    (∀ parent node ref s', s.add parent node = .ok (ref, s') →
      (∃ n : Nat, ref = .numbered n ∧ s.node? n = none ∧ ∃ x, s'.liveNode? n = some x) ∧
      ∀ later parent' node' ref' s'', (s'.edits later).add parent' node' = .ok (ref', s'') →
        ref' ≠ ref) ∧
    (∀ ref, (s.live? ref = none → s.free ref = s) ∧
      ∀ n, s.live? ref = some n → s.Frees n (s.free ref)) ∧
    (∀ e error, s.attempt e = .error error → s.edit e = s) ∧
    ∀ ref field v m s', host.setProperty ref field v s = .error m s' → s' = s := by
  intro s
  have ht : s.IsTree := ((isTree_ofRoot name).edits history).1
  refine ⟨ht, fun later => (ht.edits later).2, fun parent node ref s' h => ⟨?_, ?_⟩,
    fun ref => ⟨fun h => by rw [Scene.free, h], fun n h => ht.frees h⟩, fun e error h => ?_,
    fun ref field v m s' h => ?_⟩
  · obtain ⟨p, q, -, href, hnodes⟩ := add_cases h
    have hnew := hnodes (s.nodes.length + 1)
    rw [if_pos rfl] at hnew
    refine ⟨s.nodes.length + 1, href, ?_, _, liveNode?_eq_some_iff.mpr ⟨hnew, rfl⟩⟩
    exact List.getElem?_eq_none (Nat.le_refl _)
  · exact fun later parent' node' ref' s'' h' => ht.add_ref_ne h later h'
  · rw [edit_eq_attempt, h]
    rfl
  · simp only [host, change] at h
    split at h
    · cases h
    · cases h
      rfl

/-- A path of three nodes below the root, and a brother of the second. -/
def branching : List SceneEdit :=
  [.add root { name := "a", parent := none }, .add (.numbered 2) { name := "b", parent := none },
   .add (.numbered 3) { name := "c", parent := none },
   .add (.numbered 2) { name := "d", parent := none }]

-- The brother stays, and the number of a node that is gone is not given to the next one.
example : (((ofRoot "root").edits (branching ++ [.free (.numbered 3), .free (.numbered 3),
    .add (.numbered 4) { name := "e", parent := none },
    .add (.numbered 5) { name := "f", parent := none }])).nodes.map SceneNode.place) =
      [(none, [2], true), (some 1, [5], true), (some 2, [4], false), (some 3, [], false),
       (some 2, [6], true), (some 5, [], true)] := by decide +kernel

/-! ## Scenes in use -/

/-- A scene that a program comes to: it begins with its root, then it is edited, and it records what
    is printed and emitted. -/
inductive Reachable : Scene → Prop where
  | start (name : Text) : Reachable (ofRoot name)
  | edit {s : Scene} (e : SceneEdit) : Reachable s → Reachable (s.edit e)
  | print {s : Scene} (line : Text) : Reachable s → Reachable (s.print line)
  | emit {s : Scene} (e : Emission) : Reachable s → Reachable (s.emit e)

theorem Reachable.isTree (h : s.Reachable) : s.IsTree := by
  induction h with
  | start name => exact isTree_ofRoot name
  | edit e _ ih => exact ih.edit e
  | print line _ ih => exact ih.of_place fun _ => rfl
  | emit e _ ih => exact ih.of_place fun _ => rfl

theorem Reachable.edits (es : List SceneEdit) :
    ∀ {s : Scene}, s.Reachable → (s.edits es).Reachable := by
  induction es with
  | nil => exact fun h => h
  | cons e rest ih => exact fun h => ih (h.edit e)

end Scene

end SceneScript
