import SceneScript.Proofs.Scene.Tree

/-!
# Freeing, node by node

`Scene.free` says at once which nodes die: those whose parents lead to the node that is freed. A
loop comes to the same scene by way of the children. It keeps a stack of nodes that have still to
die; it takes the top one, kills it, and puts its children on the stack. In a tree it ends, because
children are younger than their parents, and everything below a node is dead before the node under
it in the stack has its turn.

* **`Scene.Kills`** — the loop with a stack ends with a scene.
* **`Scene.IsTree.kills_below`** — a node in the stack stands for all that is below it.
* **`Scene.Reachable.kills_free`** — the loop ends, with the scene in which the node is freed.
-/

namespace SceneScript

namespace Scene

variable {s s' s'' : Scene} {n k m top : Nat} {node x : SceneNode} {stack : List Nat}

/-- The loop that kills the nodes of a stack, the top one first, ends with a scene. The children of
    a node that it kills go on the stack in order, so the last one is on top. -/
inductive Kills : Scene → List Nat → Scene → Prop where
  | empty {s : Scene} : Kills s [] s
  | step {s s' : Scene} {n : Nat} {node : SceneNode} {stack : List Nat} : s.node? n = some node →
      Kills (s.update n fun x => { x with alive := false })
        ((node.children.filter fun c => (s.node? c).isSome).reverse ++ stack) s' →
      Kills s (n :: stack) s'

/-- The loop has one end. -/
theorem Kills.unique (h : s.Kills stack s') (h' : s.Kills stack s'') : s' = s'' := by
  induction h with
  | empty =>
      cases h'
      rfl
  | step hn _ ih =>
      cases h' with
      | step hn' hrest =>
          cases hn.symm.trans hn'
          exact ih hrest

/-! ## Dead nodes -/

theorem ext_node? (h : ∀ k, s.node? k = s'.node? k) (houtput : s.output = s'.output)
    (hemitted : s.emitted = s'.emitted) : s = s' := by
  obtain ⟨nodes, output, emitted⟩ := s
  obtain ⟨nodes', output', emitted'⟩ := s'
  obtain rfl : nodes = nodes' := List.ext_getElem? fun i => h (i + 1)
  cases houtput
  cases hemitted
  rfl

/-- It does not matter which of the dead are killed. -/
theorem kill_congr {d e : Nat → Bool} (h : ∀ k node, s.liveNode? k = some node → d k = e k) :
    s.kill d = s.kill e := by
  refine ext_node? (fun k => ?_) rfl rfl
  rw [node?_kill, node?_kill]
  cases hk : s.node? k with
  | none => rfl
  | some node =>
      cases ha : node.alive with
      | false => simp [ha]
      | true => simp [ha, h k node (liveNode?_eq_some_iff.mpr ⟨hk, ha⟩)]

/-- One more node is killed. -/
theorem update_kill (hn : s.node? n = some node) (dead : Nat → Bool) :
    ((s.kill dead).update n fun x => { x with alive := false }) =
      s.kill fun k => dead k || k == n := by
  refine ext_node? (fun k => ?_) rfl rfl
  rw [node?_update _ _ (node?_pos hn), node?_kill, node?_kill]
  by_cases hk : k = n
  · rw [if_pos hk, hk, hn]
    simp
  · rw [if_neg hk]
    simp only [beq_eq_false_iff_ne.mpr hk, Bool.or_false]

/-! ## Below a node -/

theorem Reaches.trans (h : s.Reaches n m) (h' : s.Reaches m k) : s.Reaches n k := by
  induction h' with
  | refl => exact h
  | child _ hq hc ih => exact .child ih hq hc

/-- What is reached from a node is the node, or reached from one of its children. -/
theorem Reaches.head (hn : s.node? n = some node) (h : s.Reaches n k) :
    k = n ∨ ∃ c ∈ node.children, s.Reaches c k := by
  induction h with
  | refl => exact .inl rfl
  | child _ hq hc ih =>
      right
      rcases ih with rfl | ⟨c, hcn, hreach⟩
      · cases hn.symm.trans hq
        exact ⟨_, hc, .refl⟩
      · exact ⟨c, hcn, .child hreach hq hc⟩

/-- A living node is below another if it is the other one or below a child of it. -/
theorem IsTree.isBelow_eq (ht : s.IsTree) (hn : s.liveNode? n = some node)
    (hk : s.liveNode? k = some x) :
    s.isBelow n k = (k == n || node.children.any fun c => s.isBelow c k) := by
  have hnode := (liveNode?_eq_some_iff.mp hn).1
  rw [Bool.eq_iff_iff, Bool.or_eq_true, beq_iff_eq, List.any_eq_true]
  constructor
  · intro hbelow
    refine ((ht.reaches_iff hn).mpr ⟨⟨x, hk⟩, hbelow⟩).head hnode |>.imp_right ?_
    rintro ⟨c, hc, hreach⟩
    obtain ⟨child, hchild, -⟩ := ht.children n node hn c hc
    exact ⟨c, hc, ((ht.reaches_iff hchild).mp hreach).2⟩
  · rintro (rfl | ⟨c, hc, hbelow⟩)
    · exact isBelow_self s k
    · obtain ⟨child, hchild, -⟩ := ht.children n node hn c hc
      have hreach := (ht.reaches_iff hchild).mpr ⟨⟨x, hk⟩, hbelow⟩
      exact ((ht.reaches_iff hn).mp ((Reaches.child .refl hnode hc).trans hreach)).2

/-- A living child of what is below a node is below the node. -/
theorem IsTree.isBelow_child (ht : s.IsTree) (hn : s.liveNode? n = some node)
    (hbelow : s.isBelow top n = true) {c : Nat} (hc : c ∈ node.children) :
    n < c ∧ (∃ child, s.liveNode? c = some child) ∧ s.isBelow top c = true := by
  obtain ⟨child, hchild, hparent⟩ := ht.children n node hn c hc
  have hcn := (liveNode?_eq_some_iff.mp hchild).1
  refine ⟨(ht.parent_lt hcn hparent).2, ⟨child, hchild⟩, ?_⟩
  by_cases htop : c = top
  · rw [htop]
    exact isBelow_self s top
  · rw [ht.isBelow_parent hcn hparent htop]
    exact hbelow

/-- Taking a node from its parent leaves what is below it as it is. -/
theorem IsTree.node?_detach_below (ht : s.IsTree) (hbelow : s.isBelow top n = true) :
    (s.detach top).node? n = s.node? n := by
  have hparent : (s.node? top).bind SceneNode.parent ≠ some n := fun hp => by
    rw [ht.isBelow_of_parent hp] at hbelow
    cases hbelow
  rw [ht.node?_detach]
  simp only [if_neg hparent]
  exact Option.map_id_apply

/-! ## The loop -/

/-- A node on the stack stands for all that is below it: once the loop has killed that, it goes on
    with the rest of the stack. The induction is on the number of younger nodes, of which a child
    has fewer. -/
theorem IsTree.kills_below (ht : s.IsTree) (hn : s.liveNode? n = some node)
    (hbelow : s.isBelow top n = true) (dead : Nat → Bool) (stack : List Nat)
    (h : ((s.detach top).kill fun k => dead k || s.isBelow n k).Kills stack s') :
    ((s.detach top).kill dead).Kills (n :: stack) s' := by
  induction hleft : s.nodes.length - n using Nat.strongRecOn generalizing n node dead stack with
  | ind left ih =>
      obtain ⟨hnode, halive⟩ := liveNode?_eq_some_iff.mp hn
      have hdetached : (s.detach top).node? n = some node :=
        (ht.node?_detach_below hbelow).trans hnode
      have hkilled : ((s.detach top).kill dead).node? n =
          some { node with alive := node.alive && !dead n } := by
        rw [node?_kill, hdetached, Option.map_some]
      -- One child after the other makes way for what is below it.
      have hchildren : ∀ cs : List Nat, (∀ c ∈ cs, c ∈ node.children) → ∀ dead : Nat → Bool,
          ((s.detach top).kill fun k => dead k || cs.any fun c => s.isBelow c k).Kills stack s' →
          ((s.detach top).kill dead).Kills (cs ++ stack) s' := by
        intro cs hcs
        induction cs with
        | nil =>
            intro dead h
            simpa using h
        | cons c cs ihcs =>
            intro dead h
            obtain ⟨hlt, ⟨child, hchild⟩, hc⟩ :=
              ht.isBelow_child hn hbelow (hcs c List.mem_cons_self)
            have hle := node?_le (liveNode?_eq_some_iff.mp hchild).1
            refine ih (s.nodes.length - c) (by omega) hchild hc dead (cs ++ stack) ?_ rfl
            refine ihcs (fun d hd => hcs d (List.mem_cons_of_mem c hd)) _ ?_
            simpa only [List.any_cons, Bool.or_assoc] using h
      have hpresent : node.children.filter
          (fun c => (((s.detach top).kill dead).node? c).isSome) = node.children := by
        refine List.filter_eq_self.mpr fun c hc => ?_
        obtain ⟨-, ⟨child, hchild⟩, hcbelow⟩ := ht.isBelow_child hn hbelow hc
        rw [node?_kill, ht.node?_detach_below hcbelow, (liveNode?_eq_some_iff.mp hchild).1]
        rfl
      refine .step hkilled ?_
      rw [hpresent, update_kill hdetached]
      refine hchildren _ (fun c hc => List.mem_reverse.mp hc) _ ?_
      rwa [kill_congr (e := fun k => dead k || s.isBelow n k)]
      intro k x hk
      obtain ⟨y, hy⟩ := ht.liveNode?_of_detach hk
      rw [List.any_reverse, Bool.or_assoc, ht.isBelow_eq hn hy]

/-- The loop that frees a living node begins when its parent has let it go, with the node on the
    stack. It ends, and the scene that it ends with is the one in which the node is freed. -/
theorem Reachable.kills_free (hs : s.Reachable) {ref : NodeRef} (h : s.live? ref = some n) :
    (s.detach n).Kills [n] s' ↔ s' = s.free ref := by
  obtain ⟨-, node, hn⟩ := live?_eq_some_iff.mp h
  have hkills : (s.detach n).Kills [n] (s.free ref) := by
    have hall : (s.detach n).kill (fun _ => false) = s.detach n :=
      ext_node? (fun k => by rw [node?_kill]; simp) rfl rfl
    have hend : s.free ref = (s.detach n).kill (s.isBelow n) := by rw [free, h]
    rw [← hall, hend]
    refine hs.isTree.kills_below hn (isBelow_self s n) _ [] ?_
    simp only [Bool.false_or]
    exact .empty
  exact ⟨fun hend => hend.unique hkills, fun hend => hend ▸ hkills⟩

end Scene

end SceneScript
