import SceneScript.Proofs.Scene.Tree
import SceneScript.Proofs.Text.Splitting

/-!
# Paths to nodes

A path is a list of steps, and a walk takes them one after the other. So a path that is put
together from two leads where the second one leads from where the first one leads, whatever the
steps are. The names on the way from the root to a node make a path to it, if they can be steps and
if at each of them the walk turns to the right child: it goes to the first living child with the
name.

* **`Scene.steps`** — the steps of a path; **`Scene.steps_append`** — of one behind another.
* **`Scene.follow_append`**, **`Scene.fromRoot_append`** — one walk behind another.
* **`Scene.getNode_live`** — every walk ends at a living node.
* **`Scene.getNode_compositional`** — a path put together from two.
* **`Scene.lineage`** / **`Scene.pathTo`** — the way from the root to a node.
* **`Scene.Reachable.getNode_identifies`** — the path of a node leads to it.
-/

namespace SceneScript

/-- The text can be the name of a node in a path. -/
structure Text.IsStep (t : Text) : Prop where
  nonempty : t.isEmpty = false
  whole    : t.contains '/' = false
  ne_here  : t ≠ "."
  ne_up    : t ≠ ".."

instance (t : Text) : Decidable t.IsStep :=
  decidable_of_iff (t.isEmpty = false ∧ t.contains '/' = false ∧ t ≠ "." ∧ t ≠ "..")
    ⟨fun ⟨h₁, h₂, h₃, h₄⟩ => ⟨h₁, h₂, h₃, h₄⟩, fun ⟨h₁, h₂, h₃, h₄⟩ => ⟨h₁, h₂, h₃, h₄⟩⟩

namespace Scene

variable {s : Scene} {n k p : Nat} {node q : SceneNode} {start ref : NodeRef} {path rest : Text}

/-! ## Steps -/

/-- The steps of a path: what stands between slashes, unless there is nothing. -/
def steps (path : Text) : List Text := (path.splitOn '/').filter fun part => !part.isEmpty

theorem steps_append (path rest : Text) :
    steps (path ++ "/" ++ rest) = steps path ++ steps rest := by
  have hsep : (Text.ofString "/").units = [unitOf '/'] := rfl
  rw [steps, Text.splitOn_append hsep, List.filter_append]
  rfl

theorem steps_join {names : List Text} (hne : names ≠ []) (h : ∀ name ∈ names, name.IsStep) :
    steps (Text.ofString "/" ++ Text.join "/" names) = names := by
  have hsep : (Text.ofString "/").units = [unitOf '/'] := rfl
  have hfront : Text.ofString "/" ++ Text.join "/" names =
      Text.empty ++ "/" ++ Text.join "/" names := rfl
  have hjoined : steps (Text.join "/" names) = names := by
    rw [steps, Text.splitOn_join hsep hne fun name hname => (h name hname).whole,
      List.filter_eq_self]
    exact fun name hname => by rw [(h name hname).nonempty, Bool.not_false]
  rw [hfront, steps_append Text.empty, hjoined]
  rfl

theorem startsWith_append (h : steps path ≠ []) :
    (path ++ "/" ++ rest).startsWith "/" = path.startsWith "/" := by
  obtain ⟨units⟩ := path
  cases units with
  | nil => exact absurd rfl h
  | cons u units =>
      show [unitOf '/'].isPrefixOf (u :: (units ++ [unitOf '/'] ++ rest.units)) =
        [unitOf '/'].isPrefixOf (u :: units)
      simp only [List.isPrefixOf]

/-! ## Walks -/

/-- The end of a walk from the root, whose first step is the name of the root. -/
def fromRoot (s : Scene) : List Text → Option Nat
  | []            => none
  | first :: rest =>
      (s.liveNode? 1).bind fun top => if first = top.name then s.follow 1 rest else none

theorem follow_append (n : Nat) (a b : List Text) :
    s.follow n (a ++ b) = (s.follow n a).bind fun k => s.follow k b := by
  induction a generalizing n with
  | nil => rfl
  | cons part a ih =>
      rw [List.cons_append, follow, follow, Option.bind_assoc]
      exact congrArg _ (funext ih)

theorem fromRoot_append {a : List Text} (hne : a ≠ []) (b : List Text) :
    s.fromRoot (a ++ b) = (s.fromRoot a).bind fun k => s.follow k b := by
  cases a with
  | nil => exact absurd rfl hne
  | cons first a =>
      rw [List.cons_append, fromRoot, fromRoot, Option.bind_assoc]
      refine congrArg _ (funext fun top => ?_)
      split
      · exact follow_append 1 a b
      · rfl

/-- A path leads from the node, unless this is not alive or the path begins at the root. -/
theorem getNode_eq (s : Scene) (start : NodeRef) (path : Text) :
    s.getNode start path =
      ((if path.startsWith "/" then none else s.live? start).elim (s.fromRoot (steps path))
        fun n => s.follow n (steps path)).map fun k : Nat => .numbered k := by
  have hnumber : ∀ reached : Option Nat,
      ((do let k ← reached; pure (k : Int)) : Option Int).map NodeRef.numbered =
        reached.map fun k : Nat => .numbered k := fun reached => by cases reached <;> rfl
  refine (hnumber _).trans (congrArg _ ?_)
  rw [steps]
  generalize ((path.splitOn '/').filter fun part => !part.isEmpty) = parts
  cases if path.startsWith "/" then none else s.live? start with
  | some n => rfl
  | none =>
      cases parts with
      | nil => cases s.liveNode? 1 <;> rfl
      | cons first rest =>
          rw [Option.elim, fromRoot]
          cases s.liveNode? 1 <;> rfl

theorem getNode_relative (hpath : path.startsWith "/" = false) (hstart : s.live? start = some n) :
    s.getNode start path = (s.follow n (steps path)).map fun k : Nat => .numbered k := by
  rw [getNode_eq, hpath, hstart]
  rfl

theorem getNode_absolute (h : path.startsWith "/" = true ∨ s.live? start = none) :
    s.getNode start path = (s.fromRoot (steps path)).map fun k : Nat => .numbered k := by
  have hbegin : (if path.startsWith "/" then none else s.live? start) = none := by
    split
    · rfl
    · next hpath => exact h.resolve_left hpath
  rw [getNode_eq, hbegin]
  rfl

/-- A step from a living node ends at a living node. -/
theorem step_live {part : Text} (hn : s.liveNode? n = some node) (h : s.step n part = some k) :
    ∃ x, s.liveNode? k = some x := by
  unfold step at h
  split at h
  · cases h
    exact ⟨node, hn⟩
  · obtain ⟨x, -, h⟩ := Option.bind_eq_some_iff.mp h
    split at h
    · exact Option.isSome_iff_exists.mp (Option.filter_eq_some_iff.mp h).2
    · have hnamed := List.find?_some h
      obtain ⟨child, hchild, -⟩ := (Option.any_eq_true _ _).mp hnamed
      exact ⟨child, hchild⟩

theorem follow_live {parts : List Text} (hn : s.liveNode? n = some node)
    (h : s.follow n parts = some k) : ∃ x, s.liveNode? k = some x := by
  induction parts generalizing n node with
  | nil =>
      cases h
      exact ⟨node, hn⟩
  | cons part parts ih =>
      obtain ⟨next, hstep, h⟩ := Option.bind_eq_some_iff.mp h
      obtain ⟨x, hx⟩ := step_live hn hstep
      exact ih hx h

theorem fromRoot_live {parts : List Text} (h : s.fromRoot parts = some k) :
    ∃ x, s.liveNode? k = some x := by
  cases parts with
  | nil => cases h
  | cons first parts =>
      obtain ⟨top, htop, h⟩ := Option.bind_eq_some_iff.mp h
      split at h
      · exact follow_live htop h
      · cases h

/-- Whatever is at the end of a path is alive. -/
theorem getNode_live (h : s.getNode start path = some ref) :
    ∃ n : Nat, ref = .numbered n ∧ s.live? ref = some n := by
  have hend : ∀ {reached : Option Nat}, (∀ n, reached = some n → ∃ x, s.liveNode? n = some x) →
      (reached.map fun n : Nat => NodeRef.numbered n) = some ref →
      ∃ n : Nat, ref = .numbered n ∧ s.live? ref = some n := by
    intro reached hlive href
    obtain ⟨n, hn, rfl⟩ := Option.map_eq_some_iff.mp href
    exact ⟨n, rfl, live?_eq_some_iff.mpr ⟨rfl, hlive n hn⟩⟩
  by_cases hpath : path.startsWith "/" = true
  · exact hend (fun _ => fromRoot_live) ((getNode_absolute (.inl hpath)).symm.trans h)
  · cases hstart : s.live? start with
    | none => exact hend (fun _ => fromRoot_live) ((getNode_absolute (.inr hstart)).symm.trans h)
    | some n =>
        obtain ⟨-, node, hn⟩ := live?_eq_some_iff.mp hstart
        exact hend (fun _ => follow_live hn)
          ((getNode_relative (Bool.eq_false_iff.mpr hpath) hstart).symm.trans h)

/-! ## Paths put together -/

theorem getNode_append (hstart : s.live? start = some n) (hpath : steps path ≠ [])
    (hrest : rest.startsWith "/" = false) :
    s.getNode start (path ++ "/" ++ rest) =
      (s.getNode start path).bind fun ref => s.getNode ref rest := by
  -- From where the first path ends the second one goes on.
  have hgoes : ∀ {reached : Option Nat}, (∀ k, reached = some k → ∃ x, s.liveNode? k = some x) →
      ((reached.bind fun k => s.follow k (steps rest)).map fun k : Nat => NodeRef.numbered k) =
        (reached.map fun k : Nat => NodeRef.numbered k).bind fun ref => s.getNode ref rest := by
    intro reached hlive
    cases reached with
    | none => rfl
    | some k => exact (getNode_relative hrest (live?_eq_some_iff.mpr ⟨rfl, hlive k rfl⟩)).symm
  cases habsolute : path.startsWith "/" with
  | true =>
      rw [getNode_absolute (.inl ((startsWith_append hpath).trans habsolute)),
        getNode_absolute (.inl habsolute), steps_append, fromRoot_append hpath]
      exact hgoes fun _ => fromRoot_live
  | false =>
      obtain ⟨-, node, hn⟩ := live?_eq_some_iff.mp hstart
      rw [getNode_relative ((startsWith_append hpath).trans habsolute) hstart,
        getNode_relative habsolute hstart, steps_append, follow_append]
      exact hgoes fun _ => follow_live hn

theorem getNode_up (hstart : s.live? start = some n) :
    s.getNode start ".." = s.getParent start := by
  obtain ⟨-, node, hn⟩ := live?_eq_some_iff.mp hstart
  have hnode := (liveNode?_eq_some_iff.mp hn).1
  have hsteps : steps ".." = [Text.ofString ".."] := rfl
  have hne : (Text.ofString "..") ≠ "." := by decide
  rw [getNode_relative rfl hstart, hsteps, follow, step, if_neg hne, hnode, Option.bind_some,
    if_pos rfl, getParent, hstart]
  simp only [bind, Option.bind_some, hnode]
  cases node.parent with
  | none => rfl
  | some p =>
      cases hp : s.liveNode? p with
      | none => simp [Option.filter, hp]
      | some x => simp [Option.filter, hp, follow]

/-- Looking up a path that is put together from two is looking up the second one from where the
    first one leads, and there is nothing if that leads nowhere. This is so for all paths of which
    the first has a step and the second does not begin at the root, whatever their steps are and
    wherever the first one begins. The step up leads to the parent. -/
theorem getNode_compositional (s : Scene) (start : NodeRef)
    (hstart : (s.live? start).isSome = true) :
    (∀ path rest : Text, (∃ part ∈ path.splitOn '/', part.isEmpty = false) →
      rest.startsWith "/" = false →
      s.getNode start (path ++ "/" ++ rest) =
        match s.getNode start path with
        | none     => none
        | some ref => s.getNode ref rest) ∧
    s.getNode start ".." = s.getParent start := by
  obtain ⟨n, hn⟩ := Option.isSome_iff_exists.mp hstart
  refine ⟨fun path rest ⟨part, hpart, hne⟩ hrest => ?_, getNode_up hn⟩
  have hsteps : steps path ≠ [] :=
    List.ne_nil_of_mem (List.mem_filter.mpr ⟨hpart, by rw [hne, Bool.not_false]⟩)
  rw [getNode_append hn hsteps hrest]
  cases s.getNode start path <;> rfl

/-- Two steps up and one down again. -/
theorem getNode_compositional_branching :
    let s := (ofRoot "root").edits branching
    let path : Text := "../.."
    let rest : Text := "d"
    (s.live? (.numbered 4)).isSome = true ∧
    (∃ part ∈ path.splitOn '/', part.isEmpty = false) ∧ rest.startsWith "/" = false ∧
    s.getNode (.numbered 4) (path ++ "/" ++ rest) = some (.numbered 5) ∧
    s.getNode (.numbered 4) ".." = s.getParent (.numbered 4) := by
  intro s path rest
  have hlive : (s.live? (.numbered 4)).isSome = true := by decide +kernel
  have hpart : ∃ part ∈ path.splitOn '/', part.isEmpty = false := ⟨"..", by decide, by decide⟩
  obtain ⟨happend, hup⟩ := getNode_compositional s (.numbered 4) hlive
  have hfirst : s.getNode (.numbered 4) path = some (.numbered 2) := by decide +kernel
  have hboth := happend path rest hpart rfl
  rw [hfirst] at hboth
  exact ⟨hlive, hpart, rfl, hboth.trans (by decide +kernel), hup⟩

/-! ## The path of a node -/

/-- The nodes on the way from the root to a node. Parents have smaller numbers. -/
def lineage (s : Scene) (n : Nat) : List Nat :=
  match (s.node? n).bind SceneNode.parent with
  | some p => if p < n then lineage s p ++ [n] else [n]
  | none   => [n]

/-- The names of nodes. -/
def names (s : Scene) (ids : List Nat) : List Text :=
  ids.filterMap fun k : Nat => s.nameOf (.numbered k)

/-- The path of a node: a slash, and the names from the root to the node between slashes. -/
def pathTo (s : Scene) (n : Nat) : Text :=
  Text.ofString "/" ++ Text.join "/" (s.names (s.lineage n))

/-- Among the children of its parent, the node is the first living one that has its name. -/
def IsFirstNamed (s : Scene) (n : Nat) : Prop :=
  ∃ node p q before after, s.node? n = some node ∧ node.parent = some p ∧ s.node? p = some q ∧
    q.children = before ++ n :: after ∧
    ∀ c ∈ before, ∀ x, s.liveNode? c = some x → x.name ≠ node.name

theorem nameOf_of_node (h : s.node? n = some node) : s.nameOf (.numbered n) = some node.name := by
  have hpos := node?_pos h
  have hle := node?_le h
  have hnumber : s.numberOf? (.numbered n) = some n := by
    rw [numberOf?, if_pos (by omega)]
    rfl
  rw [nameOf, hnumber, Option.bind_some, h]
  rfl

theorem lineage_root (hn : s.node? n = some node) (hp : node.parent = none) :
    s.lineage n = [n] := by
  rw [lineage, hn, Option.bind_some, hp]

theorem IsTree.lineage_child (ht : s.IsTree) (hn : s.node? n = some node)
    (hp : node.parent = some p) : s.lineage n = s.lineage p ++ [n] := by
  rw [lineage, hn, Option.bind_some, hp]
  exact if_pos (ht.parent_lt hn hp).2

/-- A walk turns to the first living child of a name. -/
theorem IsFirstNamed.childNamed? (h : s.IsFirstNamed n) (hn : s.liveNode? n = some node)
    (hp : node.parent = some p) (hq : s.node? p = some q) :
    s.childNamed? q node.name = some n := by
  obtain ⟨node', p', q', before, after, hn', hp', hq', hchildren, hbefore⟩ := h
  cases (liveNode?_eq_some_iff.mp hn).1.symm.trans hn'
  cases hp.symm.trans hp'
  cases hq.symm.trans hq'
  rw [Scene.childNamed?, hchildren, List.find?_eq_some_iff_append]
  refine ⟨by simp [hn], before, after, rfl, fun c hc => ?_⟩
  have hother := hbefore c hc
  cases hlive : s.liveNode? c with
  | none => rfl
  | some x => simpa using hother x hlive

/-- The walk along the names of its lineage leads to a node, by induction along the lineage. -/
theorem IsTree.fromRoot_lineage (ht : s.IsTree) (n : Nat) :
    ∀ node, s.liveNode? n = some node →
      (∀ k ∈ s.lineage n, ∀ x, s.node? k = some x → x.name.IsStep) →
      (∀ k ∈ s.lineage n, k ≠ 1 → s.IsFirstNamed k) →
      (∀ name ∈ s.names (s.lineage n), name.IsStep) ∧ s.names (s.lineage n) ≠ [] ∧
        s.fromRoot (s.names (s.lineage n)) = some n := by
  induction n using Nat.strongRecOn with
  | ind n ih =>
      intro node hlive hsteps hfirst
      have hnode := (liveNode?_eq_some_iff.mp hlive).1
      have hname := nameOf_of_node hnode
      by_cases h1 : n = 1
      · subst h1
        obtain ⟨top, htop, hnone⟩ := ht.root
        cases hnode.symm.trans htop
        rw [lineage_root hnode hnone] at hsteps ⊢
        have hnames : s.names [1] = [node.name] := by
          rw [names, List.filterMap_cons, hname]
          rfl
        rw [hnames]
        refine ⟨fun name hmem => ?_, List.cons_ne_nil _ _, ?_⟩
        · rw [List.mem_singleton.mp hmem]
          exact hsteps 1 (List.mem_singleton_self 1) node hnode
        · rw [fromRoot, hlive, Option.bind_some, if_pos rfl]
          rfl
      · obtain ⟨p, q, hp, hq, -⟩ := ht.listed n node hlive h1
        have hself : n ∈ s.lineage n := by
          rw [ht.lineage_child hnode hp]
          exact List.mem_append_right _ (List.mem_singleton_self n)
        have hstep := hsteps n hself node hnode
        have hchild := (hfirst n hself h1).childNamed? hlive hp (liveNode?_eq_some_iff.mp hq).1
        rw [ht.lineage_child hnode hp] at hsteps hfirst ⊢
        obtain ⟨hallp, hnep, hwalk⟩ := ih p (ht.parent_lt hnode hp).2 q hq
          (fun k hk => hsteps k (List.mem_append_left _ hk))
          (fun k hk => hfirst k (List.mem_append_left _ hk))
        have hnames : s.names (s.lineage p ++ [n]) = s.names (s.lineage p) ++ [node.name] := by
          rw [names, List.filterMap_append, List.filterMap_cons, hname]
          rfl
        rw [hnames]
        refine ⟨fun name hmem => ?_, by simp, ?_⟩
        · rcases List.mem_append.mp hmem with hmem | hmem
          · exact hallp name hmem
          · rw [List.mem_singleton.mp hmem]
            exact hstep
        · rw [fromRoot_append hnep, hwalk, Option.bind_some, follow, step, if_neg hstep.ne_here,
            (liveNode?_eq_some_iff.mp hq).1, Option.bind_some, if_neg hstep.ne_up, hchild]
          rfl

/-- In every scene that a program comes to, a living node is at the end of its own path, wherever
    the path is looked up from, if the names on its lineage can be steps and each node of the
    lineage below the root is the first of its name. And whatever is at the end of a path is a
    living node. -/
theorem Reachable.getNode_identifies (h : s.Reachable) :
    (∀ n node, s.liveNode? n = some node →
      (∀ k ∈ s.lineage n, ∀ x, s.node? k = some x → x.name.IsStep) →
      (∀ k ∈ s.lineage n, k ≠ 1 → s.IsFirstNamed k) →
      ∀ start, s.getNode start (s.pathTo n) = some (.numbered n)) ∧
    ∀ start path ref, s.getNode start path = some ref → (s.live? ref).isSome = true := by
  refine ⟨fun n node hn hsteps hfirst start => ?_, fun start path ref href => ?_⟩
  · obtain ⟨hall, hne, hwalk⟩ := h.isTree.fromRoot_lineage n node hn hsteps hfirst
    rw [getNode_absolute (.inl rfl), pathTo, steps_join hne hall, hwalk]
    rfl
  · obtain ⟨n, -, hn⟩ := getNode_live href
    rw [hn]
    rfl

/-- A node three levels below the root, whose parent has a younger brother of its name. -/
theorem Reachable.getNode_identifies_branching :
    let s := (ofRoot "root").edits
      (branching ++ [.add (.numbered 2) { name := "b", parent := none }])
    s.Reachable ∧ s.pathTo 4 = "/root/a/b/c" ∧ (∃ node, s.liveNode? 4 = some node) ∧
    (∀ k ∈ s.lineage 4, ∀ x, s.node? k = some x → x.name.IsStep) ∧
    (∀ k ∈ s.lineage 4, k ≠ 1 → s.IsFirstNamed k) ∧
    s.getNode (.numbered 6) "/root/a/b/c" = some (.numbered 4) ∧
    (s.live? (.numbered 4)).isSome = true := by
  intro s
  have hreach : s.Reachable := (Reachable.start "root").edits _
  have hlineage : s.lineage 4 = [1, 2, 3, 4] := by decide +kernel
  have hpath : s.pathTo 4 = "/root/a/b/c" := by decide +kernel
  have hnode : ∃ node, s.liveNode? 4 = some node := Option.isSome_iff_exists.mp (by decide +kernel)
  have hsteps : ∀ k ∈ s.lineage 4, ∀ x, s.node? k = some x → x.name.IsStep := by
    rw [hlineage]
    show ∀ k ∈ [1, 2, 3, 4], ∀ x, x ∈ s.node? k → x.name.IsStep
    decide +kernel
  have hfirst : ∀ k ∈ s.lineage 4, k ≠ 1 → s.IsFirstNamed k := by
    rw [hlineage]
    intro k hk hne
    simp only [List.mem_cons, List.not_mem_nil, or_false] at hk
    obtain rfl | rfl | rfl | rfl := hk
    · exact absurd rfl hne
    · exact ⟨_, _, _, [], _, rfl, rfl, rfl, rfl, List.forall_mem_nil _⟩
    · exact ⟨_, _, _, [], _, rfl, rfl, rfl, rfl, List.forall_mem_nil _⟩
    · exact ⟨_, _, _, [], _, rfl, rfl, rfl, rfl, List.forall_mem_nil _⟩
  obtain ⟨node, hlive⟩ := hnode
  obtain ⟨hleads, hends⟩ := hreach.getNode_identifies
  have hget := hleads 4 node hlive hsteps hfirst (.numbered 6)
  rw [hpath] at hget
  exact ⟨hreach, hpath, ⟨node, hlive⟩, hsteps, hfirst, hget, hends _ _ _ hget⟩

end Scene

end SceneScript
