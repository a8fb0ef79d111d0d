import Mathlib.Data.List.Shortlex
import SceneScript.Proofs.Scene.Tree

/-!
# Searching below a node

A search keeps a queue of nodes that it has still to look at. It looks at the first one, and puts
the children of that one behind all others, so that it is done with one level of the tree before it
comes to the next. It ends because children are younger than their parents, and there are only so
many nodes. What it finds is said by the way from the node where it starts: at every node on the way
one of the children is taken, and the numbers of these children are an address. Of all nodes with
the name, the search finds the one with the shortest address, and among the shortest addresses the
one that is furthest to the left.

* **`Scene.at?`** — the node at an address; **`Scene.level`** — the nodes at a depth, from left to
  right.
* **`Scene.Searches`** — the search with a queue ends with an answer.
* **`Scene.IsTree.searches`** — it ends, with the answer that searching level by level gives.
* **`Scene.find?_level`** — the first node of a level with a property has the least address.
* **`Scene.Reachable.findChild_nearest`** — what is found below a node, in every scene.
-/

namespace SceneScript

namespace Scene

variable {s : Scene} {n k c : Nat} {node : SceneNode} {name : Text}

/-! ## The tree below a node -/

/-- The children of a node; a node that is not alive has none. -/
def childrenOf (s : Scene) (n : Nat) : List Nat := ((s.liveNode? n).map SceneNode.children).getD []

/-- The node is alive and has the name. -/
def isNamed (s : Scene) (name : Text) (n : Nat) : Bool :=
  (s.liveNode? n).any fun node => node.name == name

/-- The node at an address below a node: for every step the address has the place of the child to go
    to among the children, counted from the left. -/
def at? (s : Scene) : Nat → List Nat → Option Nat
  | n, []           => some n
  | n, i :: address => (s.childrenOf n)[i]?.bind fun c => s.at? c address

/-- The nodes at a depth below a node, from left to right. -/
def level (s : Scene) : Nat → Nat → List Nat
  | 0, n         => [n]
  | depth + 1, n => (s.childrenOf n).flatMap (s.level depth)

theorem childrenOf_of_live (h : s.liveNode? n = some node) : s.childrenOf n = node.children := by
  rw [childrenOf, h]
  rfl

theorem childrenOf_of_dead (h : s.liveNode? n = none) : s.childrenOf n = [] := by
  rw [childrenOf, h]
  rfl

theorem isNamed_iff :
    s.isNamed name n = true ↔ ∃ node, s.liveNode? n = some node ∧ node.name = name := by
  simp [isNamed, Option.any_eq_true]

theorem isNamed_le (h : s.isNamed name n = true) : n ≤ s.nodes.length := by
  obtain ⟨node, hn, -⟩ := isNamed_iff.mp h
  exact node?_le (liveNode?_eq_some_iff.mp hn).1

/-- Children are alive and younger than their parent. -/
theorem IsTree.lt_of_mem_childrenOf (ht : s.IsTree) (h : c ∈ s.childrenOf n) :
    n < c ∧ ∃ node, s.liveNode? c = some node := by
  cases hn : s.liveNode? n with
  | none =>
      rw [childrenOf_of_dead hn] at h
      cases h
  | some node =>
      rw [childrenOf_of_live hn] at h
      obtain ⟨child, hchild, hparent⟩ := ht.children n node hn c h
      exact ⟨(ht.parent_lt (liveNode?_eq_some_iff.mp hchild).1 hparent).2, child, hchild⟩

/-- The next level has the children of the nodes of the level before. -/
theorem level_succ (s : Scene) (depth n : Nat) :
    s.level (depth + 1) n = (s.level depth n).flatMap s.childrenOf := by
  induction depth generalizing n with
  | zero => simp [level]
  | succ depth ih =>
      show (s.childrenOf n).flatMap (s.level (depth + 1)) =
        ((s.childrenOf n).flatMap (s.level depth)).flatMap s.childrenOf
      rw [List.flatMap_assoc]
      exact congrArg (List.flatMap · _) (funext ih)

theorem IsTree.le_of_mem_level (ht : s.IsTree) (depth : Nat) :
    k ∈ s.level depth n → n + depth ≤ k := by
  induction depth generalizing k with
  | zero =>
      intro h
      rw [List.mem_singleton.mp h]
      exact Nat.le_refl _
  | succ depth ih =>
      intro h
      rw [level_succ] at h
      obtain ⟨p, hp, hk⟩ := List.mem_flatMap.mp h
      have hle := ih hp
      have hlt := (ht.lt_of_mem_childrenOf hk).1
      omega

/-! ## Addresses -/

theorem mem_level {depth : Nat} :
    k ∈ s.level depth n ↔ ∃ address, address.length = depth ∧ s.at? n address = some k := by
  induction depth generalizing n with
  | zero =>
      rw [level, List.mem_singleton]
      constructor
      · rintro rfl
        exact ⟨[], rfl, rfl⟩
      · rintro ⟨address, hlen, hat⟩
        cases List.length_eq_zero_iff.mp hlen
        cases hat
        rfl
  | succ depth ih =>
      rw [level, List.mem_flatMap]
      constructor
      · rintro ⟨c, hc, hk⟩
        obtain ⟨i, hi⟩ := List.mem_iff_getElem?.mp hc
        obtain ⟨address, hlen, hat⟩ := ih.mp hk
        refine ⟨i :: address, congrArg (· + 1) hlen, ?_⟩
        rw [at?, hi, Option.bind_some, hat]
      · rintro ⟨address, hlen, hat⟩
        cases address with
        | nil => cases hlen
        | cons i address =>
            obtain ⟨c, hi, hat⟩ := Option.bind_eq_some_iff.mp hat
            exact ⟨c, List.mem_of_getElem? hi, ih.mpr ⟨address, Nat.succ.inj hlen, hat⟩⟩

/-- The first node of a level with a property is the one with the least address. -/
theorem find?_level {p : Nat → Bool} {depth : Nat} (h : (s.level depth n).find? p = some k) :
    ∃ address, address.length = depth ∧ s.at? n address = some k ∧ p k = true ∧
      ∀ other j, other.length = depth → s.at? n other = some j → p j = true →
        other = address ∨ List.Lex (· < ·) address other := by
  induction depth generalizing n with
  | zero =>
      have hk : p k = true := List.find?_some h
      have hmem := List.mem_of_find?_eq_some h
      rw [level, List.mem_singleton] at hmem
      refine ⟨[], rfl, by rw [at?, hmem], hk, fun other j hlen _ _ => .inl ?_⟩
      exact List.length_eq_zero_iff.mp hlen
  | succ depth ih =>
      -- The node is below some child, and below no child to the left of that one is another.
      rw [level, List.find?_flatMap] at h
      obtain ⟨before, c, after, hchildren, hc, hbefore⟩ := List.findSome?_eq_some_iff.mp h
      obtain ⟨address, hlen, hat, hk, hleast⟩ := ih hc
      have hplace : (s.childrenOf n)[before.length]? = some c := by rw [hchildren]; simp
      refine ⟨before.length :: address, congrArg (· + 1) hlen, ?_, hk, ?_⟩
      · rw [at?, hplace, Option.bind_some, hat]
      · intro other j hlen' hat' hj
        cases other with
        | nil => cases hlen'
        | cons i other =>
            obtain ⟨d, hd, hat'⟩ := Option.bind_eq_some_iff.mp hat'
            rcases Nat.lt_trichotomy i before.length with hi | rfl | hi
            · have hmem : d ∈ before := by
                rw [hchildren, List.getElem?_append_left hi] at hd
                exact List.mem_of_getElem? hd
              have hnone := List.find?_eq_none.mp (hbefore d hmem) j
                (mem_level.mpr ⟨other, Nat.succ.inj hlen', hat'⟩)
              exact absurd hj hnone
            · cases hplace.symm.trans hd
              rcases hleast other j (Nat.succ.inj hlen') hat' hj with rfl | hlt
              · exact .inl rfl
              · exact .inr (.cons hlt)
            · exact .inr (.rel hi)

/-- What has an address is what is reached, and an address leads to younger nodes. -/
theorem IsTree.reaches_iff_at? (ht : s.IsTree) (hn : s.liveNode? n = some node) :
    s.Reaches n k ↔ ∃ address, s.at? n address = some k := by
  have hlevel : (∃ address, s.at? n address = some k) ↔ ∃ depth, k ∈ s.level depth n :=
    ⟨fun ⟨address, h⟩ => ⟨address.length, mem_level.mpr ⟨address, rfl, h⟩⟩,
      fun ⟨_, h⟩ => (mem_level.mp h).imp fun _ h => h.2⟩
  rw [hlevel]
  clear hlevel
  constructor
  · intro h
    induction h with
    | refl => exact ⟨0, List.mem_singleton_self n⟩
    | @child p c q hreach hq hc ih =>
        obtain ⟨depth, hp⟩ := ih
        obtain ⟨⟨x, hx⟩, -⟩ := (ht.reaches_iff hn).mp hreach
        cases hq.symm.trans (liveNode?_eq_some_iff.mp hx).1
        refine ⟨depth + 1, ?_⟩
        rw [level_succ, List.mem_flatMap]
        exact ⟨p, hp, by rwa [childrenOf_of_live hx]⟩
  · rintro ⟨depth, h⟩
    induction depth generalizing k with
    | zero =>
        rw [List.mem_singleton.mp h]
        exact .refl
    | succ depth ih =>
        rw [level_succ] at h
        obtain ⟨p, hp, hk⟩ := List.mem_flatMap.mp h
        cases hx : s.liveNode? p with
        | none =>
            rw [childrenOf_of_dead hx] at hk
            cases hk
        | some x =>
            rw [childrenOf_of_live hx] at hk
            exact .child (ih hp) (liveNode?_eq_some_iff.mp hx).1 hk

theorem IsTree.ne_of_at? (ht : s.IsTree) {address : List Nat} (hne : address ≠ [])
    (h : s.at? n address = some k) : k ≠ n := by
  have hle := ht.le_of_mem_level address.length (mem_level.mpr ⟨address, rfl, h⟩)
  have hpos := List.length_pos_iff.mpr hne
  omega

/-! ## The queue -/

/-- The search for a name with a queue of nodes ends with an answer. A node that is not alive is
    skipped; behind one with another name its children join the queue. -/
inductive Searches (s : Scene) (name : Text) : List Nat → Option Nat → Prop where
  | empty : Searches s name [] none
  | dead {n queue answer} : s.liveNode? n = none → Searches s name queue answer →
      Searches s name (n :: queue) answer
  | found {n node queue} : s.liveNode? n = some node → node.name = name →
      Searches s name (n :: queue) (some n)
  | other {n node queue answer} : s.liveNode? n = some node → node.name ≠ name →
      Searches s name (queue ++ node.children) answer → Searches s name (n :: queue) answer

variable {queue : List Nat} {answer : Option Nat}

theorem Searches.skip (hn : s.isNamed name n = false)
    (h : s.Searches name (queue ++ s.childrenOf n) answer) :
    s.Searches name (n :: queue) answer := by
  cases hlive : s.liveNode? n with
  | none =>
      rw [childrenOf_of_dead hlive, List.append_nil] at h
      exact .dead hlive h
  | some node =>
      rw [childrenOf_of_live hlive] at h
      refine .other hlive (fun hname => ?_) h
      rw [isNamed_iff.mpr ⟨node, hlive, hname⟩] at hn
      cases hn

/-- Nodes without the name make way for their children, which come behind the rest of the queue. -/
theorem Searches.skipAll {done : List Nat} (hdone : ∀ n ∈ done, s.isNamed name n = false) :
    ∀ {queue : List Nat}, s.Searches name (queue ++ done.flatMap s.childrenOf) answer →
      s.Searches name (done ++ queue) answer := by
  induction done with
  | nil =>
      intro queue h
      rwa [List.flatMap_nil, List.append_nil] at h
  | cons n done ih =>
      intro queue h
      have hrest : s.Searches name (done ++ (queue ++ s.childrenOf n)) answer := by
        refine ih (fun k hk => hdone k (List.mem_cons_of_mem n hk)) ?_
        rwa [List.append_assoc, ← List.flatMap_cons]
      rw [← List.append_assoc] at hrest
      exact .skip (hdone n List.mem_cons_self) hrest

/-- Nothing is found among nodes that there are not. -/
theorem searches_none (h : ∀ n ∈ queue, s.nodes.length < n) : s.Searches name queue none := by
  induction queue with
  | nil => exact .empty
  | cons n queue ih =>
      refine .dead ?_ (ih fun k hk => h k (List.mem_cons_of_mem n hk))
      cases hlive : s.liveNode? n with
      | none => rfl
      | some node =>
          have hle := node?_le (liveNode?_eq_some_iff.mp hlive).1
          have hlt := h n List.mem_cons_self
          omega

/-! ## Level by level -/

theorem findLevel_nil (s : Scene) (name : Text) (levels : Nat) :
    s.findLevel name levels [] = none := by
  cases levels <;> rfl

/-- The living ones among nodes, each number with its node. -/
def living (s : Scene) (ids : List Nat) : List (Nat × SceneNode) :=
  ids.filterMap fun n => (s.liveNode? n).map fun node => (n, node)

theorem find?_living (s : Scene) (name : Text) (ids : List Nat) :
    ((s.living ids).find? fun e => e.2.name == name).map Prod.fst =
      ids.find? (s.isNamed name) := by
  induction ids with
  | nil => rfl
  | cons n ids ih =>
      rw [living] at ih ⊢
      cases hn : s.liveNode? n with
      | none =>
          rw [List.filterMap_cons_none (by rw [hn]; rfl), ih]
          simp [hn, isNamed]
      | some node =>
          rw [List.filterMap_cons_some (by rw [hn]; rfl)]
          by_cases hname : node.name = name
          · simp [hn, isNamed, hname]
          · rw [List.find?_cons_of_neg (by simpa using hname), ih]
            simp [hn, isNamed, hname]

theorem flatMap_living (s : Scene) (ids : List Nat) :
    (s.living ids).flatMap (fun e => e.2.children) = ids.flatMap s.childrenOf := by
  induction ids with
  | nil => rfl
  | cons n ids ih =>
      rw [living] at ih ⊢
      cases hn : s.liveNode? n with
      | none =>
          rw [List.filterMap_cons_none (by rw [hn]; rfl), ih, List.flatMap_cons,
            childrenOf_of_dead hn, List.nil_append]
      | some node =>
          rw [List.filterMap_cons_some (by rw [hn]; rfl), List.flatMap_cons, ih, List.flatMap_cons,
            childrenOf_of_live hn]

/-- Either a node of the level has the name, or the search goes on with the children of all. -/
theorem findLevel_succ (s : Scene) (name : Text) (levels : Nat) (ids : List Nat) :
    s.findLevel name (levels + 1) ids =
      (ids.find? (s.isNamed name)).or (s.findLevel name levels (ids.flatMap s.childrenOf)) := by
  rw [← find?_living, ← flatMap_living, findLevel]
  cases hfind : (s.living ids).find? fun e => e.2.name == name with
  | some e =>
      rw [living] at hfind
      simp only [hfind, Option.some_or, Option.map_some]
  | none =>
      rw [living] at hfind
      simp only [hfind, Option.none_or, Option.map_none, living]
      cases ids.filterMap fun n => (s.liveNode? n).map fun node => (n, node) with
      | nil => exact (findLevel_nil s name levels).symm
      | cons e rest => rfl

/-- The search with a queue ends, with what is found level by level. With every level the nodes are
    younger, and there are no nodes after the last one. -/
theorem IsTree.searches (ht : s.IsTree) (name : Text) (levels : Nat) :
    ∀ ids : List Nat, (∀ n ∈ ids, s.nodes.length < n + levels) →
      s.Searches name ids (s.findLevel name levels ids) := by
  induction levels with
  | zero => exact fun ids h => searches_none h
  | succ levels ih =>
      intro ids h
      rw [findLevel_succ]
      cases hfind : ids.find? (s.isNamed name) with
      | some k =>
          obtain ⟨hk, before, after, rfl, hbefore⟩ := List.find?_eq_some_iff_append.mp hfind
          obtain ⟨node, hlive, hname⟩ := isNamed_iff.mp hk
          exact .skipAll (fun n hn => by simpa using hbefore n hn) (.found hlive hname)
      | none =>
          rw [Option.none_or]
          have hnone := List.find?_eq_none.mp hfind
          have hnext : s.Searches name (ids.flatMap s.childrenOf)
              (s.findLevel name levels (ids.flatMap s.childrenOf)) := by
            refine ih _ fun c hc => ?_
            obtain ⟨n, hn, hc⟩ := List.mem_flatMap.mp hc
            have hlt := (ht.lt_of_mem_childrenOf hc).1
            have hle := h n hn
            omega
          have hskip : s.Searches name (ids ++ []) _ :=
            .skipAll (fun n hn => by simpa using hnone n hn) hnext
          rwa [List.append_nil] at hskip

/-- The level on which a node is found is the first one with the name on it. -/
theorem findLevel_some (levels depth : Nat)
    (h : s.findLevel name levels (s.level depth n) = some k) :
    ∃ d, depth ≤ d ∧ (s.level d n).find? (s.isNamed name) = some k ∧
      ∀ d', depth ≤ d' → d' < d → ∀ j ∈ s.level d' n, s.isNamed name j = false := by
  induction levels generalizing depth with
  | zero => cases h
  | succ levels ih =>
      rw [findLevel_succ] at h
      cases hfind : (s.level depth n).find? (s.isNamed name) with
      | some k' =>
          rw [hfind] at h
          cases h
          exact ⟨depth, Nat.le_refl _, hfind, fun d' hle hlt => by omega⟩
      | none =>
          rw [hfind, Option.none_or, ← level_succ] at h
          obtain ⟨d, hle, hd, hbefore⟩ := ih (depth + 1) h
          refine ⟨d, by omega, hd, fun d' hle' hlt j hj => ?_⟩
          rcases Nat.eq_or_lt_of_le hle' with rfl | hlt'
          · simpa using List.find?_eq_none.mp hfind j hj
          · exact hbefore d' hlt' hlt j hj

/-- Where nothing is found, no level has the name on it. -/
theorem IsTree.findLevel_none (ht : s.IsTree) (levels depth : Nat)
    (hlevels : s.nodes.length < n + depth + levels)
    (h : s.findLevel name levels (s.level depth n) = none) :
    ∀ d, depth ≤ d → ∀ j ∈ s.level d n, s.isNamed name j = false := by
  induction levels generalizing depth with
  | zero =>
      intro d hd j hj
      refine Bool.eq_false_iff.mpr fun hnamed => ?_
      have hle := isNamed_le hnamed
      have hge := ht.le_of_mem_level d hj
      omega
  | succ levels ih =>
      rw [findLevel_succ, Option.or_eq_none_iff, ← level_succ] at h
      intro d hd j hj
      rcases Nat.eq_or_lt_of_le hd with rfl | hlt
      · simpa using List.find?_eq_none.mp h.1 j hj
      · exact ih (depth + 1) (by omega) h.2 d hlt j hj

/-! ## Every scene -/

theorem findChild_of_dead {start : NodeRef} (h : s.live? start = none) (name : Text) :
    s.findChild start name = none := by
  rw [findChild, h]
  rfl

/-- Below a living node the search begins on the level of its children. -/
theorem findChild_of_live {start : NodeRef} (h : s.live? start = some n)
    (hn : s.liveNode? n = some node) (name : Text) :
    s.findChild start name =
      (s.findLevel name s.nodes.length (s.level 1 n)).map fun k : Nat => .numbered k := by
  have hlevel : s.level 1 n = node.children := by simp [level, childrenOf_of_live hn]
  rw [findChild, h, hlevel]
  simp only [bind, Option.bind_some, (liveNode?_eq_some_iff.mp hn).1]
  cases s.findLevel name s.nodes.length node.children <;> rfl

theorem length_pos_of_at? {address : List Nat} (h : s.at? n address = some k) (hne : k ≠ n) :
    1 ≤ address.length := by
  refine List.length_pos_iff.mpr fun hempty => hne ?_
  rw [hempty] at h
  exact (Option.some.inj h).symm

/-- Nothing is found where no node below has the name. -/
theorem IsTree.findLevel_eq_none_iff (ht : s.IsTree) (hn : s.liveNode? n = some node) :
    s.findLevel name s.nodes.length (s.level 1 n) = none ↔
      ∀ k x, s.Reaches n k → k ≠ n → s.liveNode? k = some x → x.name ≠ name := by
  have hpos := node?_pos (liveNode?_eq_some_iff.mp hn).1
  constructor
  · intro hnone k x hreach hne hx hname
    obtain ⟨address, hat⟩ := (ht.reaches_iff_at? hn).mp hreach
    have hnot := ht.findLevel_none s.nodes.length 1 (by omega) hnone address.length
      (length_pos_of_at? hat hne) k (mem_level.mpr ⟨address, rfl, hat⟩)
    rw [isNamed_iff.mpr ⟨x, hx, hname⟩] at hnot
    cases hnot
  · intro hnot
    refine Option.eq_none_iff_forall_ne_some.mpr fun k hk => ?_
    obtain ⟨d, hd, hfind, -⟩ := findLevel_some s.nodes.length 1 hk
    obtain ⟨address, hlen, hat, hnamed, -⟩ := find?_level hfind
    obtain ⟨x, hx, hname⟩ := isNamed_iff.mp hnamed
    have hne := ht.ne_of_at? (List.length_pos_iff.mp (by omega)) hat
    exact hnot k x ((ht.reaches_iff_at? hn).mpr ⟨address, hat⟩) hne hx hname

/-- What is found has the name, and the least address of all that have it. -/
theorem IsTree.findLevel_eq_some (ht : s.IsTree) (hn : s.liveNode? n = some node) {levels : Nat}
    (h : s.findLevel name levels (s.level 1 n) = some k) :
    ∃ x address, s.Reaches n k ∧ k ≠ n ∧ s.liveNode? k = some x ∧ x.name = name ∧
      s.at? n address = some k ∧
      ∀ other j y, s.at? n other = some j → j ≠ n → s.liveNode? j = some y → y.name = name →
        other = address ∨ List.Shortlex (· < ·) address other := by
  obtain ⟨d, hd, hfind, hbefore⟩ := findLevel_some levels 1 h
  obtain ⟨address, hlen, hat, hnamed, hleast⟩ := find?_level hfind
  obtain ⟨x, hx, hname⟩ := isNamed_iff.mp hnamed
  have hne := ht.ne_of_at? (List.length_pos_iff.mp (by omega)) hat
  refine ⟨x, address, (ht.reaches_iff_at? hn).mpr ⟨address, hat⟩, hne, hx, hname, hat,
    fun other j y hat' hne' hy hname' => ?_⟩
  have hj : s.isNamed name j = true := isNamed_iff.mpr ⟨y, hy, hname'⟩
  -- An address as short as this one is on the same level, and none is shorter.
  rcases Nat.lt_trichotomy other.length d with hlt | heq | hlt
  · have hnot := hbefore _ (length_pos_of_at? hat' hne') hlt j (mem_level.mpr ⟨other, rfl, hat'⟩)
    rw [hj] at hnot
    cases hnot
  · rcases hleast other j heq hat' hj with hsame | hlex
    · exact .inl hsame
    · exact .inr (.of_lex (by omega) hlex)
  · exact .inr (.of_length_lt (by omega))

/-- In every scene that a program comes to, the search below a living node ends, and with it the
    answer is known. There is none if and only if the start is not alive or no living node below it
    has the name. Otherwise it is such a node, and its address below the start is the least one:
    every other such node lies deeper, or as deep and further to the right. -/
theorem Reachable.findChild_nearest (h : s.Reachable) (start : NodeRef) (name : Text) :
    (∀ n node, s.live? start = some n → s.liveNode? n = some node →
      ∃ answer, s.Searches name node.children answer ∧
        s.findChild start name = answer.map fun k : Nat => .numbered k) ∧
    (s.findChild start name = none ↔ ∀ n, s.live? start = some n →
      ∀ k x, s.Reaches n k → k ≠ n → s.liveNode? k = some x → x.name ≠ name) ∧
    ∀ ref, s.findChild start name = some ref →
      ∃ (n k : Nat) (x : SceneNode) (address : List Nat), s.live? start = some n ∧
        ref = .numbered k ∧ s.Reaches n k ∧ k ≠ n ∧ s.liveNode? k = some x ∧ x.name = name ∧
        s.at? n address = some k ∧
        ∀ other j y, s.at? n other = some j → j ≠ n → s.liveNode? j = some y → y.name = name →
          other = address ∨ List.Shortlex (· < ·) address other := by
  have ht := h.isTree
  cases hstart : s.live? start with
  | none =>
      have hnone := findChild_of_dead hstart name
      refine ⟨fun _ _ => nofun, ⟨fun _ _ => nofun, fun _ => hnone⟩, fun ref href => ?_⟩
      rw [hnone] at href
      cases href
  | some n =>
      obtain ⟨-, top, htop⟩ := live?_eq_some_iff.mp hstart
      rw [findChild_of_live hstart htop name]
      refine ⟨fun n' node hn' hnode => ?_, ?_, fun ref href => ?_⟩
      · cases hn'
        cases htop.symm.trans hnode
        have hchildren : s.level 1 n = top.children := by simp [level, childrenOf_of_live htop]
        rw [hchildren]
        refine ⟨_, ht.searches name s.nodes.length top.children fun c hc => ?_, rfl⟩
        have hlt := (ht.lt_of_mem_childrenOf (childrenOf_of_live htop ▸ hc)).1
        omega
      · rw [Option.map_eq_none_iff, ht.findLevel_eq_none_iff htop]
        exact ⟨fun hnot n' hn' => Option.some.inj hn' ▸ hnot, fun hnot => hnot n rfl⟩
      · obtain ⟨k, hk, rfl⟩ := Option.map_eq_some_iff.mp href
        obtain ⟨x, address, hnearest⟩ := ht.findLevel_eq_some htop hk
        exact ⟨n, k, x, address, rfl, rfl, hnearest⟩

/-- Three nodes of one name: one lies deep on the left, two lie below another node on the right. -/
def namesakes : List SceneEdit :=
  [.add root { name := "left", parent := none },
   .add (.numbered 2) { name := "down", parent := none },
   .add (.numbered 3) { name := "hit", parent := none },
   .add root { name := "right", parent := none },
   .add (.numbered 5) { name := "hit", parent := none },
   .add (.numbered 5) { name := "hit", parent := none }]

/-- The nearest of them is found, and of the two that are as near the left one. -/
theorem Reachable.findChild_nearest_namesakes :
    let s := (ofRoot "root").edits namesakes
    s.Reachable ∧ s.findChild root "hit" = some (.numbered 6) ∧
    (∃ answer, s.Searches "hit" [2, 5] answer ∧
      s.findChild root "hit" = answer.map fun k : Nat => .numbered k) ∧
    ∃ address, s.at? 1 address = some 6 ∧
      ∀ other j y, s.at? 1 other = some j → j ≠ 1 → s.liveNode? j = some y → y.name = "hit" →
        other = address ∨ List.Shortlex (· < ·) address other := by
  intro s
  have hs : s.Reachable := (Reachable.start "root").edits namesakes
  obtain ⟨hends, -, hfound⟩ := hs.findChild_nearest root "hit"
  have hsix : s.findChild root "hit" = some (.numbered 6) := by decide +kernel
  have htop : s.liveNode? 1 = some { name := "root", parent := none, children := [2, 5] } := by
    decide +kernel
  obtain ⟨n, k, x, address, hn, hk, -, -, -, -, hat, hleast⟩ := hfound _ hsix
  obtain rfl : n = 1 := Option.some.inj (hn.symm.trans (by decide +kernel))
  obtain rfl : k = 6 := by
    have := NodeRef.numbered.inj hk
    omega
  exact ⟨hs, hsix, hends 1 _ hn htop, address, hat, hleast⟩

end Scene

end SceneScript
