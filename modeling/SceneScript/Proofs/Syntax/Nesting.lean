import Mathlib.Data.List.Basic
import SceneScript.Ast.Walk

/-!
# Trees whose places nest

A node of a program tree covers a stretch of the script, and its children cover stretches of that,
one behind the other. Of the three components of a position only the offset matters here.

* **`Span.Within`**, **`Span.Before`** — how two spans can lie to one another.
* **`InOrder lo spans hi`** — spans that follow one another between two offsets.
* **`Tree.Nested`** — at every node of the tree, the spans of the children follow one another
  inside the span of the node.
* **`Laid lo trees hi`** — nested trees that follow one another between two offsets.
* **`Tree.preorder`** — the nodes in the order in which a walk enters them, which is the order of
  their starts when the tree is nested (`Tree.Nested.pairwise_preorder`).
-/

namespace SceneScript

/-! ## Spans in order -/

/-- The first span lies inside the second. -/
def Span.Within (s t : Span) : Prop :=
  t.start.offset ≤ s.start.offset ∧ s.stop.offset ≤ t.stop.offset

/-- The first span ends where the second begins, or earlier. -/
def Span.Before (s t : Span) : Prop := s.stop.offset ≤ t.start.offset

/-- The spans lie one behind the other between two offsets, and none is turned around. -/
inductive InOrder : Nat → List Span → Nat → Prop where
  | nil {lo hi : Nat} : lo ≤ hi → InOrder lo [] hi
  | cons {lo hi : Nat} {s : Span} {rest : List Span} :
      lo ≤ s.start.offset → s.start.offset ≤ s.stop.offset → InOrder s.stop.offset rest hi →
      InOrder lo (s :: rest) hi

namespace InOrder

variable {lo lo' hi hi' m : Nat} {a b : List Span}

theorem le (h : InOrder lo a hi) : lo ≤ hi := by
  induction h with
  | nil h => exact h
  | cons hlo hs _ ih => exact Nat.le_trans (Nat.le_trans hlo hs) ih

theorem lower (h : InOrder lo a hi) (hle : lo' ≤ lo) : InOrder lo' a hi := by
  cases h with
  | nil h => exact .nil (Nat.le_trans hle h)
  | cons hlo hs hrest => exact .cons (Nat.le_trans hle hlo) hs hrest

theorem append (ha : InOrder lo a m) (hb : InOrder m b hi) : InOrder lo (a ++ b) hi := by
  induction ha with
  | nil h => exact hb.lower h
  | cons hlo hs _ ih => exact .cons hlo hs (ih hb)

theorem upper (h : InOrder lo a hi) (hle : hi ≤ hi') : InOrder lo a hi' := by
  have hall := h.append (.nil hle)
  rwa [List.append_nil] at hall

theorem mem (h : InOrder lo a hi) : ∀ s ∈ a,
    lo ≤ s.start.offset ∧ s.start.offset ≤ s.stop.offset ∧ s.stop.offset ≤ hi := by
  induction h with
  | nil h => exact fun s hs => absurd hs List.not_mem_nil
  | cons hlo hs hrest ih =>
      intro s hmem
      rcases List.mem_cons.mp hmem with rfl | hmem
      · exact ⟨hlo, hs, hrest.le⟩
      · obtain ⟨hstart, hspan, hstop⟩ := ih s hmem
        exact ⟨by omega, hspan, hstop⟩

theorem pairwise (h : InOrder lo a hi) :
    a.Pairwise Span.Before := by
  induction h with
  | nil h => exact .nil
  | cons hlo hs hrest ih =>
      exact List.pairwise_cons.mpr ⟨fun t ht => (hrest.mem t ht).1, ih⟩

end InOrder

/-! ## Nested trees -/

/-- At every node the children lie one behind the other inside the node. -/
inductive Tree.Nested : Tree → Prop where
  | node {k : NodeKind} {s : Span} {children : List Tree} :
      InOrder s.start.offset (children.map Tree.span) s.stop.offset →
      (∀ t ∈ children, t.Nested) → Nested (.node k s children)

/-- Nested trees that lie one behind the other between two offsets. -/
structure Laid (lo : Nat) (trees : List Tree) (hi : Nat) : Prop where
  spans  : InOrder lo (trees.map Tree.span) hi
  nested : ∀ t ∈ trees, t.Nested

namespace Laid

variable {lo lo' hi hi' m n : Nat} {a b : Tree} {ts us : List Tree} {k : NodeKind} {s : Span}

theorem nil (h : lo ≤ hi) : Laid lo [] hi := ⟨.nil h, fun _ ht => absurd ht List.not_mem_nil⟩

theorem le (h : Laid lo ts hi) : lo ≤ hi := h.spans.le

theorem lower (h : Laid lo ts hi) (hle : lo' ≤ lo) : Laid lo' ts hi :=
  ⟨h.spans.lower hle, h.nested⟩

theorem upper (h : Laid lo ts hi) (hle : hi ≤ hi') : Laid lo ts hi' :=
  ⟨h.spans.upper hle, h.nested⟩

/-- Trees behind other trees, perhaps with a gap between them. -/
theorem append (ha : Laid lo ts m) (hle : m ≤ n) (hb : Laid n us hi) : Laid lo (ts ++ us) hi := by
  refine ⟨?_, List.forall_mem_append.mpr ⟨ha.nested, hb.nested⟩⟩
  rw [List.map_append]
  exact ha.spans.append (hb.spans.lower hle)

/-- Trees under a new node. -/
theorem node (h : Laid s.start.offset ts s.stop.offset) (hlo : lo ≤ s.start.offset)
    (hhi : s.stop.offset ≤ hi) : Laid lo [.node k s ts] hi := by
  refine ⟨.cons hlo h.le (.nil hhi), ?_⟩
  intro t ht
  rw [List.mem_singleton.mp ht]
  exact .node h.spans h.nested

theorem leaf (hlo : lo ≤ s.start.offset) (hspan : s.start.offset ≤ s.stop.offset)
    (hhi : s.stop.offset ≤ hi) : Laid lo [.node k s []] hi := (nil hspan).node hlo hhi

/-- The place of the only tree. -/
theorem place (h : Laid lo [a] hi) : lo ≤ a.span.start.offset ∧ a.span.stop.offset ≤ hi := by
  obtain ⟨hlo, -, hhi⟩ := h.spans.mem a.span (List.mem_singleton.mpr rfl)
  exact ⟨hlo, hhi⟩

/-- The trees under the only tree. -/
theorem children (h : Laid lo [.node k s ts] hi) : Laid s.start.offset ts s.stop.offset := by
  cases h.nested _ (List.mem_singleton.mpr rfl) with
  | node hspans hnested => exact ⟨hspans, hnested⟩

/-- The only tree reaches from its own start to its own end. -/
theorem tight (h : Laid lo [a] hi) : Laid a.span.start.offset [a] a.span.stop.offset := by
  obtain ⟨-, hspan, -⟩ := h.spans.mem a.span (List.mem_singleton.mpr rfl)
  exact ⟨.cons (Nat.le_refl _) hspan (.nil (Nat.le_refl _)), h.nested⟩

/-- The only tree begins where it begins. -/
theorem begin (h : Laid lo [a] hi) : Laid a.span.start.offset [a] hi := h.tight.upper h.place.2

/-- The first tree, and those behind it. -/
theorem uncons (h : Laid lo (a :: ts) hi) :
    Laid lo [a] a.span.stop.offset ∧ Laid a.span.stop.offset ts hi := by
  obtain ⟨hself, hrest⟩ := List.forall_mem_cons.mp h.nested
  cases h.spans with
  | cons hlo hspan hspans =>
      refine ⟨⟨.cons hlo hspan (.nil (Nat.le_refl _)), ?_⟩, hspans, hrest⟩
      intro t ht
      rw [List.mem_singleton.mp ht]
      exact hself

/-- Two trees under a new node that reaches from the one to the other. -/
theorem pair (ha : Laid lo [a] m) (hle : m ≤ n) (hb : Laid n [b] hi) :
    Laid lo [.node k (a.span.through b.span) [a, b]] hi := by
  have hgap : a.span.stop.offset ≤ b.span.start.offset := by
    have := ha.place
    have := hb.place
    omega
  exact (ha.tight.append hgap hb.tight).node ha.place.1 hb.place.2

/-- Trees under a new node that ends with the last of them. -/
theorem ending {p : Position} (hts : Laid p.offset ts m) (hle : m ≤ n) (ha : Laid n [a] hi)
    (hlo : lo ≤ p.offset) : Laid lo [.node k ⟨p, a.span.stop⟩ (ts ++ [a])] hi := by
  obtain ⟨hstart, hstop⟩ := ha.place
  exact node (hts.append (Nat.le_trans hle hstart) ha.tight) hlo hstop

end Laid

/-! ## Walking -/

mutual

/-- The nodes of a tree in the order in which a walk enters them. -/
def Tree.preorder : Tree → List Tree
  | .node k s children => .node k s children :: treesPreorder children

/-- The nodes of several trees in the order in which a walk enters them. -/
def treesPreorder : List Tree → List Tree
  | []      => []
  | t :: ts => t.preorder ++ treesPreorder ts

end

/-- The kind of the node that is entered. -/
def WalkEvent.entered? : WalkEvent → Option NodeKind
  | .enter k _ => some k
  | .leave _   => none

mutual

/-- A walk enters the nodes in preorder. -/
theorem Tree.events_entered (parent : Option NodeKind) : ∀ t : Tree,
    (t.events parent).filterMap WalkEvent.entered? = t.preorder.map Tree.kind
  | .node k s children => by
      have henter : WalkEvent.entered? (.enter k parent) = some k := rfl
      rw [Tree.events, Tree.preorder, List.filterMap_cons_some henter, List.filterMap_append,
        treeEvents_entered k children, List.map_cons]
      simp [WalkEvent.entered?, Tree.kind]

theorem treeEvents_entered (parent : NodeKind) : ∀ ts : List Tree,
    (treeEvents parent ts).filterMap WalkEvent.entered? = (treesPreorder ts).map Tree.kind
  | []      => rfl
  | t :: ts => by
      rw [treeEvents, treesPreorder, List.filterMap_append, List.map_append,
        t.events_entered (some parent), treeEvents_entered parent ts]

end

theorem treesPreorder_eq (ts : List Tree) : treesPreorder ts = ts.flatMap Tree.preorder := by
  induction ts with
  | nil => rfl
  | cons t ts ih => rw [treesPreorder, ih, List.flatMap_cons]

theorem Tree.preorder_node (k : NodeKind) (s : Span) (children : List Tree) :
    (node k s children).preorder = node k s children :: children.flatMap preorder := by
  rw [preorder, treesPreorder_eq]

namespace Tree.Nested

variable {t : Tree}

theorem children (h : t.Nested) :
    InOrder t.span.start.offset (t.children.map Tree.span) t.span.stop.offset := by
  cases h with
  | node hspans _ => exact hspans

/-- A child lies inside, and is nested itself. -/
theorem child (h : t.Nested) {c : Tree} (hc : c ∈ t.children) :
    c.Nested ∧ c.span.Within t.span := by
  cases h with
  | node hspans hnested =>
      obtain ⟨hlo, -, hhi⟩ := hspans.mem c.span (List.mem_map_of_mem hc)
      exact ⟨hnested c hc, hlo, hhi⟩

/-- Every node below lies inside, and is nested itself. -/
theorem mem_preorder (h : t.Nested) : ∀ n ∈ t.preorder, n.Nested ∧ n.span.Within t.span := by
  induction h with
  | @node k s children hspans hnested ih =>
      intro n hn
      rw [preorder_node] at hn
      rcases List.mem_cons.mp hn with rfl | hn
      · exact ⟨.node hspans hnested, Nat.le_refl _, Nat.le_refl _⟩
      · obtain ⟨child, hchild, hn⟩ := List.mem_flatMap.mp hn
        obtain ⟨hlo, -, hhi⟩ := hspans.mem child.span (List.mem_map_of_mem hchild)
        obtain ⟨hself, hstart, hstop⟩ := ih child hchild n hn
        exact ⟨hself, Nat.le_trans hlo hstart, Nat.le_trans hstop hhi⟩

/-- A walk enters the nodes in the order of their starts. -/
theorem pairwise_preorder (h : t.Nested) :
    t.preorder.Pairwise fun m n => m.span.start.offset ≤ n.span.start.offset := by
  induction h with
  | @node k s children hspans hnested ih =>
      have hall := mem_preorder (.node (k := k) hspans hnested)
      rw [preorder_node] at hall ⊢
      refine List.pairwise_cons.mpr ⟨fun n hn => (hall n (List.mem_cons_of_mem _ hn)).2.1, ?_⟩
      refine List.pairwise_flatMap.mpr ⟨ih, ?_⟩
      -- What is entered later lies under a later child, behind the whole of the earlier one.
      refine (List.pairwise_map.mp hspans.pairwise).imp_of_mem fun {a b} ha hb hab m hm n hn => ?_
      obtain ⟨hm', -, hstop⟩ := (hnested a ha).mem_preorder m hm
      obtain ⟨-, hstart, -⟩ := (hnested b hb).mem_preorder n hn
      calc m.span.start.offset
          ≤ m.span.stop.offset := hm'.children.le
        _ ≤ a.span.stop.offset := hstop
        _ ≤ b.span.start.offset := hab
        _ ≤ n.span.start.offset := hstart

end Tree.Nested

end SceneScript
