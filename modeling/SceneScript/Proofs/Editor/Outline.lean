import SceneScript.Editor.Outline
import SceneScript.Proofs.Syntax.Ranges
import SceneScript.Proofs.Token.Tiling

/-!
# The places of a program and of its outline

The tokens of a script lie one behind the other, because the segments it is cut into do. So the
tree of every program that is read is nested, whatever was wrong with the script, and with it the
outline, which is a part of the tree.

* **`parseTokens_tree_nested`**, **`parseSource_tree_nested`** — the tree of a program is nested.
* **`Program.outline_eq`** — an outline is in source order without being sorted.
* **`parseSource_nested`** — how the places of a program and of its outline lie.
-/

namespace SceneScript

/-! ## Tokens -/

/-- The tokens among segments without gaps lie one behind the other. -/
theorem Tiles.inOrder {n m : Nat} {segments : List Segment} (h : Tiles n segments m) :
    InOrder n ((segments.filterMap Segment.token?).map Token.span) m := by
  induction h with
  | nil n => exact .nil (Nat.le_refl n)
  | cons s rest hstart hstop _ ih =>
      cases s with
      | token t =>
          have hread : Segment.token? (.token t) = some t := rfl
          rw [List.filterMap_cons_some hread, List.map_cons]
          exact .cons (Nat.le_of_eq hstart.symm) (Nat.le_of_lt (hstart ▸ hstop)) ih
      | trivia span =>
          rw [List.filterMap_cons_none rfl]
          exact ih.lower (Nat.le_of_lt hstop)
      | error e =>
          rw [List.filterMap_cons_none rfl]
          exact ih.lower (Nat.le_of_lt hstop)

theorem tokenize_inOrder (source : Text) :
    InOrder 0 ((tokenize source false).tokens.map Token.span)
      (tokenize source false).finish.offset := by
  obtain ⟨segments, h⟩ := lexFrom_tiled source source.units [] rfl
  have htokens : (tokenize source false).tokens = segments.filterMap Segment.token? := h.tokens
  have hfinish : (tokenize source false).finish.offset = source.length :=
    congrArg Position.offset h.finish
  rw [htokens, hfinish]
  exact h.tiles.inOrder

/-! ## Programs -/

/-- Tokens that lie one behind the other are read as a nested tree. -/
theorem parseTokens_tree_nested {tokens : List Token} {finish : Position}
    (h : InOrder 0 (tokens.map Token.span) finish.offset) :
    (parseTokens tokens finish).program.tree.Nested := by
  obtain ⟨body, d, hrun, hext, -⟩ := declarations_ok tokens finish
  have hlays := Reader.lays_declarations (parserFuel tokens.length) ⟨tokens, .origin, finish, []⟩ h
  obtain ⟨honward, hlaid⟩ := (ends_of_ok hrun).mp hlays
  have hstop : d.reach ≤ finish.offset := by
    have hfinish : d.finish = finish := hext.finish
    rw [← hfinish]
    exact honward.ordered.reach_le_finish
  have hbody := hlaid.upper hstop
  simp only [parseTokens, hrun]
  exact .node hbody.spans hbody.nested

theorem parseSource_tree_nested (source : Text) : (parseSource source).program.tree.Nested := by
  rw [parseSource]
  split
  · exact parseTokens_tree_nested (tokenize_inOrder source)
  · exact .node (.nil (Nat.le_refl _)) fun t ht => absurd ht List.not_mem_nil

/-! ## Outlines -/

/-- The name of an entry and the lines below it lie inside, and the lines one behind the other. -/
structure OutlineEntry.Nested (e : OutlineEntry) : Prop where
  name  : e.line.nameSpan.Within e.line.span
  lines : ∀ lines, e.children = some lines →
    (∀ l ∈ lines, l.span.Within e.line.span ∧ l.nameSpan.Within l.span) ∧
      lines.Pairwise fun a b => a.span.Before b.span

namespace Declaration

variable {β : Type}

theorem span_outline (d : Declaration β) : d.outline.line.span = d.tree.span := by
  cases d <;> rfl

theorem nested_outline {d : Declaration β} (h : d.tree.Nested) : d.outline.Nested := by
  cases d with
  | global g =>
      have hname : g.name.tree ∈ (global g : Declaration β).tree.children := by
        simp [tree, Tree.children]
      refine ⟨(h.child hname).2, ?_⟩
      rintro _ ⟨⟩
  | signal s =>
      have hname : s.name.tree ∈ (signal s : Declaration β).tree.children := List.mem_cons_self
      refine ⟨(h.child hname).2, ?_⟩
      rintro _ ⟨⟩
  | function f =>
      have hname : f.name.tree ∈ (function f).tree.children := List.mem_cons_self
      have hparams : (f.params.map Param.tree).Sublist (function f).tree.children := by
        simp [tree, Tree.children]
      refine ⟨(h.child hname).2, ?_⟩
      rintro _ ⟨⟩
      constructor
      · intro l hl
        obtain ⟨p, hp, rfl⟩ := List.mem_map.mp hl
        obtain ⟨hnested, hwithin⟩ := h.child (hparams.subset (List.mem_map_of_mem hp))
        exact ⟨hwithin, (hnested.child (c := p.name.tree) List.mem_cons_self).2⟩
      · have hbefore := (List.pairwise_map.mp h.children.pairwise).sublist hparams
        exact List.pairwise_map.mpr (List.pairwise_map.mp hbefore :)

end Declaration

namespace Program

variable {β : Type} {p : Program β}

/-- The entries of a nested program lie one behind the other before they are sorted. -/
theorem pairwise_outline (h : p.tree.Nested) :
    (p.body.map Declaration.outline).Pairwise fun a b => a.line.span.Before b.line.span := by
  have hbody := List.pairwise_map.mp h.children.pairwise
  refine List.pairwise_map.mpr ((List.pairwise_map.mp hbody).imp fun {a b} hab => ?_)
  rw [Declaration.span_outline, Declaration.span_outline]
  exact hab

/-- Sorting the entries of a nested program changes nothing. -/
theorem outline_eq (h : p.tree.Nested) : p.outline = p.body.map Declaration.outline := by
  refine List.mergeSort_of_pairwise ((pairwise_outline h).imp_of_mem fun {a b} ha _ hab => ?_)
  obtain ⟨d, hd, rfl⟩ := List.mem_map.mp ha
  have hspan := (h.child (List.mem_map_of_mem hd)).1.children.le
  rw [← Declaration.span_outline] at hspan
  exact decide_eq_true (Nat.le_trans hspan hab)

end Program

/-- The places of a program nest, for every script, with or without errors of syntax. At every
    node of its tree the place is not turned around, and the children lie inside and one behind
    the other; a walk enters the nodes in the order of their starts. The outline has the
    declarations in source order, one behind the other, each with its name and the lines below it
    inside. -/
theorem parseSource_nested (source : Text) :
    (∀ n ∈ (parseSource source).program.tree.preorder,
      n.span.start.offset ≤ n.span.stop.offset ∧
      (∀ child ∈ n.children, child.span.Within n.span) ∧
      n.children.Pairwise fun a b => a.span.Before b.span) ∧
    (((parseSource source).program.tree.events none).filterMap WalkEvent.entered? =
      (parseSource source).program.tree.preorder.map Tree.kind ∧
    (parseSource source).program.tree.preorder.Pairwise fun m n =>
      m.span.start.offset ≤ n.span.start.offset) ∧
    (parseSource source).program.outline =
      (parseSource source).program.body.map Declaration.outline ∧
    (∀ e ∈ (parseSource source).program.outline, e.Nested) ∧
    (parseSource source).program.outline.Pairwise fun a b => a.line.span.Before b.line.span := by
  have h := parseSource_tree_nested source
  refine ⟨fun n hn => ?_, ⟨Tree.events_entered none _, h.pairwise_preorder⟩,
    Program.outline_eq h, ?_⟩
  · obtain ⟨hn, -⟩ := h.mem_preorder n hn
    exact ⟨hn.children.le, fun child hchild => (hn.child hchild).2,
      List.pairwise_map.mp hn.children.pairwise⟩
  · rw [Program.outline_eq h]
    refine ⟨fun e he => ?_, Program.pairwise_outline h⟩
    obtain ⟨d, hd, rfl⟩ := List.mem_map.mp he
    exact Declaration.nested_outline (h.child (List.mem_map_of_mem hd)).1

end SceneScript
