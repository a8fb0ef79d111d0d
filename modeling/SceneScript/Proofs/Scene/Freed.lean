import SceneScript.Proofs.Scene.Paths
import SceneScript.Proofs.Scene.Searching

/-!
# Looking around from a node that is gone

A handle outlives its node: the node was freed, or there never was one. Such a handle has no parent,
and no search from it finds anything. With paths it is another matter. A path without a slash in
front starts at the node of the handle, and where that is not alive it starts at the root, as if it
had the slash.

* **`Scene.steps_slash`** — a slash in front of a path is no step.
* **`Scene.fromRoot_eq_none_iff`** — when a walk from the root leads nowhere.
* **`Scene.lookups_of_dead`** — what a handle without a living node resolves;
  **`Scene.getNode_of_freed`** — a handle of a freed node that leads somewhere.
-/

namespace SceneScript

namespace Scene

variable {s : Scene} {ref : NodeRef}

theorem steps_slash (path : Text) : steps (Text.ofString "/" ++ path) = steps path := by
  have hfront : Text.ofString "/" ++ path = Text.empty ++ "/" ++ path := rfl
  rw [hfront, steps_append]
  rfl

/-- A walk from the root leads nowhere if the root is not alive, if the first step is not its name,
    or if the other steps lead nowhere from it. -/
theorem fromRoot_eq_none_iff {parts : List Text} :
    s.fromRoot parts = none ↔
      ∀ top rest, s.liveNode? 1 = some top → parts = top.name :: rest → s.follow 1 rest = none := by
  cases parts with
  | nil =>
      refine ⟨fun _ top rest _ hparts => ?_, fun _ => rfl⟩
      cases hparts
  | cons first parts =>
      rw [fromRoot]
      cases s.liveNode? 1 with
      | none =>
          refine ⟨fun _ top rest htop _ => ?_, fun _ => rfl⟩
          cases htop
      | some top =>
          rw [Option.bind_some]
          constructor
          · intro h top' rest htop hparts
            cases htop
            cases hparts
            rwa [if_pos rfl] at h
          · intro h
            split
            · next hname => exact h top parts rfl (by rw [hname])
            · rfl

theorem getParent_of_dead (h : s.live? ref = none) : s.getParent ref = none := by
  rw [getParent, h]
  rfl

/-- A handle without a living node has no parent, and nothing is found below it. Any path from it is
    looked up as if it had a slash in front, so it leads nowhere exactly if the root is not alive,
    the first step is not the name of the root, or the other steps lead nowhere from there. -/
theorem lookups_of_dead (s : Scene) (ref : NodeRef) (hdead : s.live? ref = none) :
    s.getParent ref = none ∧ (∀ name, s.findChild ref name = none) ∧
    ∀ path : Text, s.getNode ref path = s.getNode root (Text.ofString "/" ++ path) ∧
      (s.getNode ref path = none ↔ ∀ top rest, s.liveNode? 1 = some top →
        steps path = top.name :: rest → s.follow 1 rest = none) := by
  refine ⟨getParent_of_dead hdead, findChild_of_dead hdead, fun path => ⟨?_, ?_⟩⟩
  · have hslash : (Text.ofString "/" ++ path).startsWith "/" = true := rfl
    rw [getNode_absolute (.inr hdead), getNode_absolute (.inl hslash), steps_slash]
  · rw [getNode_absolute (.inr hdead), Option.map_eq_none_iff, fromRoot_eq_none_iff]

/-- A tree of which the node with number three and the one below it were freed. -/
def pruned : Scene := (ofRoot "root").edits (branching ++ [.free (.numbered 3)])

/-- From the node that was freed its living brother is not found by its name. -/
theorem lookups_of_dead_brother :
    pruned.Reachable ∧ pruned.live? (.numbered 3) = none ∧
    pruned.getParent (.numbered 3) = none ∧ pruned.findChild (.numbered 3) "c" = none ∧
    pruned.getNode (.numbered 3) "d" = none := by
  have hdead : pruned.live? (.numbered 3) = none := by decide +kernel
  obtain ⟨hparent, hchild, hpath⟩ := lookups_of_dead pruned (.numbered 3) hdead
  refine ⟨(Reachable.start "root").edits _, hdead, hparent, hchild "c",
    (hpath "d").2.mpr fun top rest htop hsteps => ?_⟩
  have hname : pruned.liveNode? 1 = some { name := "root", parent := none, children := [2] } := by
    decide +kernel
  cases htop.symm.trans hname
  have hfirst : steps "d" = [Text.ofString "d"] := rfl
  rw [hfirst] at hsteps
  cases hsteps

/-- A path without a slash leads from a freed node to a living one, by way of the root. -/
theorem getNode_of_freed :
    pruned.Reachable ∧ pruned.live? (.numbered 3) = none ∧
    (Text.ofString "root/a").startsWith "/" = false ∧
    pruned.getNode (.numbered 3) "root/a" = some (.numbered 2) :=
  ⟨(Reachable.start "root").edits _, by decide +kernel, rfl, by decide +kernel⟩

end Scene

end SceneScript
