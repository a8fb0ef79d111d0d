import SceneScript.Proofs.Syntax.Nesting
import SceneScript.Typing

/-!
# Checking keeps the shape of a script

Checking writes types into the variable declarations of a body and leaves everything else as it
is, so the tree of a function is the same before and after, whatever was found.

* **`Tree.Avoids`** — no node of a tree is of a given kind.
* **`checkStmt_tree`**, **`checkBody_tree`** — a checked statement and a checked function have the
  tree of the unchecked one.
* **`checkProgram_function`** — every function that can be called is one of the script.
-/

namespace SceneScript

/-! ## Trees without a kind of node -/

/-- No node of the tree is of the kind. -/
def Tree.Avoids (k : NodeKind) (t : Tree) : Prop := ∀ n ∈ t.preorder, n.kind ≠ k

theorem Tree.Avoids.kind {k k' : NodeKind} {s : Span} {children : List Tree}
    (h : (Tree.node k' s children).Avoids k) : k' ≠ k := by
  rw [Avoids, preorder_node] at h
  exact h _ List.mem_cons_self

theorem Tree.Avoids.child {k k' : NodeKind} {s : Span} {children : List Tree}
    (h : (Tree.node k' s children).Avoids k) : ∀ c ∈ children, c.Avoids k := by
  intro c hc n hn
  rw [Avoids, preorder_node] at h
  exact h n (List.mem_cons_of_mem _ (List.mem_flatMap.mpr ⟨c, hc, hn⟩))

/-! ## Statements -/

mutual

theorem checkStmt_tree (s : Surroundings) (owner : Signature) : ∀ st : Stmt Unit,
    (checkStmt s owner st).value.1.tree = st.tree
  | .block b => by
      rw [checkStmt, Stmt.tree, ← checkBlock_tree s owner b]
      rfl
  | .bind _ _ _ _ _ _ => by
      rw [checkStmt]
      rfl
  | .assign _ _ _ _ => by
      rw [checkStmt]
      rfl
  | .cond c => by
      rw [checkStmt, Stmt.tree, ← checkCond_tree s owner c]
      rfl
  | .loop _ _ body => by
      rw [checkStmt, Stmt.tree, ← checkBlock_tree s owner body]
      rfl
  | .ret _ _ => by
      rw [checkStmt]
      rfl
  | .eval _ _ => by
      rw [checkStmt]
      rfl

theorem checkBlock_tree (s : Surroundings) (owner : Signature) : ∀ b : Block Unit,
    (checkBlock s owner b).value.tree = b.tree
  | .mk _ body => by
      rw [checkBlock, Block.tree, ← checkStmts_tree { s with scope := [] :: s.scope } owner body]
      rfl

theorem checkCond_tree (s : Surroundings) (owner : Signature) : ∀ c : Cond Unit,
    (checkCond s owner c).value.tree = c.tree
  | .mk _ _ consequent alternate => by
      rw [checkCond, Cond.tree, ← checkBlock_tree s owner consequent,
        ← checkElse_trees s owner alternate]
      rfl

theorem checkElse_trees (s : Surroundings) (owner : Signature) : ∀ a : Else Unit,
    (checkElse s owner a).value.trees = a.trees
  | .absent => by
      rw [checkElse]
      rfl
  | .block b => by
      rw [checkElse, Else.trees, ← checkBlock_tree s owner b]
      rfl
  | .cond c => by
      rw [checkElse, Else.trees, ← checkCond_tree s owner c]
      rfl

theorem checkStmts_tree (s : Surroundings) (owner : Signature) : ∀ ss : List (Stmt Unit),
    stmtTrees (checkStmts s owner ss).value = stmtTrees ss
  | [] => by
      rw [checkStmts]
      rfl
  | st :: rest => by
      rw [checkStmts, stmtTrees, ← checkStmt_tree s owner st,
        ← checkStmts_tree { s with scope := (checkStmt s owner st).value.2 } owner rest]
      rfl

end

/-! ## Functions -/

theorem checkBody_tree (s : Surroundings) (owner : Signature) (f : FunctionDecl Unit) :
    (Declaration.function (checkBody s owner f).value).tree = (Declaration.function f).tree := by
  have hbody : (checkBody s owner f).value.body.tree = f.body.tree := by
    cases hf : f.body with
    | mk span body =>
        rw [Block.tree, ← checkStmts_tree
          { s with scope := (declareParams owner ([] :: s.scope) f.params owner.params).value }
          owner body]
        rw [checkBody, hf]
        rfl
  rw [Declaration.tree, Declaration.tree, hbody]
  rfl

theorem collectFunctions_fst (fs : List (FunctionDecl Unit)) : ∀ seen,
    (collectFunctions seen fs).value.map Prod.fst = fs := by
  induction fs with
  | nil => exact fun _ => rfl
  | cons f fs ih =>
      intro seen
      rw [collectFunctions]
      split
      · exact congrArg (f :: ·) (ih seen)
      · split
        · exact congrArg (f :: ·) (ih seen)
        · cases Lifecycle.ofFunction? f.name.name with
          | none => exact congrArg (f :: ·) (ih (f.name.name :: seen))
          | some k => exact congrArg (f :: ·) (ih (f.name.name :: seen))

theorem checkBodies_mem (s : Surroundings)
    (collected : List (FunctionDecl Unit × Option Signature)) :
    ∀ info ∈ (checkBodies s collected).value, ∃ entry ∈ collected,
      (Declaration.function info.decl).tree = (Declaration.function entry.1).tree := by
  induction collected with
  | nil => exact fun _ h => absurd h List.not_mem_nil
  | cons entry rest ih =>
      obtain ⟨f, signature⟩ := entry
      intro info hinfo
      have hrest : info ∈ (checkBodies s rest).value → ∃ entry ∈ (f, signature) :: rest,
          (Declaration.function info.decl).tree = (Declaration.function entry.1).tree := by
        intro h
        obtain ⟨entry, hentry, htree⟩ := ih info h
        exact ⟨entry, List.mem_cons_of_mem _ hentry, htree⟩
      cases signature with
      | none => exact hrest hinfo
      | some sig =>
          rcases List.mem_cons.mp hinfo with rfl | h
          · exact ⟨_, List.mem_cons_self, checkBody_tree s _ f⟩
          · exact hrest h

/-- A function that can be called is one of the script, with types written into it. -/
theorem checkProgram_function {p : Program Unit} {info : FunctionInfo}
    (h : info ∈ (checkProgram p).functions) :
    ∃ f ∈ p.functions, (Declaration.function info.decl).tree = (Declaration.function f).tree := by
  obtain ⟨entry, hentry, htree⟩ := checkBodies_mem _ _ info h
  refine ⟨entry.1, ?_, htree⟩
  rw [← collectFunctions_fst p.functions []]
  exact List.mem_map_of_mem hentry

end SceneScript
