import SceneScript.Lint

/-!
# The blocks of a function body

What a script is warned about as unreachable is said block by block: behind the first statement of a
block that always returns the next one is dead.

* **`Block.blocks`** — the blocks of a function body, an outer one before those in it.
* **`Block.blocks_trans`** — the blocks in a block of a body are blocks of the body.
* **`Block.unreachable_eq`** — the dead statements are the first ones behind an exit in the blocks;
  **`firstUnreachable?_eq_some`** — where such a statement stands.
-/

namespace SceneScript

variable {β : Type}

/-! ## Blocks -/

mutual

/-- The blocks of a statement. -/
def Stmt.blocks : Stmt β → List (Block β)
  | .block b       => b.blocks
  | .cond k        => k.blocks
  | .loop _ _ body => body.blocks
  | _              => []

/-- The blocks of a block, itself first. -/
def Block.blocks : Block β → List (Block β)
  | .mk s body => .mk s body :: stmtsBlocks body

/-- The blocks of a conditional. -/
def Cond.blocks : Cond β → List (Block β)
  | .mk _ _ consequent alternate => consequent.blocks ++ alternate.blocks

/-- The blocks of what follows a consequent. -/
def Else.blocks : Else β → List (Block β)
  | .absent  => []
  | .block b => b.blocks
  | .cond k  => k.blocks

/-- The blocks of statements. -/
def stmtsBlocks : List (Stmt β) → List (Block β)
  | []      => []
  | s :: ss => s.blocks ++ stmtsBlocks ss

end

mutual

theorem Stmt.blocks_trans : ∀ {st : Stmt β} {b b' : Block β}, b ∈ st.blocks → b' ∈ b.blocks →
    b' ∈ st.blocks
  | .block _, _, _, h, h'            => Block.blocks_trans h h'
  | .cond _, _, _, h, h'             => Cond.blocks_trans h h'
  | .loop _ _ _, _, _, h, h'         => Block.blocks_trans h h'

/-- The blocks in a block of a body are blocks of the body. -/
theorem Block.blocks_trans : ∀ {B b b' : Block β}, b ∈ B.blocks → b' ∈ b.blocks → b' ∈ B.blocks
  | .mk s body, b, b', h, h' => by
      rw [Block.blocks] at h ⊢
      rcases List.mem_cons.mp h with rfl | h
      · rwa [Block.blocks] at h'
      · exact List.mem_cons_of_mem _ (stmtsBlocks_trans h h')

theorem Cond.blocks_trans : ∀ {c : Cond β} {b b' : Block β}, b ∈ c.blocks → b' ∈ b.blocks →
    b' ∈ c.blocks
  | .mk _ _ consequent alternate, b, b', h, h' => by
      rw [Cond.blocks] at h ⊢
      rcases List.mem_append.mp h with h | h
      · exact List.mem_append_left _ (Block.blocks_trans h h')
      · exact List.mem_append_right _ (Else.blocks_trans h h')

theorem Else.blocks_trans : ∀ {a : Else β} {b b' : Block β}, b ∈ a.blocks → b' ∈ b.blocks →
    b' ∈ a.blocks
  | .block _, _, _, h, h' => Block.blocks_trans h h'
  | .cond _, _, _, h, h'  => Cond.blocks_trans h h'

theorem stmtsBlocks_trans : ∀ {body : List (Stmt β)} {b b' : Block β}, b ∈ stmtsBlocks body →
    b' ∈ b.blocks → b' ∈ stmtsBlocks body
  | st :: rest, b, b', h, h' => by
      rw [stmtsBlocks] at h ⊢
      rcases List.mem_append.mp h with h | h
      · exact List.mem_append_left _ (Stmt.blocks_trans h h')
      · exact List.mem_append_right _ (stmtsBlocks_trans h h')

end

theorem Block.mem_blocks_self (b : Block β) : b ∈ b.blocks := by
  cases b with
  | mk s body => exact List.mem_cons_self

/-! ## Dead statements -/

mutual

theorem Stmt.unreachable_eq : ∀ st : Stmt β,
    st.unreachable = st.blocks.filterMap fun b => firstUnreachable? b.body
  | .block b          => b.unreachable_eq
  | .cond k           => k.unreachable_eq
  | .loop _ _ body    => body.unreachable_eq
  | .bind _ _ _ _ _ _ => rfl
  | .assign _ _ _ _   => rfl
  | .ret _ _          => rfl
  | .eval _ _         => rfl

/-- The dead statements of a function body: in every block the first one behind an exit. -/
theorem Block.unreachable_eq : ∀ b : Block β,
    b.unreachable = b.blocks.filterMap fun b => firstUnreachable? b.body
  | .mk s body => by
      rw [Block.unreachable, Block.blocks, stmtsUnreachable_eq body, List.filterMap_cons]
      cases h : firstUnreachable? body with
      | none => simp only [Block.body, h, Option.toList_none, List.nil_append]
      | some first => simp only [Block.body, h, Option.toList_some, List.singleton_append]

theorem Cond.unreachable_eq : ∀ k : Cond β,
    k.unreachable = k.blocks.filterMap fun b => firstUnreachable? b.body
  | .mk _ _ consequent alternate => by
      rw [Cond.unreachable, Cond.blocks, List.filterMap_append, consequent.unreachable_eq,
        alternate.unreachable_eq]

theorem Else.unreachable_eq : ∀ a : Else β,
    a.unreachable = a.blocks.filterMap fun b => firstUnreachable? b.body
  | .absent  => rfl
  | .block b => b.unreachable_eq
  | .cond k  => k.unreachable_eq

theorem stmtsUnreachable_eq : ∀ body : List (Stmt β),
    stmtsUnreachable body = (stmtsBlocks body).filterMap fun b => firstUnreachable? b.body
  | []         => rfl
  | st :: rest => by
      rw [stmtsUnreachable, stmtsBlocks, List.filterMap_append, st.unreachable_eq,
        stmtsUnreachable_eq rest]

end

/-- The first statement behind an exit: before it stand statements that fall through, and one that
    always returns. -/
theorem firstUnreachable?_eq_some {body : List (Stmt β)} {first : Stmt β}
    (h : firstUnreachable? body = some first) :
    ∃ before exit later, body = before ++ exit :: first :: later ∧ exit.alwaysReturns = true := by
  induction body with
  | nil => cases h
  | cons st rest ih =>
      rw [firstUnreachable?] at h
      split at h
      · next hexit =>
          obtain ⟨later, rfl⟩ := List.head?_eq_some_iff.mp h
          exact ⟨[], st, later, rfl, hexit⟩
      · obtain ⟨before, exit, later, rfl, hexit⟩ := ih h
        exact ⟨st :: before, exit, later, rfl, hexit⟩

end SceneScript
