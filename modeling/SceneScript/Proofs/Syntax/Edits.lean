import SceneScript.Proofs.Syntax.Blocks

/-!
# Changing the variable declarations of a script

Programs that differ only in what the variable declarations of their function bodies say have the
same shape: the same blocks, the same statements that always return, the same dead code. The
typing of a script is such a change, and so is what a tool does that drops a `mut` or puts another
initializer in place of one.

* **`LetEdit`** — such a change; **`Stmt.edit`**, **`Program.edit`** — a script after it.
* **`LetEdit.forget`** — the change that forgets what is known about the variables.
* **`Stmt.alwaysReturns_edit`**, **`Block.blocks_edit`**, **`Block.unreachable_edit`** — what stays.
-/

namespace SceneScript

variable {β γ : Type}

/-! ## Changes -/

/-- A change to variable declarations: to the flag, to the initializer and to what is known about
    the variable. The first two may depend on the name and its place. -/
structure LetEdit (β γ : Type) where
  mutable : Ident → Bool → Bool
  init    : Ident → Expr → Expr
  binding : β → γ

/-- What is known about the variables is forgotten. -/
def LetEdit.forget : LetEdit β Unit := ⟨fun _ m => m, fun _ e => e, fun _ => ()⟩

mutual

/-- A statement after a change. -/
def Stmt.edit (c : LetEdit β γ) : Stmt β → Stmt γ
  | .block b                      => .block (b.edit c)
  | .bind s name mutable declared init binding =>
      .bind s name (c.mutable name mutable) declared (c.init name init) (c.binding binding)
  | .assign s target op value     => .assign s target op value
  | .cond k                       => .cond (k.edit c)
  | .loop s test body             => .loop s test (body.edit c)
  | .ret s value                  => .ret s value
  | .eval s e                     => .eval s e

/-- A block after a change. -/
def Block.edit (c : LetEdit β γ) : Block β → Block γ
  | .mk s body => .mk s (stmtsEdit c body)

/-- A conditional after a change. -/
def Cond.edit (c : LetEdit β γ) : Cond β → Cond γ
  | .mk s test consequent alternate => .mk s test (consequent.edit c) (alternate.edit c)

/-- What follows a consequent after a change. -/
def Else.edit (c : LetEdit β γ) : Else β → Else γ
  | .absent  => .absent
  | .block b => .block (b.edit c)
  | .cond k  => .cond (k.edit c)

/-- Statements after a change. -/
def stmtsEdit (c : LetEdit β γ) : List (Stmt β) → List (Stmt γ)
  | []      => []
  | s :: ss => s.edit c :: stmtsEdit c ss

end

/-- A function after a change. -/
def FunctionDecl.edit (c : LetEdit β γ) (f : FunctionDecl β) : FunctionDecl γ :=
  ⟨f.span, f.name, f.params, f.returns, f.body.edit c⟩

/-- A declaration after a change. -/
def Declaration.edit (c : LetEdit β γ) : Declaration β → Declaration γ
  | .global g   => .global g
  | .function f => .function (f.edit c)
  | .signal s   => .signal s

/-- A script after a change to the variables of its functions. -/
def Program.edit (c : LetEdit β γ) (p : Program β) : Program γ := ⟨p.span, p.body.map (·.edit c)⟩

variable (c : LetEdit β γ)

theorem stmtsEdit_eq (body : List (Stmt β)) : stmtsEdit c body = body.map (·.edit c) := by
  induction body with
  | nil => rfl
  | cons st rest ih => rw [stmtsEdit, ih, List.map_cons]

@[simp] theorem Block.body_edit (b : Block β) : (b.edit c).body = b.body.map (·.edit c) := by
  cases b with
  | mk s body => exact stmtsEdit_eq c body

@[simp] theorem Program.edit_globals (p : Program β) : (p.edit c).globals = p.globals := by
  simp only [Program.globals, Program.edit, List.filterMap_map]
  congr 1
  funext d
  cases d <;> rfl

@[simp] theorem Program.edit_signals (p : Program β) : (p.edit c).signals = p.signals := by
  simp only [Program.signals, Program.edit, List.filterMap_map]
  congr 1
  funext d
  cases d <;> rfl

@[simp] theorem Program.edit_functions (p : Program β) :
    (p.edit c).functions = p.functions.map (·.edit c) := by
  simp only [Program.functions, Program.edit, List.filterMap_map, List.map_filterMap]
  congr 1
  funext d
  cases d <;> rfl

/-! ## The shape stays -/

theorem Block.span_edit (b : Block β) : (b.edit c).span = b.span := by
  cases b with
  | mk s body => rfl

theorem Stmt.span_edit (st : Stmt β) : (st.edit c).span = st.span := by
  cases st with
  | block b => exact b.span_edit c
  | cond k =>
      cases k with
      | mk s test consequent alternate => rfl
  | _ => rfl

mutual

theorem Stmt.alwaysReturns_edit : ∀ st : Stmt β, (st.edit c).alwaysReturns = st.alwaysReturns
  | .block b            => b.alwaysReturns_edit
  | .cond k             => k.alwaysReturns_edit
  | .bind _ _ _ _ _ _   => rfl
  | .assign _ _ _ _     => rfl
  | .loop _ _ _         => rfl
  | .ret _ _            => rfl
  | .eval _ _           => rfl

theorem Block.alwaysReturns_edit : ∀ b : Block β, (b.edit c).alwaysReturns = b.alwaysReturns
  | .mk _ body => anyReturns_edit body

theorem Cond.alwaysReturns_edit : ∀ k : Cond β, (k.edit c).alwaysReturns = k.alwaysReturns
  | .mk _ _ consequent alternate => by
      rw [Cond.edit, Cond.alwaysReturns, Cond.alwaysReturns, consequent.alwaysReturns_edit,
        alternate.alwaysReturns_edit]

theorem Else.alwaysReturns_edit : ∀ a : Else β, (a.edit c).alwaysReturns = a.alwaysReturns
  | .absent  => rfl
  | .block b => b.alwaysReturns_edit
  | .cond k  => k.alwaysReturns_edit

theorem anyReturns_edit : ∀ body : List (Stmt β), anyReturns (stmtsEdit c body) = anyReturns body
  | []         => rfl
  | st :: rest => by
      rw [stmtsEdit, anyReturns, anyReturns, st.alwaysReturns_edit, anyReturns_edit rest]

end

/-! ## Blocks and dead code -/

mutual

theorem Stmt.blocks_edit : ∀ st : Stmt β, (st.edit c).blocks = st.blocks.map (·.edit c)
  | .block b          => b.blocks_edit
  | .cond k           => k.blocks_edit
  | .loop _ _ body    => body.blocks_edit
  | .bind _ _ _ _ _ _ => rfl
  | .assign _ _ _ _   => rfl
  | .ret _ _          => rfl
  | .eval _ _         => rfl

theorem Block.blocks_edit : ∀ b : Block β, (b.edit c).blocks = b.blocks.map (·.edit c)
  | .mk s body => by
      rw [Block.edit, Block.blocks, Block.blocks, List.map_cons, stmtsBlocks_edit body, Block.edit]

theorem Cond.blocks_edit : ∀ k : Cond β, (k.edit c).blocks = k.blocks.map (·.edit c)
  | .mk _ _ consequent alternate => by
      rw [Cond.edit, Cond.blocks, Cond.blocks, List.map_append, consequent.blocks_edit,
        alternate.blocks_edit]

theorem Else.blocks_edit : ∀ a : Else β, (a.edit c).blocks = a.blocks.map (·.edit c)
  | .absent  => rfl
  | .block b => b.blocks_edit
  | .cond k  => k.blocks_edit

theorem stmtsBlocks_edit : ∀ body : List (Stmt β),
    stmtsBlocks (stmtsEdit c body) = (stmtsBlocks body).map (·.edit c)
  | []         => rfl
  | st :: rest => by
      rw [stmtsEdit, stmtsBlocks, stmtsBlocks, List.map_append, st.blocks_edit,
        stmtsBlocks_edit rest]

end

theorem firstUnreachable?_edit (body : List (Stmt β)) :
    firstUnreachable? (body.map (·.edit c)) = (firstUnreachable? body).map (·.edit c) := by
  induction body with
  | nil => rfl
  | cons st rest ih =>
      rw [List.map_cons, firstUnreachable?, firstUnreachable?, st.alwaysReturns_edit]
      split
      · exact List.head?_map
      · exact ih

theorem Block.unreachable_edit (b : Block β) :
    (b.edit c).unreachable = b.unreachable.map (·.edit c) := by
  rw [Block.unreachable_eq, Block.unreachable_eq, b.blocks_edit, List.filterMap_map,
    List.map_filterMap]
  congr 1
  funext b
  rw [Function.comp_apply, b.body_edit, firstUnreachable?_edit]

end SceneScript
