import SceneScript.Proofs.Syntax.Edits
import SceneScript.Proofs.Typing.Shape
import SceneScript.Proofs.Typing.Sound

/-!
# Checking only annotates

What checking a script makes of a function is the function itself, with the types of its variables
written into their declarations: forget the types, and nothing has changed.

* **`checkStmt_forget`**, **`checkBody_forget`** — a checked statement and a checked function.
* **`checkProgram_forget`** — every function that can be called is one of the script.
* **`Program.wellTyped_of_diagnostics`** — a script about which nothing is reported obeys the rules.
-/

namespace SceneScript

mutual

theorem checkStmt_forget (s : Surroundings) (owner : Signature) : ∀ st : Stmt Unit,
    (checkStmt s owner st).value.1.edit .forget = st
  | .block b => congrArg Stmt.block (checkBlock_forget s owner b)
  | .bind _ _ _ _ _ _ => rfl
  | .assign _ _ _ _ => rfl
  | .cond c => congrArg Stmt.cond (checkCond_forget s owner c)
  | .loop span test body => congrArg (Stmt.loop span test) (checkBlock_forget s owner body)
  | .ret _ _ => rfl
  | .eval _ _ => rfl

theorem checkBlock_forget (s : Surroundings) (owner : Signature) : ∀ b : Block Unit,
    (checkBlock s owner b).value.edit .forget = b
  | .mk span body =>
      congrArg (Block.mk span) (checkStmts_forget { s with scope := [] :: s.scope } owner body)

theorem checkCond_forget (s : Surroundings) (owner : Signature) : ∀ c : Cond Unit,
    (checkCond s owner c).value.edit .forget = c
  | .mk span test consequent alternate =>
      congrArg₂ (Cond.mk span test) (checkBlock_forget s owner consequent)
        (checkElse_forget s owner alternate)

theorem checkElse_forget (s : Surroundings) (owner : Signature) : ∀ a : Else Unit,
    (checkElse s owner a).value.edit .forget = a
  | .absent  => rfl
  | .block b => congrArg Else.block (checkBlock_forget s owner b)
  | .cond c  => congrArg Else.cond (checkCond_forget s owner c)

theorem checkStmts_forget (s : Surroundings) (owner : Signature) : ∀ ss : List (Stmt Unit),
    stmtsEdit .forget (checkStmts s owner ss).value = ss
  | []         => rfl
  | st :: rest =>
      congrArg₂ List.cons (checkStmt_forget s owner st)
        (checkStmts_forget { s with scope := (checkStmt s owner st).value.2 } owner rest)

end

theorem checkBody_forget (s : Surroundings) (owner : Signature) (f : FunctionDecl Unit) :
    (checkBody s owner f).value.edit .forget = f := by
  obtain ⟨span, name, params, returns, body⟩ := f
  cases body with
  | mk bspan body =>
      have hbody := checkStmts_forget
        { s with scope := (declareParams owner ([] :: s.scope) params owner.params).value }
        owner body
      exact congrArg (fun ss => (⟨span, name, params, returns, .mk bspan ss⟩ : FunctionDecl Unit))
        hbody

theorem checkBodies_forget (s : Surroundings)
    (collected : List (FunctionDecl Unit × Option Signature)) :
    ∀ info ∈ (checkBodies s collected).value,
      info.decl.edit .forget ∈ collected.map Prod.fst := by
  induction collected with
  | nil => exact fun _ h => absurd h List.not_mem_nil
  | cons entry rest ih =>
      obtain ⟨f, signature⟩ := entry
      intro info hinfo
      cases signature with
      | none => exact List.mem_cons_of_mem _ (ih info hinfo)
      | some sig =>
          rcases List.mem_cons.mp hinfo with rfl | h
          · exact List.mem_cons.mpr (.inl (checkBody_forget s _ f))
          · exact List.mem_cons_of_mem _ (ih info h)

/-- A function that can be called is one of the script, once the types are forgotten. -/
theorem checkProgram_forget {p : Program Unit} {info : FunctionInfo}
    (h : info ∈ (checkProgram p).functions) : info.decl.edit .forget ∈ p.functions := by
  have hmem := checkBodies_forget _ _ info h
  rwa [collectFunctions_fst p.functions []] at hmem

/-- A block of a function that can be called is a block of the script. -/
theorem checkProgram_blocks {p : Program Unit} {b : Block Ty}
    (h : b ∈ (checkProgram p).functions.flatMap fun f => f.decl.body.blocks) :
    ∃ f ∈ p.functions, b.edit .forget ∈ f.body.blocks := by
  obtain ⟨info, hinfo, hb⟩ := List.mem_flatMap.mp h
  refine ⟨_, checkProgram_forget hinfo, ?_⟩
  show b.edit .forget ∈ (info.decl.body.edit .forget).blocks
  rw [info.decl.body.blocks_edit]
  exact List.mem_map_of_mem hb

/-- Where nothing is reported nothing was found to be wrong. -/
theorem Program.no_problem {p : Program Unit} (h : (checkProgram p).diagnostics = [])
    (q : Problem) (span : Span) : Finding.problem q span ∉ (checkProgram p).findings := by
  intro hq
  have hmem : q.diagnostic span ∈ (checkProgram p).diagnostics :=
    List.mem_filterMap.mpr ⟨_, hq, rfl⟩
  rw [h] at hmem
  exact List.not_mem_nil hmem

/-- A script about which nothing is reported obeys the typing rules. -/
theorem Program.wellTyped_of_diagnostics {p : Program Unit}
    (h : (checkProgram p).diagnostics = []) : (checkProgram p).WellTyped :=
  checkProgram_wellTyped (Program.no_problem h)

end SceneScript
