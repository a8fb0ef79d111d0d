import SceneScript.Proofs.Syntax.Recovery

/-!
# Every round of the parser moves on

The parser has two loops whose rounds can go wrong: the one over the declarations of a script and
the one over the statements of a block. A round may give up where it stands, and synchronizing may
stop there too, in front of a `let`, a closing brace or a token that opens a declaration. Yet no
round ends where it began. Where synchronizing would not move, either the loop is left or the
round has taken the token before it could give up.

Fuel plays no part in this: what a step gives with enough fuel, it gives with more.

* **`Reader.ok_of_le`** — more fuel, same answer.
* **`Reader.declaration_round`**, **`Reader.statement_round`** — one round of either loop.
* **`parseTokens_ends`** — reading ends, whatever the tokens.
-/

namespace SceneScript

namespace Reader

variable {α : Type} {c : Cursor}

/-- What a step gives with some fuel, it gives with more. -/
theorem ok_of_le {x : Nat → Reader α} {n : Nat} {a : α} {d : Cursor}
    (hstays : ∀ k, Stays .ending [] (x n) (x (k + n)) c) (h : x n c = .ok a d) :
    ∀ fuel, n ≤ fuel → x fuel c = .ok a d := by
  intro fuel hle
  have hmore := ((ends_of_ok h).mp (hstays (fuel - n) List.nil_suffix)).2
  rw [Nat.sub_add_cancel hle] at hmore
  exact hmore

/-- A step that never stops early with some fuel gives one answer with all larger amounts. -/
theorem exists_ok_of_le {x : Nat → Reader α} {n : Nat} {P : Cursor → Prop}
    (hstays : ∀ k, Stays .ending [] (x n) (x (k + n)) c)
    (h : Ends (x n) c (fun _ d => P d) (fun _ _ => False)) :
    ∃ a d, P d ∧ ∀ fuel, n ≤ fuel → x fuel c = .ok a d := by
  cases hrun : x n c with
  | error stop d => exact ((ends_of_error hrun).mp h).elim
  | ok a d => exact ⟨a, d, (ends_of_ok hrun).mp h, ok_of_le hstays hrun⟩

/-! ## Declarations -/

/-- A round of the loop over declarations takes a token, whether its declaration is read or
    given up, and the loop goes on behind it. -/
theorem declaration_round (hne : c.tokens ≠ []) :
    ∃ found d, d.left < c.left ∧ ∀ fuel, 16 * c.left ≤ fuel →
      recover .declaration (declaration fuel) c = .ok found d ∧
      declarations (fuel + 1) c = ((found.join.toList ++ ·) <$> declarations fuel) d := by
  obtain ⟨t, rest, ht⟩ := List.exists_cons_of_ne_nil hne
  have hpos := Cursor.left_advance ht
  have hahead : Ahead .ending c := ⟨t, rest, ht, List.nil_suffix⟩
  obtain ⟨found, d, hd, hround⟩ := exists_ok_of_le
    (x := fun fuel => recover .declaration (declaration fuel))
    (fun k => stays_recover .declaration (stays_declaration k (16 * c.left) hahead))
    (ends_recover_declaration ht (Nat.le_refl _))
  refine ⟨found, d, by omega, fun fuel hfuel => ⟨hround fuel hfuel, ?_⟩⟩
  rw [declarations_cons fuel ht, bind_of_ok (hround fuel hfuel), map_eq_pure_bind]

/-! ## Statements -/

theorem blockRest_eq (fuel : Nat) (c : Cursor) (opening : Span) (done : List (Stmt Unit)) :
    blockRest (fuel + 1) opening done c =
      (if c.atSymbol .rbrace = true then do
        advance
        return .mk (← spanFrom opening.start) done
      else if c.tokens.isEmpty = true then do
        set (c.record .blockUnfinished c.here)
        return .mk (opening.through c.here) done
      else if c.atDeclaration = true then do
        set (c.record .blockNotClosed opening)
        return .mk ⟨opening.start, c.last⟩ done
      else do
        match ← recover .statement (statement fuel) with
        | some s => blockRest fuel opening (done ++ [s])
        | none   => blockRest fuel opening done : Reader (Block Unit)) c := rfl

/-- A round of the loop over the statements of a block leaves the loop or takes a token, whether
    its statement is read or given up. -/
theorem statement_round (c : Cursor) (opening : Span) (done : List (Stmt Unit)) :
    (∃ b d, ∀ fuel, blockRest (fuel + 1) opening done c = .ok b d) ∨
    ∃ found d, d.left < c.left ∧ ∀ fuel, 16 * c.left + 4 ≤ fuel →
      recover .statement (statement fuel) c = .ok found d ∧
      blockRest (fuel + 1) opening done c = blockRest fuel opening (done ++ found.toList) d := by
  by_cases hclose : c.atSymbol .rbrace = true
  · refine .inl ⟨.mk ⟨opening.start, c.advance.last⟩ done, c.advance, fun fuel => ?_⟩
    rw [blockRest_eq, if_pos hclose]
    rfl
  by_cases hempty : c.tokens.isEmpty = true
  · refine .inl ⟨.mk (opening.through c.here) done, c.record .blockUnfinished c.here,
      fun fuel => ?_⟩
    rw [blockRest_eq, if_neg hclose, if_pos hempty]
    rfl
  by_cases hdecl : c.atDeclaration = true
  · refine .inl ⟨.mk ⟨opening.start, c.last⟩ done, c.record .blockNotClosed opening,
      fun fuel => ?_⟩
    rw [blockRest_eq, if_neg hclose, if_neg hempty, if_pos hdecl]
    rfl
  -- What begins neither like the end of the block nor like a declaration is read or skipped.
  right
  obtain ⟨t, rest, ht⟩ : ∃ t rest, c.tokens = t :: rest :=
    List.exists_cons_of_ne_nil fun hnil => hempty (by rw [hnil]; rfl)
  have hpos := Cursor.left_advance ht
  obtain ⟨found, d, hd, hround⟩ := exists_ok_of_le
    (x := fun fuel => recover .statement (statement fuel))
    (fun k => stays_recover .statement ((staysStmts .ending [] k (16 * c.left + 4)).statement c))
    ((finishesStmts (16 * c.left + 4)).recovered (Nat.le_refl _) hclose hempty hdecl)
  refine ⟨found, d, by omega, fun fuel hfuel => ⟨hround fuel hfuel, ?_⟩⟩
  rw [blockRest_eq, if_neg hclose, if_neg hempty, if_neg hdecl, bind_of_ok (hround fuel hfuel)]
  cases found with
  | none => rw [Option.toList_none, List.append_nil]
  | some st => rfl

end Reader

/-! ## Whole scripts -/

/-- Reading tokens ends, whatever they are: the parser comes to the end of the script and lets no
    panic out, and more fuel than it is given would change nothing. Every round of the loop over
    declarations takes a token, also one that gives up where it stands and then synchronizes;
    every round of the loop over the statements of a block leaves the loop or takes a token. -/
theorem parseTokens_ends (tokens : List Token) (finish : Position) :
    (∃ body d, d.tokens = [] ∧
      (∀ fuel, parserFuel tokens.length ≤ fuel →
        Reader.declarations fuel ⟨tokens, .origin, finish, []⟩ = .ok body d) ∧
      (parseTokens tokens finish).program.body = body ∧
      (parseTokens tokens finish).diagnostics = d.errors) ∧
    (∀ c : Cursor, c.tokens ≠ [] → ∃ found d, d.tokens.length < c.tokens.length ∧
      ∀ fuel, 16 * c.tokens.length ≤ fuel →
        Reader.recover .declaration (Reader.declaration fuel) c = .ok found d ∧
        Reader.declarations (fuel + 1) c =
          ((found.join.toList ++ ·) <$> Reader.declarations fuel) d) ∧
    (∀ (c : Cursor) (opening : Span) (done : List (Stmt Unit)),
      (∃ b d, ∀ fuel, Reader.blockRest (fuel + 1) opening done c = .ok b d) ∨
      ∃ found d, d.tokens.length < c.tokens.length ∧
        ∀ fuel, 16 * c.tokens.length + 4 ≤ fuel →
          Reader.recover .statement (Reader.statement fuel) c = .ok found d ∧
          Reader.blockRest (fuel + 1) opening done c =
            Reader.blockRest fuel opening (done ++ found.toList) d) := by
  refine ⟨?_, fun c hne => Reader.declaration_round hne, Reader.statement_round⟩
  obtain ⟨body, d, hd, hrun⟩ := Reader.exists_ok_of_le (x := Reader.declarations)
    (c := ⟨tokens, .origin, finish, []⟩)
    (fun k => Reader.stays_declarations [] k (parserFuel tokens.length) _)
    (Reader.ends_declarations (parserFuel tokens.length)
      (by simp only [Cursor.left, parserFuel]; omega))
  refine ⟨body, d, hd, hrun, ?_, ?_⟩
  · simp only [parseTokens, hrun _ (Nat.le_refl _)]
  · simp only [parseTokens, hrun _ (Nat.le_refl _)]

end SceneScript
