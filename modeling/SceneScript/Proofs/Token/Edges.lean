import SceneScript.Proofs.Token.Respacing

/-!
# Where tokens begin and end

No lexeme begins or ends with a blank: a string ends with its quote, a number with a digit, and
names and symbols have no blank in them at all. Nor does anything that the lexer reports begin with one.
So a position that the lexer hands on is never in the middle of the end of a line, between a
carriage return and its line feed, where a line has no column.

* **`scan_solid`** — the first and the last unit of a token.
* **`Position.InLine`** — a position of the text with a column on its line.
* **`tokenize_inLine`** — all tokens begin and end at such positions, and all errors begin there.
-/

namespace SceneScript

/-! ## The units at the edges -/

/-- Neither the first nor the last of the units is a blank. -/
def Solid (us : List UInt16) : Prop :=
  ∀ u, us.head? = some u ∨ us.getLast? = some u → isSpaceUnit u = false

theorem solid_of_forall {us : List UInt16} (h : ∀ u ∈ us, isSpaceUnit u = false) : Solid us := by
  rintro u (hu | hu)
  · exact h u (List.mem_of_mem_head? hu)
  · exact h u (List.mem_of_mem_getLast? hu)

theorem isSpaceUnit_of_isDigitUnit {u : UInt16} (h : isDigitUnit u = true) :
    isSpaceUnit u = false := by
  by_contra hspace
  simp only [isSpaceUnit, Bool.not_eq_false, Bool.or_eq_true, decide_eq_true_eq] at hspace
  rcases hspace with ((rfl | rfl) | rfl) | rfl <;> revert h <;> decide

theorem isSpaceUnit_of_isNamePart {u : UInt16} (h : isNamePart u = true) :
    isSpaceUnit u = false := by
  by_contra hspace
  simp only [isSpaceUnit, Bool.not_eq_false, Bool.or_eq_true, decide_eq_true_eq] at hspace
  rcases hspace with ((rfl | rfl) | rfl) | rfl <;> revert h <;> decide

/-- A closed string ends with its quote. -/
theorem scanString_last {k : Nat} {us : List UInt16} (h : (scanString k us).closed = true) :
    (us.take (scanString k us).size).getLast? = some 0x22 := by
  induction us using stringBody_cases generalizing k with
  | nil => cases h
  | line us =>
      rw [scanString_lineFeed] at h
      cases h
  | quote us =>
      rw [scanString_quote]
      rfl
  | lone => cases h
  | escape e us ih =>
      rw [scanString_escape] at h ⊢
      rw [List.take_succ_cons, List.take_succ_cons, List.getLast?_cons, List.getLast?_cons, ih h]
      rfl
  | plain u us hline hquote hescape ih =>
      rw [scanString_plain hline hquote hescape] at h ⊢
      rw [List.take_succ_cons, List.getLast?_cons, ih h]
      rfl

theorem stringStep_solid {rest : List UInt16} {kind : TokenKind}
    (h : (stringStep rest).piece = .token kind) :
    Solid (0x22 :: rest.take (stringStep rest).extra) := by
  have hlast : (rest.take (stringStep rest).extra).getLast? = some 0x22 :=
    scanString_last (stringStep_closes h)
  rintro u (hu | hu)
  · cases hu
    decide
  · rw [List.getLast?_cons, hlast] at hu
    cases hu
    decide

theorem numberStep_solid {u : UInt16} {rest : List UInt16} {kind : TokenKind}
    (hu : isDigitUnit u = true) (h : (numberStep (u :: rest)).piece = .token kind) :
    Solid (u :: rest.take (numberStep (u :: rest)).extra) := by
  have hlexeme : u :: rest.take (numberStep (u :: rest)).extra =
      (u :: rest).take (numeralLength (u :: rest)) := by
    rw [← numberStep_extra hu h, List.take_succ_cons]
  have hdigits : ∀ v ∈ (u :: rest).takeWhile isDigitUnit, isSpaceUnit v = false := fun v hv =>
    isSpaceUnit_of_isDigitUnit (List.all_eq_true.mp List.all_takeWhile v hv)
  rw [hlexeme]
  refine solid_of_forall fun v hv => ?_
  rcases numeral_cases (u :: rest) with ⟨-, hnumeral⟩ | ⟨-, hnumeral⟩
  · rw [hnumeral] at hv
    exact hdigits v hv
  · rw [hnumeral] at hv
    rcases List.mem_append.mp hv with hv | hv
    · exact hdigits v hv
    · rcases List.mem_cons.mp hv with rfl | hv
      · decide
      · rw [fractionDigits.eq_def] at hv
        split at hv
        · split at hv
          · exact isSpaceUnit_of_isDigitUnit (List.all_eq_true.mp List.all_takeWhile v hv)
          · cases hv
        · cases hv

theorem nameStep_solid {u : UInt16} (hu : isNameStart u = true) (rest : List UInt16) :
    Solid (u :: rest.take (nameStep (u :: rest)).extra) := by
  rw [nameStep_text hu]
  refine solid_of_forall fun v hv => ?_
  exact isSpaceUnit_of_isNamePart (List.all_eq_true.mp List.all_takeWhile v hv)

theorem symbolStep_solid {u : UInt16} (hu : isSpaceUnit u = false) (rest : List UInt16) :
    Solid (u :: rest.take (symbolStep u rest).extra) := by
  have alone : Solid [u] := solid_of_forall fun v hv => by rwa [List.mem_singleton.mp hv]
  cases rest with
  | nil =>
      rw [List.take_nil]
      exact alone
  | cons v rest =>
      cases hpair : Symbol.ofPair? (charOfUnit u) (charOfUnit v) with
      | none =>
          have hextra : (symbolStep u (v :: rest)).extra = 0 := by
            simp only [symbolStep, hpair]
            cases Symbol.ofChar? (charOfUnit u) <;> rfl
          rw [hextra]
          exact alone
      | some s =>
          have hextra : (symbolStep u (v :: rest)).extra = 1 := by
            simp only [symbolStep, hpair]
          have hv : isSpaceUnit v = false := by
            by_contra hblank
            rw [ofPair?_blank _ (by simpa using hblank)] at hpair
            cases hpair
          rw [hextra]
          refine solid_of_forall fun w hw => ?_
          rcases List.mem_cons.mp hw with rfl | hw
          · exact hu
          · rwa [List.mem_singleton.mp hw]

/-- A token neither begins nor ends with a blank. -/
theorem scan_solid {u : UInt16} {rest : List UInt16} {kind : TokenKind}
    (h : (scan u rest).piece = .token kind) : Solid (u :: rest.take (scan u rest).extra) := by
  have hstep := scan_read_token h
  generalize scan u rest = step at h hstep ⊢
  cases hstep with
  | string hu =>
      subst hu
      exact stringStep_solid h
  | number hu => exact numberStep_solid hu h
  | name hu => exact nameStep_solid hu rest
  | symbol hblank => exact symbolStep_solid hblank rest

/-- What is reported as a whole does not begin with a blank. -/
theorem scan_problem {u : UInt16} {rest : List UInt16} {problem : LexProblem}
    (h : (scan u rest).piece = .problem problem) : isSpaceUnit u = false := by
  by_contra hspace
  rw [scan, if_pos (by simpa using hspace)] at h
  cases h

/-! ## Positions with a column -/

/-- The position lies in the text, and not between a carriage return and its line feed. -/
structure Position.InLine (t : Text) (p : Position) : Prop where
  isIn : p.IsIn t
  column : ∀ front back, t.units = front ++ 0x0D :: lineFeed :: back → p.offset ≠ front.length + 1

namespace Position

variable {t : Text} {front rest : List UInt16}

/-- In front of a unit that is no line feed. -/
theorem inLine_start {u : UInt16} (h : t.units = front ++ u :: rest) (hu : u ≠ lineFeed) :
    (origin.after front).InLine t := by
  refine ⟨isIn_after h, fun before behind hend hoffset => hu ?_⟩
  rw [offset_after] at hoffset
  have hsplit : front ++ u :: rest = (before ++ [0x0D]) ++ lineFeed :: behind := by
    rw [← h, hend, List.append_assoc, List.singleton_append]
  exact (List.cons.inj (List.append_inj hsplit (by simpa using hoffset)).2).1

/-- Behind a unit that is no carriage return. -/
theorem inLine_stop {u : UInt16} (h : t.units = front ++ u :: rest) (hu : u ≠ 0x0D) :
    (origin.after (front ++ [u])).InLine t := by
  have hall : t.units = (front ++ [u]) ++ rest := by
    rw [h, List.append_assoc, List.singleton_append]
  refine ⟨isIn_after hall, fun before behind hend hoffset => hu ?_⟩
  rw [offset_after, List.length_append] at hoffset
  have hlength : front.length = before.length := Nat.add_right_cancel hoffset
  exact (List.cons.inj (List.append_inj (h.symm.trans hend) hlength).2).1

/-- At the end of the text. -/
theorem inLine_finish (h : t.units = front) : (origin.after front).InLine t := by
  have hall : t.units = front ++ [] := by rw [h, List.append_nil]
  refine ⟨isIn_after hall, fun before behind hend hoffset => ?_⟩
  rw [offset_after, ← h, hend] at hoffset
  simp at hoffset

/-- At the beginning of the text. -/
theorem inLine_origin (t : Text) : origin.InLine t := by
  have hin : (origin.after []).IsIn t := isIn_after (List.nil_append t.units).symm
  exact ⟨hin, fun before behind _ hoffset => absurd hoffset (Nat.succ_ne_zero before.length).symm⟩

end Position

/-! ## The whole text -/

/-- The lexer stands on lines wherever it reports something. -/
structure Lexed.InLines (l : Lexed) (t : Text) : Prop where
  tokens : ∀ k ∈ l.tokens, k.span.start.InLine t ∧ k.span.stop.InLine t
  errors : ∀ e ∈ l.errors, e.span.start.InLine t
  finish : l.finish.InLine t

/-- The tokens of one step. -/
theorem scan_tokens_inLine {t : Text} {front back rest : List UInt16} {u : UInt16}
    (h : t.units = front ++ (u :: rest.take (scan u rest).extra) ++ back) :
    ∀ k ∈ (scan u rest).tokens (.after .origin front) (u :: rest.take (scan u rest).extra),
      k.span.start.InLine t ∧ k.span.stop.InLine t := by
  intro k hk
  rw [Scanned.tokens] at hk
  split at hk
  · next kind hpiece =>
      have hsolid := scan_solid hpiece
      rw [List.mem_singleton.mp hk]
      refine ⟨Position.inLine_start (h.trans (List.append_assoc _ _ _)) ?_, ?_⟩
      · rintro rfl
        exact absurd (hsolid lineFeed (.inl rfl)) (by decide)
      · obtain ⟨ws, v, hlast⟩ := List.eq_nil_or_concat' (u :: rest.take (scan u rest).extra)
          |>.resolve_left (List.cons_ne_nil _ _)
        have hv : v ≠ 0x0D := by
          rintro rfl
          exact absurd (hsolid 0x0D (.inr (by rw [hlast, List.getLast?_concat]))) (by decide)
        have hsplit : t.units = (front ++ ws) ++ v :: back := by
          rw [h, hlast, List.append_assoc, List.append_assoc, List.append_assoc,
            List.singleton_append]
        have hstop := Position.inLine_stop hsplit hv
        rw [List.append_assoc, ← hlast, Position.after_append] at hstop
        exact hstop
  · cases hk

/-- The errors of one step. -/
theorem scan_errors_inLine {t : Text} {front back rest : List UInt16} {u : UInt16}
    (h : t.units = front ++ (u :: rest.take (scan u rest).extra) ++ back) :
    ∀ e ∈ (scan u rest).errors (.after .origin front) (u :: rest.take (scan u rest).extra),
      e.span.start.InLine t := by
  intro e he
  rcases List.mem_append.mp he with he | he
  · obtain ⟨⟨k, escaped⟩, hmem, rfl⟩ := List.mem_map.mp he
    obtain ⟨before, behind, hlexeme, hk⟩ := scan_escapes hmem
    have htake : (u :: rest.take (scan u rest).extra).take k = before := by
      rw [hlexeme, hk, List.take_left]
    have hsplit : t.units = (front ++ before) ++ 0x5C :: (escaped :: behind ++ back) := by
      rw [h, hlexeme]
      simp
    show ((Position.origin.after front).after _).InLine t
    rw [htake, ← Position.after_append]
    exact Position.inLine_start hsplit (by decide)
  · split at he
    · next problem hpiece =>
        rw [List.mem_singleton.mp he]
        refine Position.inLine_start (h.trans (List.append_assoc _ _ _)) ?_
        rintro rfl
        exact absurd (scan_problem hpiece) (by decide)
    · cases he

theorem lexFrom_inLines (t : Text) (us front : List UInt16) (h : t.units = front ++ us) :
    (lexFrom false (.after .origin front) us).InLines t := by
  match us with
  | [] =>
      rw [lexFrom]
      exact ⟨fun _ hk => absurd hk List.not_mem_nil, fun _ he => absurd he List.not_mem_nil,
        Position.inLine_finish (by rw [h, List.append_nil])⟩
  | u :: rest =>
      have hsplit : t.units =
          front ++ (u :: rest.take (scan u rest).extra) ++ rest.drop (scan u rest).extra := by
        rw [h, List.append_assoc, List.cons_append, List.take_append_drop]
      have hrest := lexFrom_inLines t (rest.drop (scan u rest).extra)
        (front ++ u :: rest.take (scan u rest).extra) hsplit
      rw [Position.after_append] at hrest
      rw [lexFrom]
      exact ⟨List.forall_mem_append.mpr ⟨scan_tokens_inLine hsplit, hrest.tokens⟩,
        List.forall_mem_append.mpr ⟨scan_errors_inLine hsplit, hrest.errors⟩, hrest.finish⟩
termination_by us.length
decreasing_by simp only [List.length_drop, List.length_cons]; omega

/-- No token and no error begins, and no token ends, between a carriage return and its line
    feed. -/
theorem tokenize_inLine (source : Text) : (tokenize source false).InLines source :=
  lexFrom_inLines source source.units [] rfl

end SceneScript
