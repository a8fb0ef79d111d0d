import SceneScript.Diagnostic.Report
import SceneScript.Proofs.Diagnostic.Pipeline
import SceneScript.Proofs.Number.Printing
import SceneScript.Proofs.Text.Shown
import SceneScript.Proofs.Text.Splitting
import SceneScript.Proofs.Token.Edges
import SceneScript.Proofs.Typing.Visible

/-!
# Carets stand under what is meant

The line and the column of a diagnostic were counted by the lexer, which knows of line feeds only.
The line that is shown comes from another cut of the script, which takes a carriage return in front
of a line feed off the line. Both agree wherever something is reported: no diagnostic begins behind
such a carriage return, since nothing begins with a line feed and no token ends with a carriage
return.

* **`Position.InLine.line`** — a position of the script in the lines that are shown.
* **`Emitted.inLine`** — every stage reports at such positions.
* **`Diagnostic.PointsAt`** — the line exists, the column is on it, and the carets are where they
  should be.
* **`analyze_pointsAt`** — this holds of all diagnostics of an analysis.
-/

namespace SceneScript

/-! ## Lines -/

/-- The offset just behind the `n`th line feed, where line `n` begins. -/
def lineOffset : Nat → List UInt16 → Nat
  | 0, _           => 0
  | _ + 1, []      => 0
  | n + 1, u :: us => (if u = lineFeed then lineOffset n us else lineOffset (n + 1) us) + 1

theorem lineOffset_append (us rest : List UInt16) :
    lineOffset (us.count lineFeed + 1) (us ++ lineFeed :: rest) = us.length + 1 := by
  induction us with
  | nil =>
      show (if lineFeed = lineFeed then lineOffset 0 rest else _) + 1 = 1
      rw [if_pos rfl, lineOffset]
  | cons u us ih =>
      rw [List.cons_append, lineOffset, List.length_cons]
      by_cases hu : u = lineFeed
      · rw [if_pos hu, hu, List.count_cons_self, ih]
      · rw [if_neg hu, List.count_cons_of_ne hu, ih]

theorem length_splitUnits (us : List UInt16) :
    (Text.splitUnits lineFeed us).length = us.count lineFeed + 1 := by
  induction us with
  | nil => rfl
  | cons u us ih =>
      rw [Text.splitUnits]
      by_cases hu : u = lineFeed
      · rw [if_pos hu, hu, List.count_cons_self, List.length_cons, ih]
      · rw [if_neg hu, List.count_cons_of_ne hu, ← ih]
        cases h : Text.splitUnits lineFeed us with
        | nil => exact absurd h (Text.splitUnits_ne_nil us)
        | cons piece more => rfl

theorem stripReturns_append (lines : List (List UInt16)) {more : List (List UInt16)}
    (h : more ≠ []) :
    stripReturns (lines ++ more) = lines.map dropCarriageReturn ++ stripReturns more := by
  induction lines with
  | nil => rfl
  | cons line lines ih =>
      cases hrest : lines ++ more with
      | nil => exact absurd (List.append_eq_nil_iff.mp hrest).2 h
      | cons next rest =>
          rw [List.cons_append, hrest, stripReturns, ← hrest, ih, List.map_cons, List.cons_append]
          exact fun hnil => nomatch hnil

/-- Whole lines: no units, or units that end with a line feed. -/
def AreLines (us : List UInt16) : Prop := us = [] ∨ ∃ front, us = front ++ [lineFeed]

namespace AreLines

variable {above : List UInt16}

/-- Behind whole lines the next one begins. -/
theorem lineOffset_eq (h : AreLines above) (rest : List UInt16) :
    lineOffset (above.count lineFeed) (above ++ rest) = above.length := by
  rcases h with rfl | ⟨front, rfl⟩
  · rw [List.count_nil, lineOffset]
    rfl
  · rw [List.count_append, List.append_assoc, List.length_append]
    exact lineOffset_append front rest

/-- Whole lines are split apart from what is behind them. -/
theorem splitUnits_eq (h : AreLines above) (rest : List UInt16) :
    ∃ lines, Text.splitUnits lineFeed (above ++ rest) = lines ++ Text.splitUnits lineFeed rest ∧
      lines.length = above.count lineFeed := by
  rcases h with rfl | ⟨front, rfl⟩
  · exact ⟨[], rfl, rfl⟩
  · refine ⟨Text.splitUnits lineFeed front, ?_, ?_⟩
    · rw [List.append_assoc]
      exact Text.splitUnits_append rest front
    · rw [length_splitUnits, List.count_append]
      rfl

end AreLines

/-- Units end in a part of a line, behind whole lines. -/
theorem last_line (us : List UInt16) : ∃ above left, us = above ++ left ∧ AreLines above ∧
    lineFeed ∉ left ∧ lineStart us = above.length ∧ us.count lineFeed = above.count lineFeed := by
  obtain ⟨body, rest, hus, -, hbody, hrest⟩ := line_split us.reverse
  have hsplit : us = rest.reverse ++ body.reverse := by
    rw [← List.reverse_append, ← hus, List.reverse_reverse]
  have hleft : lineFeed ∉ body.reverse := by simpa using hbody
  have hdrop : us.reverse.dropWhile (· ≠ lineFeed) = rest := by
    have hpass : ∀ u ∈ body, (decide (u ≠ lineFeed)) = true := fun u hu => by
      rw [decide_eq_true_eq]
      rintro rfl
      exact hbody hu
    rw [hus, List.dropWhile_append_of_pos hpass]
    cases rest with
    | nil => rfl
    | cons u rest =>
        have hu : u = lineFeed := by simpa using hrest
        exact List.dropWhile_cons_of_neg (by simp [hu])
  refine ⟨rest.reverse, body.reverse, hsplit, ?_, hleft, ?_, ?_⟩
  · rcases hrest with rfl | hhead
    · exact .inl rfl
    · obtain ⟨more, rfl⟩ : ∃ more, rest = lineFeed :: more :=
        ⟨rest.tail, (List.cons_head?_tail hhead).symm⟩
      exact .inr ⟨more.reverse, List.reverse_cons⟩
  · rw [lineStart, hdrop, List.length_reverse]
  · conv_lhs => rw [hsplit, List.count_append, List.count_eq_zero_of_not_mem hleft]
    rfl

theorem dropCarriageReturn_prefix (us : List UInt16) : dropCarriageReturn us <+: us := by
  rw [dropCarriageReturn]
  split
  · exact List.dropLast_prefix us
  · exact List.prefix_rfl

/-- A line keeps its part up to a position that is not between a carriage return and its line
    feed. -/
theorem length_le_dropCarriageReturn {left right : List UInt16}
    (h : right = [] → left.getLast? ≠ some 0x0D) :
    left.length ≤ (dropCarriageReturn (left ++ right)).length := by
  rw [dropCarriageReturn]
  split
  · next hlast =>
      cases right with
      | nil =>
          rw [List.append_nil] at hlast
          exact absurd (beq_iff_eq.mp hlast) (h rfl)
      | cons u right =>
          rw [List.length_dropLast, List.length_append, List.length_cons]
          omega
  · rw [List.length_append]
    omega

/-- The line of a position is shown, the column of the position is on it, and the line stands in
    the script where its offset says. -/
theorem Position.InLine.line {t : Text} {p : Position} (h : p.InLine t) :
    ∃ text, (sourceLines t)[p.line]? = some text ∧ p.column ≤ text.length ∧
      p.offset = lineOffset p.line t.units + p.column ∧
      t.slice (lineOffset p.line t.units) (lineOffset p.line t.units + text.length) = text := by
  obtain ⟨above, left, hfront, habove, hleft, hstart, hcount⟩ := last_line (t.units.take p.offset)
  obtain ⟨right, below, hback, -, hright, hbelow⟩ := line_split (t.units.drop p.offset)
  have hunits : t.units = above ++ ((left ++ right) ++ below) := by
    rw [List.append_assoc left, ← List.append_assoc above, ← hfront, ← hback,
      List.take_append_drop]
  have hlength : p.offset = above.length + left.length := by
    rw [← List.length_append, ← hfront, List.length_take]
    exact (Nat.min_eq_left h.isIn.1).symm
  obtain ⟨hline, hcolumn⟩ : p.line = above.count lineFeed ∧ p.column = left.length := by
    rw [h.isIn.2, Text.positionAt]
    refine ⟨hcount, ?_⟩
    show p.offset - lineStart (t.units.take p.offset) = left.length
    rw [hstart, hlength, Nat.add_sub_cancel_left]
  obtain ⟨lines, hlines, hlinesLength⟩ := habove.splitUnits_eq ((left ++ right) ++ below)
  have hmiddle : lineFeed ∉ left ++ right := by
    rw [List.mem_append, not_or]
    exact ⟨hleft, hright⟩
  -- The line as it is shown begins with what is in front of the position.
  obtain ⟨shown, more, hshown, hprefix, hle⟩ : ∃ shown more,
      stripReturns (Text.splitUnits lineFeed ((left ++ right) ++ below)) = shown :: more ∧
      shown <+: left ++ right ∧ left.length ≤ shown.length := by
    rcases hbelow with rfl | hhead
    · rw [List.append_nil, Text.splitUnits_notMem hmiddle]
      exact ⟨_, [], rfl, List.prefix_rfl, by rw [List.length_append]; omega⟩
    · obtain ⟨rest, rfl⟩ : ∃ rest, below = lineFeed :: rest :=
        ⟨below.tail, (List.cons_head?_tail hhead).symm⟩
      have hstrip : stripReturns (Text.splitUnits lineFeed ((left ++ right) ++ lineFeed :: rest)) =
          dropCarriageReturn (left ++ right) :: stripReturns (Text.splitUnits lineFeed rest) := by
        rw [Text.splitUnits_append, Text.splitUnits_notMem hmiddle,
          stripReturns_append _ (Text.splitUnits_ne_nil rest)]
        rfl
      refine ⟨_, _, hstrip, dropCarriageReturn_prefix _, length_le_dropCarriageReturn ?_⟩
      rintro rfl hreturn
      obtain ⟨before, hbefore⟩ := List.getLast?_eq_some_iff.mp hreturn
      refine h.column (above ++ before) rest ?_ ?_
      · rw [hunits, hbefore]
        simp
      · rw [hlength, hbefore, List.length_append, List.length_append, Nat.add_assoc]
        rfl
  obtain ⟨hidden, hhidden⟩ := hprefix
  have hall : t.units = above ++ shown ++ (hidden ++ below) := by
    rw [hunits, ← hhidden]
    simp
  have hoffset : lineOffset p.line t.units = above.length := by
    rw [hline, hunits, habove.lineOffset_eq]
  refine ⟨⟨shown⟩, ?_, ?_, ?_, ?_⟩
  · have hlast : Text.splitUnits lineFeed ((left ++ right) ++ below) ≠ [] :=
      Text.splitUnits_ne_nil _
    rw [sourceLines, hunits, hlines, stripReturns_append _ hlast, hshown, List.map_append, hline,
      List.getElem?_append_right (by simp [hlinesLength])]
    simp [hlinesLength]
  · rw [hcolumn]
    exact hle
  · rw [hoffset, hcolumn, hlength]
  · rw [hoffset]
    exact Text.slice_append hall

/-! ## Rows -/

/-- The digits of a number. -/
theorem toNat_lt_of_mem_toString {n : Nat} {c : Char} (h : c ∈ (toString n).toList) :
    c.toNat < 0x80 := by
  have hdigits : (toString n).toList = Nat.toDigits 10 n := by
    rw [Nat.toString_eq_repr, Nat.repr_eq_ofList_toDigits, String.toList_ofList]
  rw [hdigits] at h
  have hdigit := Nat.isDigit_of_mem_toDigits (by decide) (by decide) h
  have hbounds : 48 ≤ c.toNat ∧ c.toNat ≤ 57 := by
    simpa [Char.isDigit, UInt32.le_iff_toNat_le] using hdigit
  omega

namespace Diagnostic

/-- What stands in front of the line that is shown. -/
def gutter (d : Diagnostic) : String := toString d.line ++ " | "

/-- What is shown under the carets. -/
def advice (d : Diagnostic) : String :=
  match d.hint with
  | some h => "\nhelp: " ++ h.toString
  | none   => ""

/-- A unit of a line is meant: it belongs to the stretch of the diagnostic, or the stretch has no
    unit on the line and would begin here. -/
def Marks (d : Diagnostic) (text : Text) (k : Nat) : Prop :=
  (d.column - 1 ≤ k ∧ k < min (d.column - 1 + d.length) text.length) ∨
  (text.length ≤ d.column - 1 ∧ k = d.column - 1)

/-- The diagnostic points at a line of a script: the line is there, the column is on it or at its
    end, and the offset is that of the column. Below the line stand carets, in the same columns as
    the units that are meant and nowhere else. -/
structure PointsAt (d : Diagnostic) (source text : Text) : Prop where
  line   : (sourceLines source)[d.line - 1]? = some text
  column : d.column - 1 ≤ text.length
  offset : d.span.start.offset = lineOffset (d.line - 1) source.units + (d.column - 1)
  stands : source.slice (lineOffset (d.line - 1) source.units)
    (lineOffset (d.line - 1) source.units + text.length) = text
  width  : (Text.ofString text.toString).length = text.length
  carets : ∀ filename, ∃ head row : String,
    d.render source filename =
      head ++ "\n" ++ d.gutter ++ text.toString ++ "\n" ++ row ++ d.advice ∧
    '\n' ∉ row.toList ∧
    ∀ j, (Text.ofString row).units[j]? = some (unitOf '^') ↔
      ∃ k, j = (Text.ofString d.gutter).length + k ∧ d.Marks text k

/-- The row of carets under a line. -/
def caretRow (d : Diagnostic) (text : Text) : String :=
  String.ofList (List.replicate (toString d.line).length ' ') ++ " | " ++
    String.ofList (List.replicate (d.column - 1) ' ') ++
    String.ofList (List.replicate (d.caretCount text.length) '^')

variable {d : Diagnostic} {source text : Text}

theorem render_eq (h : (sourceLines source)[d.line - 1]? = some text) (filename : Option String) :
    d.render source filename =
      (d.headline filename ++ "\n" ++ String.ofList (List.replicate (toString d.line).length ' ') ++
        " |") ++ "\n" ++ d.gutter ++ text.toString ++ "\n" ++ d.caretRow text ++ d.advice := by
  rw [render, advice, gutter, caretRow, h]
  cases d.hint with
  | none =>
      simp only [List.append_nil, Option.getD_some]
      rw [← String.toList_inj]
      simp
  | some hint =>
      simp only [Option.getD_some]
      rw [← String.toList_inj]
      simp

theorem toList_caretRow : (d.caretRow text).toList =
    List.replicate (toString d.line).length ' ' ++ [' ', '|', ' '] ++
      List.replicate (d.column - 1) ' ' ++ List.replicate (d.caretCount text.length) '^' := by
  simp [caretRow]

theorem mem_caretRow {c : Char} (h : c ∈ (d.caretRow text).toList) :
    c = ' ' ∨ c = '|' ∨ c = '^' := by
  rw [toList_caretRow] at h
  simp only [List.mem_append, List.mem_replicate, List.mem_cons, List.not_mem_nil, or_false] at h
  tauto

theorem length_gutter : (Text.ofString d.gutter).length = (toString d.line).length + 3 := by
  have hplain : ∀ c ∈ d.gutter.toList, c.toNat < 0x10000 := by
    intro c hc
    rw [gutter, String.toList_append] at hc
    rcases List.mem_append.mp hc with hc | hc
    · have := toNat_lt_of_mem_toString hc
      omega
    · rcases (by simpa using hc : c = ' ' ∨ c = '|' ∨ c = ' ') with rfl | rfl | rfl <;> decide
  rw [Text.length, units_ofString hplain, List.length_map, gutter, String.toList_append,
    List.length_append]
  rfl

/-- The carets begin in the column, and there are as many as units are meant. -/
theorem units_caretRow (j : Nat) :
    (Text.ofString (d.caretRow text)).units[j]? = some (unitOf '^') ↔
      (toString d.line).length + 3 + (d.column - 1) ≤ j ∧
        j < (toString d.line).length + 3 + (d.column - 1) + d.caretCount text.length := by
  have hplain : ∀ c ∈ (d.caretRow text).toList, c.toNat < 0x10000 := by
    intro c hc
    rcases mem_caretRow hc with rfl | rfl | rfl <;> decide
  have hfront : ∀ c ∈ List.replicate (toString d.line).length ' ' ++ [' ', '|', ' '] ++
      List.replicate (d.column - 1) ' ', unitOf c ≠ unitOf '^' := by
    intro c hc
    simp only [List.mem_append, List.mem_replicate, List.mem_cons, List.not_mem_nil, or_false] at hc
    rcases hc with (⟨-, rfl⟩ | rfl | rfl | rfl) | ⟨-, rfl⟩ <;> decide
  have hlength : (List.replicate (toString d.line).length ' ' ++ [' ', '|', ' '] ++
      List.replicate (d.column - 1) ' ').length =
        (toString d.line).length + 3 + (d.column - 1) := by
    rw [List.length_append, List.length_append, List.length_replicate, List.length_replicate]
    rfl
  rw [units_ofString hplain, toList_caretRow, List.map_append, List.getElem?_append,
    List.length_map, hlength]
  split
  · next hj =>
      constructor
      · intro hcaret
        obtain ⟨c, hc, heq⟩ := List.mem_map.mp (List.mem_of_getElem? hcaret)
        exact absurd heq (hfront c hc)
      · intro h
        omega
  · next hj =>
      rw [List.map_replicate, List.getElem?_replicate]
      split
      · next hlt =>
          refine iff_of_true rfl ?_
          omega
      · next hge =>
          refine iff_of_false (fun h => nomatch h) ?_
          omega

/-- A diagnostic that begins on the lines of a script points at its line. -/
theorem pointsAt_of_inLine (h : d.span.start.InLine source) : ∃ text, d.PointsAt source text := by
  obtain ⟨text, hline, hcolumn, hoffset, hstands⟩ := h.line
  refine ⟨text, hline, hcolumn, hoffset, hstands, length_ofString_toString text, fun filename => ?_⟩
  refine ⟨_, d.caretRow text, render_eq hline filename, fun hfeed => ?_, fun j => ?_⟩
  · rcases mem_caretRow hfeed with h | h | h <;> revert h <;> decide
  · have hcount : d.caretCount text.length =
        max 1 (min d.length (text.length - (d.column - 1))) := by
      rw [caretCount]
      omega
    rw [units_caretRow, length_gutter, hcount]
    have hcol : d.column - 1 ≤ text.length := hcolumn
    have hone : 1 ≤ d.length := Nat.le_max_left _ _
    constructor
    · intro hj
      refine ⟨j - ((toString d.line).length + 3), by omega, ?_⟩
      rw [Marks]
      omega
    · rintro ⟨k, rfl, hk⟩
      rw [Marks] at hk
      omega

end Diagnostic

/-! ## What is reported -/

theorem firstUnreachable?_begins {β : Type} {P : Position → Prop} {body : List (Stmt β)}
    (h : TreesBegin P (stmtTrees body)) {s : Stmt β} (hs : firstUnreachable? body = some s) :
    s.tree.Begins P := by
  fun_induction firstUnreachable? body with
  | case1 => cases hs
  | case2 st rest hreturns =>
      cases rest with
      | nil => cases hs
      | cons next more =>
          cases hs
          exact (treesBegin_cons.mp (treesBegin_cons.mp h).2).1
  | case3 st rest hgoes ih => exact ih (treesBegin_cons.mp h).2 hs

mutual

/-- Unreachable statements are statements of the script. -/
theorem Stmt.unreachable_begins {β : Type} {P : Position → Prop} : ∀ st : Stmt β, st.tree.Begins P →
    ∀ s ∈ st.unreachable, s.tree.Begins P
  | .block b, h => b.unreachable_begins h
  | .cond c, h => c.unreachable_begins h
  | .loop _ _ body, h => by
      simp only [Stmt.tree, Tree.begins_node, treesBegin_cons] at h
      exact body.unreachable_begins h.2.2.1
  | .bind _ _ _ _ _ _, _ => fun _ hs => absurd hs List.not_mem_nil
  | .assign _ _ _ _, _ => fun _ hs => absurd hs List.not_mem_nil
  | .ret _ _, _ => fun _ hs => absurd hs List.not_mem_nil
  | .eval _ _, _ => fun _ hs => absurd hs List.not_mem_nil

theorem Block.unreachable_begins {β : Type} {P : Position → Prop} : ∀ b : Block β,
    b.tree.Begins P → ∀ s ∈ b.unreachable, s.tree.Begins P
  | .mk _ body, h => by
      have hbody := (Tree.begins_node.mp h).2
      rw [Block.unreachable]
      refine List.forall_mem_append.mpr ⟨fun s hs => ?_, stmtsUnreachable_begins body hbody⟩
      exact firstUnreachable?_begins hbody (Option.mem_toList.mp hs)

theorem Cond.unreachable_begins {β : Type} {P : Position → Prop} : ∀ c : Cond β,
    c.tree.Begins P → ∀ s ∈ c.unreachable, s.tree.Begins P
  | .mk _ _ consequent alternate, h => by
      simp only [Cond.tree, Tree.begins_node, treesBegin_cons] at h
      exact List.forall_mem_append.mpr
        ⟨consequent.unreachable_begins h.2.2.1, alternate.unreachable_begins h.2.2.2⟩

theorem Else.unreachable_begins {β : Type} {P : Position → Prop} : ∀ a : Else β,
    TreesBegin P a.trees → ∀ s ∈ a.unreachable, s.tree.Begins P
  | .absent, _ => fun _ hs => absurd hs List.not_mem_nil
  | .block b, h => b.unreachable_begins (h _ List.mem_cons_self)
  | .cond c, h => c.unreachable_begins (h _ List.mem_cons_self)

theorem stmtsUnreachable_begins {β : Type} {P : Position → Prop} : ∀ body : List (Stmt β),
    TreesBegin P (stmtTrees body) → ∀ s ∈ stmtsUnreachable body, s.tree.Begins P
  | [], _ => fun _ hs => absurd hs List.not_mem_nil
  | st :: rest, h => by
      obtain ⟨hst, hrest⟩ := treesBegin_cons.mp h
      exact List.forall_mem_append.mpr
        ⟨st.unreachable_begins hst, stmtsUnreachable_begins rest hrest⟩

end

theorem Stmt.begins_span {β : Type} {P : Position → Prop} {st : Stmt β} (h : st.tree.Begins P) :
    P st.span.start := by
  cases st with
  | block b => exact b.begins_span h
  | cond c =>
      cases c
      exact h.start
  | _ => exact h.start

/-- The linter reports variables where they are declared, and statements. -/
theorem lint_begins {P : Position → Prop} {p : Program Unit} (h : p.tree.Begins P)
    (rules : LintRules) : ∀ d ∈ lint rules p (checkProgram p).symbols, P d.span.start := by
  intro d hd
  rcases List.mem_append.mp hd with hd | hd
  · obtain ⟨info, hinfo, hd⟩ := List.mem_flatMap.mp hd
    have hdeclared : P info.declared.id.span.start := by
      obtain ⟨f, hf, heq⟩ := List.mem_filterMap.mp hinfo
      have hfound := checkProgram_foundIn h f hf
      cases f <;> cases heq
      exact hfound
    have hspan : d.span = info.declared.id.span := by
      rw [lintSymbol] at hd
      split at hd
      · cases hd
      · rcases List.mem_append.mp hd with hd | hd
        all_goals
          split at hd
          · rw [List.mem_singleton.mp hd]
            rfl
          · cases hd
    rw [hspan]
    exact hdeclared
  · split at hd
    · obtain ⟨s, hs, rfl⟩ := List.mem_map.mp hd
      obtain ⟨f, hf, hs⟩ := List.mem_flatMap.mp hs
      obtain ⟨-, -, -, hbody⟩ := FunctionDecl.begins_tree (begins_function h f hf)
      exact Stmt.begins_span (f.body.unreachable_begins hbody s hs)
    · cases hd

/-- Every stage reports at positions on the lines of the script. -/
theorem Emitted.inLine {source : Text} {rules : Option LintRules} {d : Diagnostic}
    (h : Emitted source rules d) : d.span.start.InLine source := by
  have hlexed := tokenize_inLine source
  obtain ⟨hprogram, hreported⟩ :=
    parseTokens_begins hlexed.tokens (Position.inLine_origin source) hlexed.finish
  cases h with
  | lexer e he => exact hlexed.errors e he
  | parser _ _ hd => exact hreported d hd
  | checker _ _ _ hd =>
      obtain ⟨f, hf, heq⟩ := List.mem_filterMap.mp hd
      have hfound := checkProgram_foundIn hprogram f hf
      cases f <;> cases heq
      exact hfound.1
  | linter _ r _ _ _ hd => exact lint_begins hprogram r d hd

theorem mem_capDiagnostics {list : List Diagnostic} {limit : Int} {d : Diagnostic}
    (h : d ∈ capDiagnostics list limit) : d ∈ list := by
  have hlimit : capDiagnostics list limit = capDiagnostics list (limit.toNat : Int) := by
    rw [capDiagnostics, capDiagnostics, Int.toNat_natCast]
  obtain ⟨kept, all, hcap, hsome, hperm, -⟩ := capDiagnostics_cases list limit.toNat
  rw [hlimit, hcap] at h
  exact hperm.subset (hsome.subset (List.mem_mergeSort.mp h))

/-- What an analysis keeps was reported by a stage, whatever the limit. -/
theorem analyze_emitted {source : Text} {o : AnalysisOptions} {d : Diagnostic}
    (h : d ∈ (analyze source o).kept) : Emitted source o.lint d := by
  obtain ⟨collected, hmem, -, hkept, -⟩ := analyze_cases source o
  obtain ⟨hsub, -⟩ := dedupeDiagnostics_spec fun d hd => ((hmem d).mp hd).coded
  rw [hkept] at h
  exact (hmem d).mp (hsub d (mem_capDiagnostics h))

/-- Carets point at the reported text. Every diagnostic of an analysis names a line of the script
    and a column on it, begins in the script where that column is, and is shown with carets under
    the part of that line that belongs to it. -/
theorem analyze_pointsAt (source : Text) (o : AnalysisOptions) {d : Diagnostic}
    (h : d ∈ (analyze source o).kept) : ∃ text, d.PointsAt source text :=
  Diagnostic.pointsAt_of_inLine (analyze_emitted h).inLine

/-- In a script with carriage returns a name is underlined at the end of its line. -/
theorem analyze_pointsAt_returns :
    let source : Text := "let a = 1;\r\nlet b = a + c\r\n;"
    let d := (Problem.undefinedVariable "c" ["a"]).diagnostic ⟨⟨24, 1, 12⟩, ⟨25, 1, 13⟩⟩
    d ∈ (analyze source {}).kept ∧ ∃ text, d.PointsAt source text := by
  intro source d
  have hlex : (tokenize source false).errors = [] := by decide +kernel
  have hread : (readText source).diagnostics = [] := by decide +kernel
  have hfound : (checkProgram (readText source).program).diagnostics ++
      lint {} (readText source).program (checkProgram (readText source).program).symbols = [d] := by
    decide +kernel
  have hkept : (analyze source {}).kept = capDiagnostics (dedupeDiagnostics [d]) 200 := by
    rw [← hfound]
    rw [readText] at hread
    simp only [analyze, hlex, hread, hasErrors]
    rfl
  have hsorted : sortDiagnostics [d] = [d] := List.mergeSort_singleton d
  have hmem : d ∈ (analyze source {}).kept := by
    rw [hkept, dedupeDiagnostics, hsorted]
    show d ∈ sortDiagnostics [d]
    rw [hsorted]
    exact List.mem_cons_self
  exact ⟨hmem, analyze_pointsAt source {} hmem⟩

end SceneScript
