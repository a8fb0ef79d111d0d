import SceneScript.Proofs.Token.LineEnds

/-!
# Lexing line by line

The tokens and the errors of two texts with a line feed between them are those of the first and,
further down, those of the second. There is one exception: a string that is not closed when its
line ends in a backslash takes the line feed for an escape and goes on to the next line.

* **`Lexed.followedBy`**, **`Lexed.down`** — lexed texts one below the other.
* **`Text.EndsInEscape`** — the text ends in a string, and there in a backslash that begins an
  escape.
* **`lexFrom_stop`** — units that do not break off are read alike in front of a line feed;
  **`lexFrom_breaksOff`** — what becomes of those that do.
* **`lexFrom_onLines`** — tokens and errors keep to their lines exactly when no line feed is
  escaped.
* **`tokenize_above`** — whole texts.
-/

namespace SceneScript

/-! ## Texts one below the other -/

/-- The position, `offset` units and `lines` lines further down. -/
def Position.down (p : Position) (offset lines : Nat) : Position :=
  ⟨p.offset + offset, p.line + lines, p.column⟩

/-- The span, further down. -/
def Span.down (s : Span) (offset lines : Nat) : Span :=
  ⟨s.start.down offset lines, s.stop.down offset lines⟩

/-- The token, further down. -/
def Token.down (t : Token) (offset lines : Nat) : Token :=
  { t with span := t.span.down offset lines }

/-- The error, further down. -/
def LexError.down (e : LexError) (offset lines : Nat) : LexError :=
  { e with span := e.span.down offset lines }

namespace Lexed

/-- The lexed text, further down. -/
def down (l : Lexed) (offset lines : Nat) : Lexed :=
  ⟨l.tokens.map (·.down offset lines), l.errors.map (·.down offset lines),
    l.finish.down offset lines⟩

/-- The tokens and the errors of one lexed text and of another behind it. -/
def followedBy (l m : Lexed) : Lexed := ⟨l.tokens ++ m.tokens, l.errors ++ m.errors, m.finish⟩

/-- Some string is unterminated and goes on to offset `n`. -/
def StringRunsTo (l : Lexed) (n : Nat) : Prop :=
  ∃ e ∈ l.errors, e.problem = .unterminatedString ∧ e.span.stop.offset = n

end Lexed

/-- The number of lines of a text. -/
def Text.lineCount (t : Text) : Nat := t.units.count lineFeed + 1

/-- The text ends in a string, and there in a backslash that begins an escape. -/
def Text.EndsInEscape (t : Text) : Prop :=
  (tokenize t false).StringRunsTo t.length ∧ trailingBackslashes t.units % 2 = 1

theorem Position.after_down (p : Position) (offset lines : Nat) (us : List UInt16) :
    (p.down offset lines).after us = (p.after us).down offset lines := by
  induction us generalizing p with
  | nil => rfl
  | cons u us ih =>
      have hnext : (p.down offset lines).next u = (p.next u).down offset lines := by
        simp only [next, down]
        split_ifs
        · rw [Nat.add_right_comm, Nat.add_right_comm p.line]
        · rw [Nat.add_right_comm]
      change ((p.down offset lines).next u).after us = _
      rw [hnext, ih]
      rfl

/-- What one step adds to a lexed text. -/
def Scanned.lexed (s : Scanned) (p : Position) (lexeme : List UInt16) : Lexed :=
  ⟨s.tokens p lexeme, s.errors p lexeme, p.after lexeme⟩

theorem Lexed.followedBy_assoc (l m n : Lexed) :
    (l.followedBy m).followedBy n = l.followedBy (m.followedBy n) := by
  simp only [followedBy, List.append_assoc]

theorem Lexed.followedBy_down (l m : Lexed) (offset lines : Nat) :
    (l.followedBy m).down offset lines =
      (l.down offset lines).followedBy (m.down offset lines) := by
  simp only [followedBy, down, List.map_append]

theorem Scanned.lexed_down (s : Scanned) (p : Position) (offset lines : Nat)
    (lexeme : List UInt16) :
    s.lexed (p.down offset lines) lexeme = (s.lexed p lexeme).down offset lines := by
  simp only [lexed, tokens, errors, Lexed.down, Position.after_down, List.map_append, List.map_map]
  congr 1
  · cases s.piece <;> rfl
  · congr 1
    cases s.piece <;> rfl

/-- The first step, and the rest of the text behind it. -/
theorem lexFrom_step (p : Position) (u : UInt16) (rest : List UInt16) :
    lexFrom false p (u :: rest) =
      ((scan u rest).lexed p (u :: rest.take (scan u rest).extra)).followedBy
        (lexFrom false (p.after (u :: rest.take (scan u rest).extra))
          (rest.drop (scan u rest).extra)) := by
  rw [lexFrom]
  simp only [Bool.false_and, Bool.false_eq_true, if_false]
  rfl

/-- Where reading begins only moves what is reported. -/
theorem lexFrom_down (p : Position) (offset lines : Nat) (us : List UInt16) :
    lexFrom false (p.down offset lines) us = (lexFrom false p us).down offset lines := by
  match us with
  | [] =>
      rw [lexFrom, lexFrom]
      rfl
  | u :: rest =>
      have ih := lexFrom_down (p.after (u :: rest.take (scan u rest).extra)) offset lines
        (rest.drop (scan u rest).extra)
      rw [lexFrom_step, lexFrom_step, Scanned.lexed_down, Position.after_down, ih,
        Lexed.followedBy_down]
termination_by us.length
decreasing_by simp only [List.length_drop, List.length_cons]; omega

theorem lexFrom_lineFeed (p : Position) (vs : List UInt16) :
    lexFrom false p (lineFeed :: vs) = lexFrom false (p.next lineFeed) vs := by
  rw [lexFrom_step, scan_lineFeed]
  rfl

/-! ## A line feed between two texts -/

/-- The units from `front` on end in a string, and they end in an escape. -/
def BreaksOff (front us : List UInt16) : Prop :=
  (lexFrom false (.after .origin front) us).StringRunsTo (front ++ us).length ∧
    trailingBackslashes (front ++ us) % 2 = 1

theorem Scanned.errors_stringRunsTo {s : Scanned} {p : Position} {lexeme : List UInt16} {n : Nat} :
    (s.lexed p lexeme).StringRunsTo n ↔
      s.piece = .problem .unterminatedString ∧ (p.after lexeme).offset = n := by
  constructor
  · rintro ⟨e, he, hproblem, hstop⟩
    rcases List.mem_append.mp he with he | he
    · obtain ⟨x, -, rfl⟩ := List.mem_map.mp he
      cases hproblem
    · split at he
      · next hpiece =>
          rw [List.mem_singleton.mp he] at hproblem hstop
          exact ⟨hpiece.trans (congrArg Piece.problem hproblem), hstop⟩
      · cases he
  · rintro ⟨hpiece, hstop⟩
    refine ⟨⟨.unterminatedString, ⟨p, p.after lexeme⟩⟩, ?_, rfl, hstop⟩
    rw [lexed, errors, hpiece]
    exact List.mem_append_right _ (List.mem_singleton_self _)

theorem Lexed.followedBy_stringRunsTo {l m : Lexed} {n : Nat} :
    (l.followedBy m).StringRunsTo n ↔ l.StringRunsTo n ∨ m.StringRunsTo n := by
  simp only [StringRunsTo, followedBy, List.mem_append, or_and_right, exists_or]

/-- A text breaks off in its first step or behind it. -/
theorem breaksOff_step (front : List UInt16) (u : UInt16) (rest : List UInt16) :
    BreaksOff front (u :: rest) ↔
      (u = 0x22 ∧ (scanString 1 rest).BreaksOff rest) ∨
      BreaksOff (front ++ u :: rest.take (scan u rest).extra) (rest.drop (scan u rest).extra) := by
  have hle := scan_extra_le u rest
  have hsplit : front ++ u :: rest.take (scan u rest).extra ++ rest.drop (scan u rest).extra =
      front ++ u :: rest := by
    rw [List.append_assoc, List.cons_append, List.take_append_drop]
  have hfirst : ((scan u rest).lexed (.after .origin front)
        (u :: rest.take (scan u rest).extra)).StringRunsTo (front ++ u :: rest).length ∧
        trailingBackslashes (front ++ u :: rest) % 2 = 1 ↔
      u = 0x22 ∧ (scanString 1 rest).BreaksOff rest := by
    rw [Scanned.errors_stringRunsTo, scan_unterminated_iff, Position.offset_after_lexeme]
    simp only [List.length_append, List.length_cons, List.length_take, Nat.min_eq_left hle]
    constructor
    · rintro ⟨⟨⟨rfl, hclosed⟩, hlength⟩, htrailing⟩
      rw [trailingBackslashes_append (by decide)] at htrailing
      have hsize : (scan 0x22 rest).extra = (scanString 1 rest).size := by rw [scan_quote]; rfl
      exact ⟨rfl, hclosed, by omega, htrailing⟩
    · rintro ⟨rfl, hclosed, hsize, htrailing⟩
      have hextra : (scan 0x22 rest).extra = rest.length := by rw [scan_quote]; exact hsize
      rw [trailingBackslashes_append (by decide), hextra]
      exact ⟨⟨⟨rfl, hclosed⟩, by omega⟩, htrailing⟩
  rw [BreaksOff, BreaksOff, lexFrom_step, Lexed.followedBy_stringRunsTo, or_and_right, hfirst,
    hsplit, Position.after_append]

theorem breaksOff_nil (front : List UInt16) : ¬BreaksOff front [] := by
  rintro ⟨⟨e, he, -⟩, -⟩
  rw [lexFrom] at he
  cases he

/-- Units that do not break off are read alike in front of a line feed, and what is behind it is
    read from there. -/
theorem lexFrom_stop (front us vs : List UInt16) (h : ¬BreaksOff front us) :
    lexFrom false (.after .origin front) (us ++ lineFeed :: vs) =
      (lexFrom false (.after .origin front) us).followedBy
        (lexFrom false (.after .origin (front ++ us ++ [lineFeed])) vs) := by
  match us with
  | [] =>
      rw [List.append_nil, List.nil_append, lexFrom_lineFeed, lexFrom, Position.after_append]
      rfl
  | u :: rest =>
      rw [breaksOff_step, not_or] at h
      obtain ⟨hfirst, hrest⟩ := h
      have hle := scan_extra_le u rest
      have hsplit : front ++ u :: rest =
          front ++ u :: rest.take (scan u rest).extra ++ rest.drop (scan u rest).extra := by
        rw [List.append_assoc, List.cons_append, List.take_append_drop]
      have ih := lexFrom_stop (front ++ u :: rest.take (scan u rest).extra)
        (rest.drop (scan u rest).extra) vs hrest
      rw [Position.after_append] at ih
      rw [List.cons_append, lexFrom_step, scan_stop vs hfirst, List.take_append_of_le_length hle,
        List.drop_append_of_le_length hle, ih, lexFrom_step, Lexed.followedBy_assoc, hsplit]
termination_by us.length
decreasing_by simp only [List.length_drop, List.length_cons]; omega

theorem Lexed.errors_followedBy {l : Lexed} {before after : List LexError} {e : LexError}
    (h : l.errors = before ++ e :: after) (m : Lexed) :
    (l.followedBy m).errors = before ++ e :: (after ++ m.errors) := by
  rw [followedBy, h, List.append_assoc, List.cons_append]

theorem Lexed.followedBy_errors {m : Lexed} {before after : List LexError} {e : LexError}
    (l : Lexed) (h : m.errors = before ++ e :: after) :
    (l.followedBy m).errors = l.errors ++ before ++ e :: after := by
  rw [followedBy, h, List.append_assoc]

/-- Units that break off end in an unterminated string; with a line feed behind them they have an
    invalid escape in its place. -/
theorem lexFrom_breaksOff (front us vs : List UInt16) (h : BreaksOff front us) :
    ∃ before start after,
      (lexFrom false (.after .origin front) us).errors =
        before ++ [⟨.unterminatedString, ⟨start, .after .origin (front ++ us)⟩⟩] ∧
      (lexFrom false (.after .origin front) (us ++ lineFeed :: vs)).errors =
        before ++ ⟨.invalidEscape lineFeed, ⟨.after .origin (front ++ us).dropLast,
          .after .origin (front ++ us ++ [lineFeed])⟩⟩ :: after := by
  match us with
  | [] => exact absurd h (breaksOff_nil front)
  | u :: rest =>
      have hle := scan_extra_le u rest
      rw [lexFrom_step, List.cons_append, lexFrom_step]
      by_cases hfirst : u = 0x22 ∧ (scanString 1 rest).BreaksOff rest
      · obtain ⟨rfl, hbody⟩ := hfirst
        have hextra : (scan 0x22 rest).extra = rest.length := by rw [scan_quote]; exact hbody.2.1
        obtain ⟨before, after, hown, hjoined⟩ :=
          stringStep_breaksOff vs (.after .origin front) hbody
        have hlast : front ++ ((0x22 : UInt16) :: rest).dropLast =
            (front ++ 0x22 :: rest).dropLast :=
          (List.dropLast_append_of_ne_nil (List.cons_ne_nil _ _)).symm
        rw [← Position.after_append] at hown
        rw [← Position.after_append, ← Position.after_append, hlast, ← List.append_assoc] at hjoined
        rw [hextra, List.take_length, List.drop_length, lexFrom]
        exact ⟨before, .after .origin front, _, (List.append_nil _).trans hown,
          Lexed.errors_followedBy hjoined _⟩
      · have hrest := ((breaksOff_step front u rest).mp h).resolve_left hfirst
        have hsplit : front ++ u :: rest =
            front ++ u :: rest.take (scan u rest).extra ++ rest.drop (scan u rest).extra := by
          rw [List.append_assoc, List.cons_append, List.take_append_drop]
        obtain ⟨before, start, after, hown, hjoined⟩ :=
          lexFrom_breaksOff (front ++ u :: rest.take (scan u rest).extra)
            (rest.drop (scan u rest).extra) vs hrest
        rw [Position.after_append] at hown hjoined
        rw [scan_stop vs hfirst, List.take_append_of_le_length hle,
          List.drop_append_of_le_length hle, hsplit]
        exact ⟨_, start, after, Lexed.followedBy_errors _ hown, Lexed.followedBy_errors _ hjoined⟩
termination_by us.length
decreasing_by simp only [List.length_drop, List.length_cons]; omega

/-! ## Line breaks inside a token or an error -/

/-- No token and no error begins on one line and ends on another. -/
def Lexed.OnLines (l : Lexed) : Prop :=
  (∀ k ∈ l.tokens, k.span.start.line = k.span.stop.line) ∧
    ∀ e ∈ l.errors, e.span.start.line = e.span.stop.line

/-- Some line feed is an invalid escape. -/
def Lexed.EscapesLine (l : Lexed) : Prop := ∃ e ∈ l.errors, e.problem = .invalidEscape lineFeed

theorem Position.line_after (p : Position) (us : List UInt16) :
    (p.after us).line = p.line + us.count lineFeed := by
  induction us generalizing p with
  | nil => rfl
  | cons u us ih =>
      have hnext : (p.next u).line = p.line + if u = lineFeed then 1 else 0 := by
        rw [next]
        split_ifs <;> rfl
      change ((p.next u).after us).line = _
      rw [ih, hnext, List.count_cons, Nat.add_assoc, Nat.add_comm (List.count _ _)]
      simp only [beq_iff_eq]

theorem Lexed.followedBy_onLines {l m : Lexed} :
    (l.followedBy m).OnLines ↔ l.OnLines ∧ m.OnLines := by
  simp only [OnLines, followedBy, List.forall_mem_append]
  tauto

theorem Lexed.followedBy_escapesLine {l m : Lexed} :
    (l.followedBy m).EscapesLine ↔ l.EscapesLine ∨ m.EscapesLine := by
  simp only [EscapesLine, followedBy, List.mem_append, or_and_right, exists_or]

/-- An invalid escape lies on one line unless it is that of a line feed. -/
theorem escapeError_line {u : UInt16} {rest : List UInt16} {x : Nat × UInt16}
    (h : x ∈ (scan u rest).escapes) (p : Position) :
    (p.after ((u :: rest.take (scan u rest).extra).take x.1)).line =
      (p.after ((u :: rest.take (scan u rest).extra).take (x.1 + 2))).line ↔ x.2 ≠ lineFeed := by
  obtain ⟨front, back, hlexeme, hk⟩ := scan_escapes (k := x.1) (e := x.2) h
  have hfront : (front ++ 0x5C :: x.2 :: back).take x.1 = front := List.take_left' hk.symm
  have hescape : (front ++ 0x5C :: x.2 :: back).take (x.1 + 2) = front ++ [0x5C, x.2] := by
    rw [hk, List.take_length_add_append]
    rfl
  rw [hlexeme, hfront, hescape, Position.line_after, Position.line_after, List.count_append]
  by_cases hx : x.2 = lineFeed
  · rw [hx]
    simp [lineFeed]
  · have hcount : List.count lineFeed [0x5C, x.2] = 0 :=
      List.count_eq_zero.mpr (by simpa [lineFeed] using Ne.symm hx)
    simp [hcount, hx]

/-- A step crosses a line break only by an escape of it, and that does cross it. -/
theorem scan_onLines (p : Position) (u : UInt16) (rest : List UInt16) :
    ((scan u rest).lexed p (u :: rest.take (scan u rest).extra)).OnLines ↔
      ¬((scan u rest).lexed p (u :: rest.take (scan u rest).extra)).EscapesLine := by
  constructor
  · rintro ⟨-, herrors⟩ ⟨e, he, hproblem⟩
    have hline := herrors e he
    rcases List.mem_append.mp he with he | he
    · obtain ⟨x, hx, rfl⟩ := List.mem_map.mp he
      exact (escapeError_line hx p).mp hline (LexProblem.invalidEscape.inj hproblem)
    · split at he
      · next hpiece =>
          rw [List.mem_singleton.mp he] at hproblem
          have hescape := hpiece.trans (congrArg Piece.problem hproblem)
          exact scan_piece_ne_escape u rest lineFeed hescape
      · cases he
  · intro hno
    have hescapes : ∀ x ∈ (scan u rest).escapes, x.2 ≠ lineFeed := by
      intro x hx hline
      refine hno ⟨_, List.mem_append_left _ (List.mem_map_of_mem hx), ?_⟩
      exact congrArg LexProblem.invalidEscape hline
    have hlexeme : (scan u rest).piece ≠ .trivia →
        p.line = (p.after (u :: rest.take (scan u rest).extra)).line := by
      intro hpiece
      have hnot : lineFeed ∉ u :: rest.take (scan u rest).extra := by
        intro hmem
        obtain ⟨k, hk⟩ := scan_crosses hpiece hmem
        exact hescapes _ hk rfl
      rw [Position.line_after, List.count_eq_zero.mpr hnot, Nat.add_zero]
    refine ⟨fun k hk => ?_, fun e he => ?_⟩
    · simp only [Scanned.lexed, Scanned.tokens] at hk
      split at hk
      · next hpiece =>
          rw [List.mem_singleton.mp hk]
          exact hlexeme (by rw [hpiece]; exact Piece.noConfusion)
      · cases hk
    · rcases List.mem_append.mp he with he | he
      · obtain ⟨x, hx, rfl⟩ := List.mem_map.mp he
        exact (escapeError_line hx p).mpr (hescapes x hx)
      · split at he
        · next hpiece =>
            rw [List.mem_singleton.mp he]
            exact hlexeme (by rw [hpiece]; exact Piece.noConfusion)
        · cases he

/-- Tokens and errors keep to their lines exactly when no line feed is an invalid escape. -/
theorem lexFrom_onLines (p : Position) (us : List UInt16) :
    (lexFrom false p us).OnLines ↔ ¬(lexFrom false p us).EscapesLine := by
  match us with
  | [] =>
      rw [lexFrom]
      simp [Lexed.OnLines, Lexed.EscapesLine]
  | u :: rest =>
      rw [lexFrom_step, Lexed.followedBy_onLines, Lexed.followedBy_escapesLine, not_or,
        scan_onLines, lexFrom_onLines]
termination_by us.length
decreasing_by simp only [List.length_drop, List.length_cons]; omega

theorem Text.after_origin {t : Text} {front rest : List UInt16} (h : t.units = front ++ rest) :
    Position.after .origin front = t.positionAt front.length := by
  have hin := (Position.isIn_after h).2
  rwa [Position.offset_after] at hin

/-- Two texts with a line feed between them. -/
def Text.above (s t : Text) : Text := ⟨s.units ++ lineFeed :: t.units⟩

/-- Lexing goes line by line, but for a string that is not closed when its line ends in a
    backslash. Of two texts with a line feed between them, the tokens and the errors are those of
    the first and then those of the second, further down, exactly when the first does not end in
    an escape; a string that is open at the line feed is then unterminated. When it does, the
    string is not reported there: the line feed is an invalid escape of it. A token or an error
    lies on one line unless a line feed is escaped so. -/
theorem tokenize_above (s t : Text) :
    (tokenize (s.above t) false =
        (tokenize s false).followedBy ((tokenize t false).down (s.length + 1) s.lineCount) ↔
      ¬s.EndsInEscape) ∧
    ((tokenize s false).StringRunsTo s.length → ¬s.EndsInEscape →
      (tokenize (s.above t) false).StringRunsTo s.length) ∧
    (s.EndsInEscape → ∃ before start after,
      (tokenize s false).errors =
        before ++ [⟨.unterminatedString, ⟨start, s.positionAt s.length⟩⟩] ∧
      (tokenize (s.above t) false).errors =
        before ++ ⟨.invalidEscape lineFeed, ⟨s.positionAt (s.length - 1),
          (s.above t).positionAt (s.length + 1)⟩⟩ :: after) ∧
    ((tokenize s false).OnLines ↔ ¬(tokenize s false).EscapesLine) := by
  have hends : s.EndsInEscape ↔ BreaksOff [] s.units := Iff.rfl
  have hbroken : s.EndsInEscape → ∃ before start after,
      (tokenize s false).errors =
        before ++ [⟨.unterminatedString, ⟨start, s.positionAt s.length⟩⟩] ∧
      (tokenize (s.above t) false).errors =
        before ++ ⟨.invalidEscape lineFeed, ⟨s.positionAt (s.length - 1),
          (s.above t).positionAt (s.length + 1)⟩⟩ :: after := by
    intro h
    obtain ⟨before, start, after, hown, hjoined⟩ := lexFrom_breaksOff [] s.units t.units h
    have hne : s.units ≠ [] := by
      intro hnil
      rw [hends, hnil] at h
      exact breaksOff_nil [] h
    have hlast : Position.after .origin s.units.dropLast = s.positionAt (s.length - 1) := by
      rw [Text.after_origin (List.dropLast_concat_getLast hne).symm, List.length_dropLast]
      rfl
    have hend : Position.after .origin s.units = s.positionAt s.length :=
      Text.after_origin (List.append_nil _).symm
    have hline : Position.after .origin (s.units ++ [lineFeed]) =
        (s.above t).positionAt (s.length + 1) := by
      have habove : (s.above t).units = s.units ++ [lineFeed] ++ t.units := by simp [Text.above]
      rw [Text.after_origin habove, List.length_append]
      rfl
    rw [List.nil_append, hend] at hown
    rw [List.nil_append, hlast, hline] at hjoined
    exact ⟨before, start, after, hown, hjoined⟩
  have hfollowed : ¬s.EndsInEscape → tokenize (s.above t) false =
      (tokenize s false).followedBy ((tokenize t false).down (s.length + 1) s.lineCount) := by
    intro h
    have hdown : Position.after .origin ([] ++ s.units ++ [lineFeed]) =
        Position.down .origin (s.length + 1) s.lineCount := by
      rw [List.nil_append, Position.after_append, Position.origin_after]
      simp [Position.after, Position.next, Position.down, Position.origin, Text.length,
        Text.lineCount]
    have hjoined := lexFrom_stop [] s.units t.units h
    rw [hdown, lexFrom_down] at hjoined
    exact hjoined
  refine ⟨⟨fun heq h => ?_, hfollowed⟩, fun hstring h => ?_, hbroken, lexFrom_onLines _ _⟩
  · obtain ⟨before, start, after, hown, hjoined⟩ := hbroken h
    have herrors := congrArg Lexed.errors heq
    rw [hjoined, Lexed.followedBy, hown, List.append_assoc] at herrors
    have hhead := List.append_cancel_left herrors
    cases hhead
  · rw [hfollowed h, Lexed.followedBy_stringRunsTo]
    exact .inl hstring

/-- A line feed behind a backslash does not end a string: a quote on the next line closes it. -/
theorem tokenize_above_escaped :
    tokenize (Text.above ⟨[0x22, 0x5C]⟩ ⟨[0x22]⟩) false =
      ⟨[⟨.string ⟨[]⟩, ⟨[0x22, 0x5C, 0x0A, 0x22]⟩, ⟨⟨0, 0, 0⟩, ⟨4, 1, 1⟩⟩⟩],
        [⟨.invalidEscape lineFeed, ⟨⟨1, 0, 1⟩, ⟨3, 1, 0⟩⟩⟩], ⟨4, 1, 1⟩⟩ ∧
    (tokenize ⟨[0x22, 0x5C]⟩ false).followedBy
        ((tokenize ⟨[0x22]⟩ false).down (Text.length ⟨[0x22, 0x5C]⟩ + 1)
          (Text.lineCount ⟨[0x22, 0x5C]⟩)) =
      ⟨[], [⟨.unterminatedString, ⟨⟨0, 0, 0⟩, ⟨2, 0, 2⟩⟩⟩,
        ⟨.unterminatedString, ⟨⟨3, 1, 0⟩, ⟨4, 1, 1⟩⟩⟩], ⟨4, 1, 1⟩⟩ ∧
    tokenize (Text.above ⟨[0x22, 0x5C]⟩ ⟨[0x22]⟩) false ≠
      (tokenize ⟨[0x22, 0x5C]⟩ false).followedBy
        ((tokenize ⟨[0x22]⟩ false).down (Text.length ⟨[0x22, 0x5C]⟩ + 1)
          (Text.lineCount ⟨[0x22, 0x5C]⟩)) := by
  have hjoined : tokenize (Text.above ⟨[0x22, 0x5C]⟩ ⟨[0x22]⟩) false =
      ⟨[⟨.string ⟨[]⟩, ⟨[0x22, 0x5C, 0x0A, 0x22]⟩, ⟨⟨0, 0, 0⟩, ⟨4, 1, 1⟩⟩⟩],
        [⟨.invalidEscape lineFeed, ⟨⟨1, 0, 1⟩, ⟨3, 1, 0⟩⟩⟩], ⟨4, 1, 1⟩⟩ := by
    rw [tokenize, Text.above, List.cons_append, lexFrom_step]
    decide +kernel
  have hseparate : (tokenize ⟨[0x22, 0x5C]⟩ false).followedBy
        ((tokenize ⟨[0x22]⟩ false).down (Text.length ⟨[0x22, 0x5C]⟩ + 1)
          (Text.lineCount ⟨[0x22, 0x5C]⟩)) =
      ⟨[], [⟨.unterminatedString, ⟨⟨0, 0, 0⟩, ⟨2, 0, 2⟩⟩⟩,
        ⟨.unterminatedString, ⟨⟨3, 1, 0⟩, ⟨4, 1, 1⟩⟩⟩], ⟨4, 1, 1⟩⟩ := by
    rw [tokenize, tokenize, lexFrom_step, lexFrom_step]
    decide +kernel
  refine ⟨hjoined, hseparate, ?_⟩
  rw [hjoined, hseparate]
  decide +kernel

end SceneScript
