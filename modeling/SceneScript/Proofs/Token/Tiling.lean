import Mathlib.Data.List.Induction
import SceneScript.Token.Lexer

/-!
# Lexing loses nothing

A script is cut into segments that follow one another from its first unit to its last: tokens,
errors that stand for a whole piece of it, and what is skipped between them. An invalid escape is
no segment; it lies inside the string that holds it. The lexer counts lines and columns while it
goes; here they are computed from the text alone, and both agree at every place that is reported.

* **`Text.positionAt`** — the position of an offset, from the text in front of it.
* **`scan_cases`** — what a step does; **`scan_read`** — one that skips nothing is a `ReadStep`.
* **`Segment`**, **`Tiles`** — segments from one offset to another, without gap or overlap.
* **`Lexed.TiledBy`** — a lexed text and the segments it was cut into.
* **`lexFrom_tiled`** — the rest of a text is tiled; **`tokenize_tiled`** — the whole of it.
-/

namespace SceneScript

/-! ## Positions -/

/-- The offset just behind the last line feed of some units, zero when there is none. -/
def lineStart (us : List UInt16) : Nat := (us.reverse.dropWhile (· ≠ lineFeed)).length

/-- The position of an offset: the line feeds in front of it, and the units since the last. -/
def Text.positionAt (t : Text) (n : Nat) : Position :=
  ⟨n, (t.units.take n).count lineFeed, n - lineStart (t.units.take n)⟩

/-- The position lies in the text, or at its end, and says so correctly. -/
def Position.IsIn (t : Text) (p : Position) : Prop := p.offset ≤ t.length ∧ p = t.positionAt p.offset

/-- Both ends of the span are positions of the text. -/
def Span.IsIn (t : Text) (s : Span) : Prop := s.start.IsIn t ∧ s.stop.IsIn t

theorem lineStart_le (us : List UInt16) : lineStart us ≤ us.length := by
  have h := (List.dropWhile_suffix (l := us.reverse) (· ≠ lineFeed)).length_le
  rwa [List.length_reverse] at h

theorem lineStart_append (us : List UInt16) (u : UInt16) :
    lineStart (us ++ [u]) = if u = lineFeed then us.length + 1 else lineStart us := by
  by_cases hu : u = lineFeed <;> simp [lineStart, hu]

namespace Position

theorem after_append (p : Position) (us vs : List UInt16) :
    p.after (us ++ vs) = (p.after us).after vs := List.foldl_append

/-- Counting unit by unit gives the length, the line feeds and the units behind the last. -/
theorem origin_after (us : List UInt16) :
    origin.after us = ⟨us.length, us.count lineFeed, us.length - lineStart us⟩ := by
  induction us using List.reverseRecOn with
  | nil => rfl
  | append_singleton us u ih =>
      have hle := lineStart_le us
      rw [after_append, ih, lineStart_append]
      by_cases hu : u = lineFeed
      · simp [after, next, hu]
      · have hcol : us.length - lineStart us + 1 = us.length + 1 - lineStart us := by omega
        simp [after, next, hu, hcol]

/-- The lexer's count is right wherever it stands. -/
theorem isIn_after {t : Text} {front rest : List UInt16} (h : t.units = front ++ rest) :
    (origin.after front).IsIn t := by
  rw [origin_after]
  refine ⟨by simp [Text.length, h], ?_⟩
  simp [Text.positionAt, h]

theorem offset_after (us : List UInt16) : (origin.after us).offset = us.length := by
  rw [origin_after]

end Position

/-! ## Segments -/

/-- A stretch of a script and what was made of it. -/
inductive Segment where
  | trivia (span : Span)
  | token (t : Token)
  | error (e : LexError)

namespace Segment

/-- The stretch. -/
def span : Segment → Span
  | .trivia s => s
  | .token t  => t.span
  | .error e  => e.span

/-- The token that was made of it. -/
def token? : Segment → Option Token
  | .token t => some t
  | _        => none

/-- The error that was made of it. -/
def error? : Segment → Option LexError
  | .error e => some e
  | _        => none

end Segment

/-- The segments lead from one offset to another; each takes up where the one before it ends, and
    none is empty. -/
inductive Tiles : Nat → List Segment → Nat → Prop where
  | nil (n : Nat) : Tiles n [] n
  | cons {n m : Nat} (s : Segment) (rest : List Segment) :
      s.span.start.offset = n → n < s.span.stop.offset → Tiles s.span.stop.offset rest m →
      Tiles n (s :: rest) m

/-- Units that are skipped in front of the rest of a script: a blank, or a comment, which goes on
    to the end of its line. -/
inductive IsTrivia : List UInt16 → List UInt16 → Prop where
  | blank (u : UInt16) (rest : List UInt16) :
      u = 0x20 ∨ u = 0x09 ∨ u = 0x0D ∨ u = lineFeed → IsTrivia [u] rest
  | comment (body rest : List UInt16) :
      lineFeed ∉ body → rest = [] ∨ rest.head? = some lineFeed →
      IsTrivia (0x2F :: 0x2F :: body) rest

/-- The error stands for a whole segment. -/
def LexError.isWhole (e : LexError) : Bool := e.problem.code ∈ ["E001", "E002", "E004"]

/-- The segment is a true account of the stretch that it covers. -/
def Segment.Cuts (t : Text) : Segment → Prop
  | .trivia s => s.IsIn t ∧
      IsTrivia (t.slice s.start.offset s.stop.offset).units (t.units.drop s.stop.offset)
  | .token k  => k.span.IsIn t ∧ k.lexeme = t.slice k.span.start.offset k.span.stop.offset ∧
      k.lexeme ≠ .empty
  | .error e  => e.span.IsIn t

/-- The text from offset `n` on was cut into segments, and this is what was reported of them. -/
structure Lexed.TiledBy (t : Text) (n : Nat) (l : Lexed) (segments : List Segment) : Prop where
  tiles  : Tiles n segments t.length
  cuts   : ∀ s ∈ segments, s.Cuts t
  tokens : l.tokens = segments.filterMap Segment.token?
  errors : l.errors.filter LexError.isWhole = segments.filterMap Segment.error?
  places : ∀ e ∈ l.errors, e.span.IsIn t
  finish : l.finish = t.positionAt t.length

/-! ## One step -/

/-- The segment of a step that reads `lexeme` at position `p`. -/
def Scanned.segment (s : Scanned) (p : Position) (lexeme : List UInt16) : Segment :=
  match s.piece with
  | .trivia     => .trivia ⟨p, p.after lexeme⟩
  | .token kind => .token ⟨kind, ⟨lexeme⟩, ⟨p, p.after lexeme⟩⟩
  | .problem e  => .error ⟨e, ⟨p, p.after lexeme⟩⟩

namespace Scanned

variable {s : Scanned} {p : Position} {lexeme : List UInt16}

theorem segment_span (s : Scanned) (p : Position) (lexeme : List UInt16) :
    (s.segment p lexeme).span = ⟨p, p.after lexeme⟩ := by
  rw [segment]
  split <;> rfl

theorem tokens_eq (s : Scanned) (p : Position) (lexeme : List UInt16) :
    s.tokens p lexeme = [s.segment p lexeme].filterMap Segment.token? := by
  rw [tokens, segment]
  cases s.piece <;> rfl

/-- An invalid escape is no whole error; every other problem is one. -/
theorem whole_errors_eq (h : ∀ u, s.piece ≠ .problem (.invalidEscape u)) :
    (s.errors p lexeme).filter LexError.isWhole = [s.segment p lexeme].filterMap Segment.error? := by
  have hescapes : ∀ f : Nat × UInt16 → LexError, (∀ x, (f x).problem = .invalidEscape x.2) →
      (s.escapes.map f).filter LexError.isWhole = [] := by
    intro f hf
    refine List.filter_eq_nil_iff.mpr fun e he => ?_
    obtain ⟨x, -, rfl⟩ := List.mem_map.mp he
    simp [LexError.isWhole, hf, LexProblem.code]
  rw [errors, List.filter_append, hescapes _ fun _ => rfl, List.nil_append, segment]
  cases hp : s.piece with
  | trivia => rfl
  | token kind => rfl
  | problem e =>
      cases e with
      | invalidEscape u => exact absurd hp (h u)
      | _ => rfl

end Scanned

/-- The piece is a token or an error that stands for the whole of it. -/
def Piece.IsSolid : Piece → Prop
  | .trivia    => False
  | .token _   => True
  | .problem p => ∀ u, p ≠ .invalidEscape u

theorem stringStep_isSolid (rest : List UInt16) : (stringStep rest).piece.IsSolid := by
  simp only [stringStep]
  split <;> simp [Piece.IsSolid]

theorem numberStep_isSolid (us : List UInt16) : (numberStep us).piece.IsSolid := by
  simp only [numberStep]
  repeat' split
  all_goals simp [Piece.IsSolid]

theorem nameStep_isSolid (us : List UInt16) : (nameStep us).piece.IsSolid := by
  simp only [nameStep]
  split <;> simp [Piece.IsSolid]

theorem symbolStep_isSolid (u : UInt16) (rest : List UInt16) :
    (symbolStep u rest).piece.IsSolid := by
  simp only [symbolStep]
  split <;> simp [Piece.IsSolid]

theorem isNamePart_of_isNameStart {u : UInt16} (h : isNameStart u = true) :
    isNamePart u = true := by
  rw [isNamePart, h, Bool.true_or]

/-! The kinds of tokens that the steps yield. -/

theorem stringStep_token {rest : List UInt16} {k : TokenKind}
    (h : (stringStep rest).piece = .token k) : ∃ t, k = .string t := by
  simp only [stringStep] at h
  split at h <;> cases h
  exact ⟨_, rfl⟩

theorem numberStep_token {us : List UInt16} {k : TokenKind}
    (h : (numberStep us).piece = .token k) : (∃ n, k = .int n) ∨ ∃ x, k = .float x := by
  simp only [numberStep] at h
  repeat' split at h
  all_goals cases h
  all_goals first | exact .inl ⟨_, rfl⟩ | exact .inr ⟨_, rfl⟩

theorem nameStep_token {us : List UInt16} {k : TokenKind}
    (h : (nameStep us).piece = .token k) : k = .identifier ∨ ∃ w, k = .keyword w := by
  simp only [nameStep] at h
  split at h <;> cases h
  · exact .inr ⟨_, rfl⟩
  · exact .inl rfl

theorem symbolStep_token {u : UInt16} {rest : List UInt16} {k : TokenKind}
    (h : (symbolStep u rest).piece = .token k) : ∃ s, k = .symbol s := by
  simp only [symbolStep] at h
  split at h <;> cases h <;> exact ⟨_, rfl⟩

/-- A step skips a blank, skips a comment, or reads something. -/
theorem scan_cases (u : UInt16) (rest : List UInt16) :
    (isSpaceUnit u = true ∧ scan u rest = ⟨.trivia, 0, []⟩) ∨
    (∃ tail, u = 0x2F ∧ rest = 0x2F :: tail ∧
      scan u rest = ⟨.trivia, (rest.takeWhile (· ≠ lineFeed)).length, []⟩) ∨
    (scan u rest).piece.IsSolid := by
  rw [scan]
  by_cases hspace : isSpaceUnit u = true
  · exact .inl ⟨hspace, if_pos hspace⟩
  rw [if_neg hspace]
  by_cases hcomment : (u = 0x2F && rest.head? == some 0x2F) = true
  · right
    left
    rw [if_pos hcomment]
    simp only [Bool.and_eq_true, decide_eq_true_eq, beq_iff_eq] at hcomment
    obtain ⟨tail, htail⟩ := List.head?_eq_some_iff.mp hcomment.2
    exact ⟨tail, hcomment.1, htail, rfl⟩
  rw [if_neg hcomment]
  right
  right
  split
  · exact stringStep_isSolid rest
  split
  · exact numberStep_isSolid (u :: rest)
  split
  · exact nameStep_isSolid (u :: rest)
  · exact symbolStep_isSolid u rest

/-- The steps that skip nothing, by the unit that they begin with. -/
inductive ReadStep (u : UInt16) (rest : List UInt16) : Scanned → Prop where
  | string (hu : u = 0x22) : ReadStep u rest (stringStep rest)
  | number (hu : isDigitUnit u = true) : ReadStep u rest (numberStep (u :: rest))
  | name (hu : isNameStart u = true) : ReadStep u rest (nameStep (u :: rest))
  | symbol (hblank : isSpaceUnit u = false) (hdigit : isDigitUnit u = false)
      (hname : isNameStart u = false) : ReadStep u rest (symbolStep u rest)

/-- A step that skips nothing reads a string, a number, a name or a symbol. -/
theorem scan_read {u : UInt16} {rest : List UInt16} (h : (scan u rest).piece ≠ .trivia) :
    ReadStep u rest (scan u rest) := by
  rw [scan] at h ⊢
  by_cases hspace : isSpaceUnit u = true
  · rw [if_pos hspace] at h
    exact absurd rfl h
  rw [if_neg hspace] at h ⊢
  by_cases hcomment : (u = 0x2F && rest.head? == some 0x2F) = true
  · rw [if_pos hcomment] at h
    exact absurd rfl h
  rw [if_neg hcomment]
  by_cases hquote : u = 0x22
  · rw [if_pos hquote]
    exact .string hquote
  rw [if_neg hquote]
  by_cases hdigit : isDigitUnit u = true
  · rw [if_pos hdigit]
    exact .number hdigit
  rw [if_neg hdigit]
  by_cases hname : isNameStart u = true
  · rw [if_pos hname]
    exact .name hname
  · rw [if_neg hname]
    exact .symbol (by simpa using hspace) (by simpa using hdigit) (by simpa using hname)

theorem scan_read_token {u : UInt16} {rest : List UInt16} {kind : TokenKind}
    (h : (scan u rest).piece = .token kind) : ReadStep u rest (scan u rest) :=
  scan_read (by rw [h]; exact Piece.noConfusion)

/-- An identifier is read by the step at a name. -/
theorem scan_identifier_step {u : UInt16} {rest : List UInt16}
    (h : (scan u rest).piece = .token .identifier) :
    isNameStart u = true ∧ scan u rest = nameStep (u :: rest) := by
  have hstep := scan_read_token h
  generalize scan u rest = step at h hstep ⊢
  cases hstep with
  | name hu => exact ⟨hu, rfl⟩
  | string =>
      obtain ⟨_, hk⟩ := stringStep_token h
      cases hk
  | number => obtain ⟨_, hk⟩ | ⟨_, hk⟩ := numberStep_token h <;> cases hk
  | symbol =>
      obtain ⟨_, hk⟩ := symbolStep_token h
      cases hk

/-- The line that some units begin with, and what is behind it. -/
theorem line_split (us : List UInt16) :
    ∃ body rest, us = body ++ rest ∧ us.takeWhile (· ≠ lineFeed) = body ∧ lineFeed ∉ body ∧
      (rest = [] ∨ rest.head? = some lineFeed) := by
  induction us with
  | nil => exact ⟨[], [], rfl, rfl, List.not_mem_nil, .inl rfl⟩
  | cons u us ih =>
      by_cases hu : u = lineFeed
      · exact ⟨[], u :: us, rfl, by simp [hu], List.not_mem_nil, .inr (by rw [hu]; rfl)⟩
      · obtain ⟨body, rest, hus, htake, hbody, hrest⟩ := ih
        refine ⟨u :: body, rest, by rw [hus]; rfl, by simp [hu, ← htake], ?_, hrest⟩
        exact List.not_mem_cons_of_ne_of_not_mem (Ne.symm hu) hbody

/-- Skipped units are trivia. -/
theorem scan_trivia {u : UInt16} {rest : List UInt16} (h : (scan u rest).piece = .trivia) :
    IsTrivia (u :: rest.take (scan u rest).extra) (rest.drop (scan u rest).extra) := by
  rcases scan_cases u rest with ⟨hu, hscan⟩ | ⟨tail, rfl, rfl, hscan⟩ | hsolid
  · rw [hscan]
    have hblank : u = 0x20 ∨ u = 0x09 ∨ u = 0x0D ∨ u = lineFeed := by
      simpa [isSpaceUnit, or_assoc] using hu
    exact .blank u rest hblank
  · obtain ⟨body, rest, htail, htake, hbody, hrest⟩ := line_split tail
    -- The second slash is part of the line that is skipped.
    have hextra : (((0x2F : UInt16) :: tail).takeWhile (· ≠ lineFeed)).length = body.length + 1 := by
      rw [List.takeWhile_cons_of_pos (by decide), htake, List.length_cons]
    rw [hscan, hextra, htail, List.take_succ_cons, List.drop_succ_cons, List.take_left,
      List.drop_left]
    exact .comment body rest hbody hrest
  · rw [h] at hsolid
    exact hsolid.elim

/-- No step is an invalid escape. -/
theorem scan_piece_ne_escape (u : UInt16) (rest : List UInt16) (e : UInt16) :
    (scan u rest).piece ≠ .problem (.invalidEscape e) := by
  intro h
  rcases scan_cases u rest with ⟨-, hscan⟩ | ⟨_, -, -, hscan⟩ | hsolid
  · rw [hscan] at h
    cases h
  · rw [hscan] at h
    cases h
  · rw [h] at hsolid
    exact hsolid e rfl

/-! ## A step in its text -/

section Step

variable {t : Text} {front lexeme rest : List UInt16}

theorem Text.slice_append (h : t.units = front ++ lexeme ++ rest) :
    t.slice front.length (front.length + lexeme.length) = ⟨lexeme⟩ := by
  rw [slice, h, ← List.length_append, List.take_left, List.drop_left]

/-- A part of the lexeme ends at a position of the text. -/
theorem Position.isIn_part (h : t.units = front ++ lexeme ++ rest) (n : Nat) :
    ((origin.after front).after (lexeme.take n)).IsIn t := by
  rw [← after_append]
  have hsplit : t.units = front ++ lexeme.take n ++ (lexeme.drop n ++ rest) := by
    rw [h, ← List.append_assoc, List.append_assoc front (lexeme.take n), List.take_append_drop]
  exact isIn_after hsplit

theorem Span.isIn_lexeme (h : t.units = front ++ lexeme ++ rest) :
    IsIn t ⟨.after .origin front, (Position.origin.after front).after lexeme⟩ := by
  have hstop := Position.isIn_part h lexeme.length
  rw [List.take_length] at hstop
  exact ⟨Position.isIn_part h 0, hstop⟩

theorem Position.offset_after_lexeme (front lexeme : List UInt16) :
    ((origin.after front).after lexeme).offset = front.length + lexeme.length := by
  rw [← after_append, offset_after, List.length_append]

theorem Scanned.segment_cuts {s : Scanned} (h : t.units = front ++ lexeme ++ rest)
    (hne : lexeme ≠ []) (htrivia : s.piece = .trivia → IsTrivia lexeme rest) :
    (s.segment (.after .origin front) lexeme).Cuts t := by
  have hspan := Span.isIn_lexeme h
  have hstart := Position.offset_after front
  have hstop := Position.offset_after_lexeme front lexeme
  have hslice := Text.slice_append h
  rw [segment]
  cases hp : s.piece with
  | trivia =>
      refine ⟨hspan, ?_⟩
      have hrest : t.units.drop (front.length + lexeme.length) = rest := by
        rw [h, ← List.length_append, List.drop_left]
      rw [hstart, hstop, hslice, hrest]
      exact htrivia hp
  | token kind =>
      refine ⟨hspan, ?_, fun hempty => hne (congrArg Text.units hempty)⟩
      rw [hstart, hstop, hslice]
  | problem e => exact hspan

theorem Scanned.errors_isIn (s : Scanned) (h : t.units = front ++ lexeme ++ rest) :
    ∀ e ∈ s.errors (.after .origin front) lexeme, e.span.IsIn t := by
  intro e he
  rcases List.mem_append.mp he with he | he
  · obtain ⟨x, -, rfl⟩ := List.mem_map.mp he
    exact ⟨Position.isIn_part h x.1, Position.isIn_part h (x.1 + 2)⟩
  · split at he
    · rw [List.mem_singleton.mp he]
      exact Span.isIn_lexeme h
    · cases he

/-- A step that reads `lexeme`, in front of a text that is tiled. -/
theorem Lexed.TiledBy.step {s : Scanned} {l : Lexed} {segments : List Segment}
    (h : t.units = front ++ lexeme ++ rest) (hne : lexeme ≠ [])
    (hpiece : ∀ u, s.piece ≠ .problem (.invalidEscape u))
    (htrivia : s.piece = .trivia → IsTrivia lexeme rest)
    (hl : l.TiledBy t (front ++ lexeme).length segments) :
    TiledBy t front.length
      ⟨s.tokens (.after .origin front) lexeme ++ l.tokens,
        s.errors (.after .origin front) lexeme ++ l.errors, l.finish⟩
      (s.segment (.after .origin front) lexeme :: segments) where
  tiles := by
    have hpos : 0 < lexeme.length := List.length_pos_iff.mpr hne
    refine .cons _ _ (by rw [Scanned.segment_span, Position.offset_after]) ?_ ?_
    · rw [Scanned.segment_span, Position.offset_after_lexeme]
      omega
    · rw [Scanned.segment_span, Position.offset_after_lexeme, ← List.length_append]
      exact hl.tiles
  cuts := List.forall_mem_cons.mpr ⟨Scanned.segment_cuts h hne htrivia, hl.cuts⟩
  tokens := by
    rw [Scanned.tokens_eq, hl.tokens, ← List.filterMap_append, List.singleton_append]
  errors := by
    rw [List.filter_append, Scanned.whole_errors_eq hpiece, hl.errors, ← List.filterMap_append,
      List.singleton_append]
  places := List.forall_mem_append.mpr ⟨s.errors_isIn h, hl.places⟩
  finish := hl.finish

end Step

/-! ## The whole text -/

/-- From every place on, a text is tiled. -/
theorem lexFrom_tiled (t : Text) (us front : List UInt16) (h : t.units = front ++ us) :
    ∃ segments, (lexFrom false (.after .origin front) us).TiledBy t front.length segments := by
  match us with
  | [] =>
      rw [List.append_nil] at h
      have hlength : front.length = t.length := by rw [Text.length, h]
      have hall : t.units = front ++ [] := by rw [h, List.append_nil]
      have hfinish := (Position.isIn_after hall).2
      rw [Position.offset_after, hlength] at hfinish
      rw [lexFrom]
      exact ⟨[], hlength ▸ .nil _, fun _ hs => absurd hs List.not_mem_nil, rfl, rfl,
        fun _ he => absurd he List.not_mem_nil, hfinish⟩
  | u :: rest =>
      have hsplit : u :: rest = u :: rest.take (scan u rest).extra ++ rest.drop (scan u rest).extra := by
        rw [List.cons_append, List.take_append_drop]
      rw [hsplit, ← List.append_assoc] at h
      obtain ⟨segments, hl⟩ := lexFrom_tiled t (rest.drop (scan u rest).extra)
        (front ++ u :: rest.take (scan u rest).extra) h
      rw [Position.after_append] at hl
      have hstep := hl.step h (List.cons_ne_nil u _) (scan_piece_ne_escape u rest) scan_trivia
      rw [lexFrom]
      exact ⟨_, hstep⟩
termination_by us.length
decreasing_by simp only [List.length_drop, List.length_cons]; omega

/-- What every step that yields a token sees to holds of all tokens and their lexemes. -/
theorem lexFrom_token {P : TokenKind → List UInt16 → Prop}
    (hscan : ∀ u rest kind, (scan u rest).piece = .token kind →
      P kind (u :: rest.take (scan u rest).extra)) (us : List UInt16) (p : Position) :
    ∀ t ∈ (lexFrom false p us).tokens, P t.kind t.lexeme.units := by
  match us with
  | [] =>
      rw [lexFrom]
      exact fun _ ht => absurd ht List.not_mem_nil
  | u :: rest =>
      have hrest := lexFrom_token hscan (rest.drop (scan u rest).extra)
        (p.after (u :: rest.take (scan u rest).extra))
      rw [lexFrom]
      refine List.forall_mem_append.mpr ⟨fun t ht => ?_, hrest⟩
      rw [Scanned.tokens] at ht
      split at ht
      · next kind hpiece =>
          rw [List.mem_singleton.mp ht]
          exact hscan u rest kind hpiece
      · exact absurd ht List.not_mem_nil
termination_by us.length
decreasing_by simp only [List.length_drop, List.length_cons]; omega

/-- Lossless lexing with exact positions. The tokens, the errors that stand for a whole piece of
    the script and what is skipped between them follow one another from the first unit to the
    last. A token is the stretch of the script that it covers and is not empty; what is skipped is
    a blank or a comment; and every reported position, that of the end included, has the line and
    the column that the text gives it. -/
theorem tokenize_tiled (source : Text) :
    (∃ segments : List Segment,
      Tiles 0 segments source.length ∧
      (tokenize source false).tokens = segments.filterMap Segment.token? ∧
      ((tokenize source false).errors.filter fun e => e.problem.code ∈ ["E001", "E002", "E004"]) =
        segments.filterMap Segment.error? ∧
      ∀ s, .trivia s ∈ segments →
        IsTrivia (source.slice s.start.offset s.stop.offset).units
          (source.units.drop s.stop.offset)) ∧
    (∀ k ∈ (tokenize source false).tokens,
      k.lexeme = source.slice k.span.start.offset k.span.stop.offset ∧ k.lexeme ≠ .empty ∧
      k.span.IsIn source) ∧
    (∀ e ∈ (tokenize source false).errors, e.span.IsIn source) ∧
    (tokenize source false).finish = source.positionAt source.length := by
  obtain ⟨segments, h⟩ := lexFrom_tiled source source.units [] rfl
  refine ⟨⟨segments, h.tiles, h.tokens, h.errors, fun s hs => (h.cuts _ hs).2⟩, ?_, h.places,
    h.finish⟩
  intro k hk
  have hmem : Segment.token k ∈ segments := by
    rw [show tokenize source false = lexFrom false .origin source.units from rfl] at hk
    obtain ⟨s, hs, hsk⟩ := List.mem_filterMap.mp (h.tokens ▸ hk)
    cases s <;> cases hsk
    exact hs
  obtain ⟨hspan, hlexeme, hne⟩ := h.cuts _ hmem
  exact ⟨hlexeme, hne, hspan⟩

end SceneScript
