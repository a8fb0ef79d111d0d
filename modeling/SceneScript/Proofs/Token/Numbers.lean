import Mathlib.Data.Nat.Digits.Defs
import SceneScript.Proofs.Number.Printing
import SceneScript.Proofs.Token.LineEnds

/-!
# Whole numbers in a text

Digits behind which neither a name nor a fraction goes on are a whole number. One step of the lexer
takes all of them, however many there are, and their value alone decides what becomes of them: a
token, or an error where the value is beyond the largest magnitude.

* **`digitsNumber`** — the number that decimal digits stand for.
* **`WholeNumber`**, **`scan_wholeNumber`** — the digits, and the step that takes them.
* **`LexesTo`** — the places at which the steps of the lexer begin.
* **`LexesTo.tooLarge_iff`** — the errors of whole numbers that are too large, in a whole text.
* **`tokenize_int`** — the tokens of all others.
-/

namespace SceneScript

/-! ## Values of digits -/

/-- The number that decimal digits stand for, the last of them being the units. -/
def digitsNumber (us : List UInt16) : Nat :=
  Nat.ofDigits 10 (us.reverse.map fun u => u.toNat - 0x30)

theorem decimalValue_eq_digitsNumber (us : List UInt16) : decimalValue us = digitsNumber us := by
  induction us using List.reverseRecOn with
  | nil => rfl
  | append_singleton us u ih =>
      rw [digitsNumber, List.reverse_append, List.reverse_singleton, List.singleton_append,
        List.map_cons, Nat.ofDigits_cons, ← digitsNumber, ← ih, decimalValue, List.foldl_append]
      show decimalValue us * 10 + (u.toNat - 0x30) = _
      omega

/-! ## The step at a whole number -/

/-- The digits are a whole number in front of the rest: neither a name nor a fraction goes on
    behind them. -/
structure WholeNumber (ds rest : List UInt16) : Prop where
  nonempty : ds ≠ []
  digits   : ∀ u ∈ ds, isDigitUnit u = true
  name     : ∀ u ∈ rest.head?, isNamePart u = false
  fraction : ∀ u more, rest = 0x2E :: u :: more → isDigitUnit u = false

namespace WholeNumber

variable {ds rest : List UInt16}

theorem takeWhile (h : WholeNumber ds rest) : (ds ++ rest).takeWhile isDigitUnit = ds :=
  takeWhile_until h.digits fun u hu => (Bool.or_eq_false_iff.mp (h.name u hu)).2

theorem dropWhile (h : WholeNumber ds rest) : (ds ++ rest).dropWhile isDigitUnit = rest :=
  dropWhile_until h.digits fun u hu => (Bool.or_eq_false_iff.mp (h.name u hu)).2

theorem fractionDigits (h : WholeNumber ds rest) : fractionDigits rest = [] := by
  match rest, h with
  | [], _ => rfl
  | [point], _ =>
      rw [SceneScript.fractionDigits]
      split <;> rfl
  | point :: u :: more, h =>
      rw [SceneScript.fractionDigits]
      split
      · next hpoint =>
          have hu : isDigitUnit u = false := h.fraction u more (by rw [hpoint])
          rw [List.takeWhile_cons_of_neg (by simp [hu])]
      · rfl

theorem length (h : WholeNumber ds rest) : numeralLength (ds ++ rest) = ds.length := by
  simp only [numeralLength, h.takeWhile, h.dropWhile, h.fractionDigits, List.isEmpty_nil, if_true]

theorem tail (h : WholeNumber ds rest) : numeralTail (ds ++ rest) = [] := by
  rw [numeralTail, h.length, List.drop_left, ← List.nil_append rest]
  exact takeWhile_until (fun _ hu => absurd hu List.not_mem_nil) h.name

end WholeNumber

/-- What the value of the digits makes of a whole number. -/
def wholePiece (ds : List UInt16) : Piece :=
  if maxIntMagnitude < digitsNumber ds then .problem (.integerTooLarge ⟨ds⟩)
  else .token (.int (digitsNumber ds))

/-- A digit begins a number, whatever is behind it. -/
theorem scan_digit {u : UInt16} (hu : isDigitUnit u = true) (rest : List UInt16) :
    scan u rest = numberStep (u :: rest) := by
  have hne : ∀ v : UInt16, isDigitUnit v = false → u ≠ v := by
    rintro v hv rfl
    rw [hu] at hv
    cases hv
  have hspace : isSpaceUnit u = false := by
    rw [isSpaceUnit, decide_eq_false (hne 0x20 (by decide)), decide_eq_false (hne 0x09 (by decide)),
      decide_eq_false (hne 0x0D (by decide)), decide_eq_false (hne lineFeed (by decide))]
    rfl
  rw [scan, hspace, decide_eq_false (hne 0x2F (by decide)), Bool.false_and,
    if_neg Bool.false_ne_true, if_neg Bool.false_ne_true, if_neg (hne 0x22 (by decide)), if_pos hu]

/-- The digits of a whole number are one step. -/
theorem scan_wholeNumber {u : UInt16} {ds rest : List UInt16} (h : WholeNumber (u :: ds) rest) :
    scan u (ds ++ rest) = ⟨wholePiece (u :: ds), ds.length, []⟩ := by
  rw [scan_digit (h.digits u List.mem_cons_self), ← List.cons_append, numberStep_eq, h.length,
    h.tail, numeralPiece, h.tail, h.takeWhile, h.dropWhile, h.fractionDigits, wholePiece,
    ← decimalValue_eq_digitsNumber]
  rfl

/-! ## Where the errors lie -/

theorem Position.after_offset (p : Position) (us : List UInt16) :
    (p.after us).offset = p.offset + us.length := by
  induction us generalizing p with
  | nil => rfl
  | cons u us ih =>
      have hnext : (p.next u).offset = p.offset + 1 := by
        rw [next]
        split <;> rfl
      rw [show p.after (u :: us) = (p.next u).after us from rfl, ih, hnext, List.length_cons]
      omega

/-- The errors of a step lie within what it takes. -/
theorem Scanned.errors_within {s : Scanned} {p : Position} {lexeme : List UInt16} {e : LexError}
    (he : e ∈ s.errors p lexeme) :
    p.offset ≤ e.span.start.offset ∧ e.span.stop.offset ≤ (p.after lexeme).offset := by
  rcases List.mem_append.mp he with he | he
  · obtain ⟨x, -, rfl⟩ := List.mem_map.mp he
    simp only [Position.after_offset, List.length_take]
    omega
  · split at he
    · rw [List.mem_singleton.mp he]
      exact ⟨Nat.le_refl _, Nat.le_refl _⟩
    · cases he

theorem lexFrom_errors_from (us : List UInt16) (p : Position) :
    ∀ e ∈ (lexFrom false p us).errors, p.offset ≤ e.span.start.offset := by
  match us with
  | [] =>
      rw [lexFrom]
      exact fun _ he => absurd he List.not_mem_nil
  | u :: rest =>
      have hrest := lexFrom_errors_from (rest.drop (scan u rest).extra)
        (p.after (u :: rest.take (scan u rest).extra))
      rw [lexFrom]
      refine List.forall_mem_append.mpr ⟨fun e he => (Scanned.errors_within he).1, fun e he => ?_⟩
      exact Nat.le_trans (by rw [Position.after_offset]; omega) (hrest e he)
termination_by us.length
decreasing_by simp only [List.length_drop, List.length_cons]; omega

/-! ## The steps of a text -/

/-- Reading the text, the lexer comes to this position with these units ahead, and a step begins
    there unless none are left. -/
inductive LexesTo (source : Text) : Position → List UInt16 → Prop where
  | start : LexesTo source .origin source.units
  | step {p u rest} : LexesTo source p (u :: rest) →
      LexesTo source (p.after (u :: rest.take (scan u rest).extra))
        (rest.drop (scan u rest).extra)

/-- What has been reported where the lexer stands lies in front of it; what is still reported comes
    from the rest of the text. -/
theorem LexesTo.errors {source : Text} {p : Position} {us : List UInt16} (h : LexesTo source p us) :
    ∃ before, (tokenize source false).errors = before ++ (lexFrom false p us).errors ∧
      ∀ e ∈ before, e.span.stop.offset ≤ p.offset := by
  induction h with
  | start => exact ⟨[], rfl, fun _ he => absurd he List.not_mem_nil⟩
  | @step p u rest _ ih =>
      obtain ⟨before, hbefore, hends⟩ := ih
      refine ⟨before ++ (scan u rest).errors p (u :: rest.take (scan u rest).extra), ?_, ?_⟩
      · rw [hbefore, lexFrom, List.append_assoc]
        rfl
      · refine List.forall_mem_append.mpr ⟨fun e he => ?_, fun e he => (Scanned.errors_within he).2⟩
        exact Nat.le_trans (hends e he) (by rw [Position.after_offset]; omega)

/-- A whole number at which a step begins is reported exactly when its value is beyond the largest
    magnitude. -/
theorem LexesTo.tooLarge_iff {source : Text} {p : Position} {ds rest : List UInt16}
    (h : LexesTo source p (ds ++ rest)) (hds : WholeNumber ds rest) :
    (∃ e ∈ (tokenize source false).errors, e.problem.code = "E004" ∧ e.span = ⟨p, p.after ds⟩) ↔
      maxIntMagnitude < digitsNumber ds := by
  obtain ⟨before, herrors, hbefore⟩ := h.errors
  obtain ⟨u, ds, rfl⟩ := List.exists_cons_of_ne_nil hds.nonempty
  have hafter : (p.after (u :: ds)).offset = p.offset + (ds.length + 1) := by
    rw [Position.after_offset, List.length_cons]
  rw [herrors, List.cons_append, lexFrom, scan_wholeNumber hds, List.take_left, List.drop_left]
  constructor
  · rintro ⟨e, he, hcode, hspan⟩
    rcases List.mem_append.mp he with he | he
    · -- What was reported before ends in front of the number.
      have hstop := hbefore e he
      rw [hspan] at hstop
      dsimp only at hstop
      omega
    rcases List.mem_append.mp he with he | he
    · by_contra hsmall
      rw [wholePiece, if_neg hsmall] at he
      exact absurd he List.not_mem_nil
    · have hstart := lexFrom_errors_from rest _ e he
      rw [hspan] at hstart
      dsimp only at hstart
      omega
  · intro hlarge
    refine ⟨⟨.integerTooLarge ⟨u :: ds⟩, ⟨p, p.after (u :: ds)⟩⟩, ?_, rfl, rfl⟩
    rw [wholePiece, if_pos hlarge]
    exact List.mem_append_right _ (List.mem_append_left _ List.mem_cons_self)

/-! ## Tokens of integers -/

/-- The spelling of an integer has its value, which is no larger than the largest magnitude. -/
structure IntLexeme (n : Nat) (lexeme : List UInt16) : Prop where
  nonempty : lexeme ≠ []
  digits   : ∀ u ∈ lexeme, isDigitUnit u = true
  value    : n = digitsNumber lexeme
  fits     : n ≤ maxIntMagnitude

theorem numberStep_int {us : List UInt16} {n : Nat} (hne : us.takeWhile isDigitUnit ≠ [])
    (h : (numberStep us).piece = .token (.int n)) :
    IntLexeme n (us.take ((numberStep us).extra + 1)) := by
  rw [numberStep_eq] at h ⊢
  dsimp only at h ⊢
  rw [numeralPiece] at h
  split at h
  · cases h
  next htail =>
  split at h
  · cases h
  next hfraction =>
  split at h
  · cases h
  next hfits =>
  have hempty : numeralTail us = [] := by simpa using htail
  have hlength : numeralLength us = (us.takeWhile isDigitUnit).length := by
    rw [numeralLength]
    exact if_pos (by simpa using hfraction)
  have hpos := List.length_pos_iff.mpr hne
  have hextra : numeralLength us + (numeralTail us).length - 1 + 1 =
      (us.takeWhile isDigitUnit).length := by
    rw [hempty, hlength, List.length_nil]
    omega
  cases h
  rw [hextra, ← List.prefix_iff_eq_take.mp (List.takeWhile_prefix isDigitUnit)]
  exact ⟨hne, List.all_eq_true.mp List.all_takeWhile, decimalValue_eq_digitsNumber _,
    Nat.le_of_not_lt hfits⟩

/-- A step that reads an integer reads digits of its value. -/
theorem scan_int {u : UInt16} {rest : List UInt16} {n : Nat}
    (h : (scan u rest).piece = .token (.int n)) :
    IntLexeme n (u :: rest.take (scan u rest).extra) := by
  have hstep := scan_read_token h
  generalize scan u rest = step at h hstep ⊢
  cases hstep with
  | number hu =>
      exact numberStep_int (by rw [List.takeWhile_cons_of_pos hu]; exact List.cons_ne_nil _ _) h
  | string =>
      obtain ⟨_, hk⟩ := stringStep_token h
      cases hk
  | name => obtain hk | ⟨_, hk⟩ := nameStep_token h <;> cases hk
  | symbol =>
      obtain ⟨_, hk⟩ := symbolStep_token h
      cases hk

/-- The tokens of integers are spelled by digits of their values, and fit. -/
theorem tokenize_int {source : Text} {t : Token} (ht : t ∈ (tokenize source false).tokens) {n : Nat}
    (hk : t.kind = .int n) : IntLexeme n t.lexeme.units :=
  lexFrom_token (P := fun kind lexeme => ∀ n, kind = .int n → IntLexeme n lexeme)
    (fun _ _ _ hpiece _ hn => scan_int (hn ▸ hpiece)) source.units .origin t ht n hk

end SceneScript
