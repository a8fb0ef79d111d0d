import SceneScript.Proofs.Token.Tiling

/-!
# A step and the lines of its text

What a single step of the lexer takes, seen against the line feeds of a text. Numbers, names,
symbols and comments end in front of a line feed at the latest, and so does a string, unless the
line feed follows a backslash that begins an escape.

* **`Scanned.OnLine`**, **`scan_onLine`** — a step takes units of one line, strings apart.
* **`StringBody.BreaksOff`** — a string goes on to the end of the units, and they end in an escape.
* **`scan_stop`** — a line feed behind the units changes no step but that of such a string.
* **`stringStep_breaksOff`** — what it changes there.
* **`scan_crosses`**, **`scan_escapes`** — a line feed inside a step is an invalid escape of it, and
  an invalid escape lies where it is said to be.
-/

namespace SceneScript

theorem scanString_size_le (k : Nat) (us : List UInt16) : (scanString k us).size ≤ us.length := by
  fun_induction scanString k us <;> simp_all +zetaDelta

/-! ## Units in front of a line feed -/

section Stop

variable {p : UInt16 → Bool}

theorem takeWhile_stop {u : UInt16} (h : p u = false) (us vs : List UInt16) :
    (us ++ u :: vs).takeWhile p = us.takeWhile p := by
  induction us with
  | nil => simp [h]
  | cons a us ih => simp only [List.cons_append, List.takeWhile_cons, ih]

theorem dropWhile_stop {u : UInt16} (h : p u = false) (us vs : List UInt16) :
    (us ++ u :: vs).dropWhile p = us.dropWhile p ++ u :: vs := by
  induction us with
  | nil => simp [h]
  | cons a us ih =>
      simp only [List.cons_append, List.dropWhile_cons, ih]
      split <;> rfl

theorem notMem_takeWhile {u : UInt16} (h : p u = false) (us : List UInt16) :
    u ∉ us.takeWhile p := by
  intro hu
  have hp : p u = true := List.all_eq_true.mp List.all_takeWhile u hu
  rw [h] at hp
  cases hp

end Stop

/-- The step takes the front of the units, none of which is a line feed. -/
def Scanned.OnLine (s : Scanned) (us : List UInt16) : Prop :=
  ∃ lexeme tail, us = lexeme ++ tail ∧ lineFeed ∉ lexeme ∧ s.extra + 1 = lexeme.length

/-! ## Numbers -/

/-- The number of units in the digits, the point and the digits that a numeral begins with. -/
def numeralLength (us : List UInt16) : Nat :=
  let whole := us.takeWhile isDigitUnit
  let fraction := fractionDigits (us.dropWhile isDigitUnit)
  if fraction.isEmpty then whole.length else whole.length + 1 + fraction.length

/-- The part of a name that a numeral runs into. -/
def numeralTail (us : List UInt16) : List UInt16 :=
  (us.drop (numeralLength us)).takeWhile isNamePart

/-- What a numeral is: a number, one that does not fit, or one that runs into a name. -/
def numeralPiece (us : List UInt16) : Piece :=
  let whole := us.takeWhile isDigitUnit
  let fraction := fractionDigits (us.dropWhile isDigitUnit)
  if !(numeralTail us).isEmpty then
    .problem (.malformedNumber ⟨us.take (numeralLength us + (numeralTail us).length)⟩)
  else if !fraction.isEmpty then
    .token (.float (Decimal.toBinary64 false
      ⟨decimalValue (whole ++ fraction), -(fraction.length : Int)⟩))
  else if maxIntMagnitude < decimalValue whole then .problem (.integerTooLarge ⟨whole⟩)
  else .token (.int (decimalValue whole))

/-- A number takes its numeral and the name that it runs into. -/
theorem numberStep_eq (us : List UInt16) :
    numberStep us = ⟨numeralPiece us, numeralLength us + (numeralTail us).length - 1, []⟩ := by
  by_cases htail : numeralTail us = []
  · have hsize : numeralLength us + (numeralTail us).length - 1 = numeralLength us - 1 := by
      rw [htail]
      rfl
    rw [hsize, numeralPiece, htail]
    unfold numeralTail at htail
    unfold numeralLength at htail ⊢
    unfold numberStep
    simp only [htail]
    split_ifs <;> rfl
  · have hsome : (!(numeralTail us).isEmpty) = true := by
      rw [List.isEmpty_eq_false_iff.mpr htail]
      rfl
    rw [numeralPiece, if_pos hsome]
    unfold numeralTail at hsome ⊢
    unfold numeralLength at hsome ⊢
    unfold numberStep
    exact if_pos hsome

theorem fractionDigits_stop (us vs : List UInt16) :
    fractionDigits (us ++ lineFeed :: vs) = fractionDigits us := by
  cases us with
  | nil => rfl
  | cons u us =>
      simp only [List.cons_append, fractionDigits]
      rw [takeWhile_stop (by decide)]

theorem numeral_split (us : List UInt16) :
    ∃ body rest, us = body ++ rest ∧ lineFeed ∉ body ∧ body.length = numeralLength us := by
  have hwhole : lineFeed ∉ us.takeWhile isDigitUnit := notMem_takeWhile (by decide) us
  rw [numeralLength]
  cases hrest : us.dropWhile isDigitUnit with
  | nil =>
      exact ⟨us.takeWhile isDigitUnit, us.dropWhile isDigitUnit,
        List.takeWhile_append_dropWhile.symm, hwhole, rfl⟩
  | cons v vs =>
      cases hfraction : fractionDigits (v :: vs) with
      | nil =>
          exact ⟨us.takeWhile isDigitUnit, us.dropWhile isDigitUnit,
            List.takeWhile_append_dropWhile.symm, hwhole, rfl⟩
      | cons d ds =>
          rw [fractionDigits] at hfraction
          split at hfraction
          · next hpoint =>
              refine ⟨us.takeWhile isDigitUnit ++ v :: vs.takeWhile isDigitUnit,
                vs.dropWhile isDigitUnit, ?_, ?_, ?_⟩
              · rw [List.append_assoc, List.cons_append, List.takeWhile_append_dropWhile, ← hrest,
                  List.takeWhile_append_dropWhile]
              · have hv : lineFeed ≠ v := by rw [hpoint]; decide
                rw [List.mem_append, List.mem_cons, not_or, not_or]
                exact ⟨hwhole, hv, notMem_takeWhile (by decide) vs⟩
              · rw [List.length_append, List.length_cons, hfraction]
                simp only [List.isEmpty_cons, Bool.false_eq_true, if_false]
                omega
          · cases hfraction

theorem numeralLength_pos {u : UInt16} (hu : isDigitUnit u = true) (rest : List UInt16) :
    0 < numeralLength (u :: rest) := by
  rw [numeralLength, List.takeWhile_cons_of_pos hu, List.length_cons]
  split <;> omega

theorem numberStep_onLine {u : UInt16} (hu : isDigitUnit u = true) (rest : List UInt16) :
    (numberStep (u :: rest)).OnLine (u :: rest) := by
  obtain ⟨body, tail, hsplit, hbody, hlength⟩ := numeral_split (u :: rest)
  have htail : numeralTail (u :: rest) = tail.takeWhile isNamePart := by
    rw [numeralTail, ← hlength]
    conv_lhs => rw [hsplit]
    rw [List.drop_left]
  have hpos := numeralLength_pos hu rest
  refine ⟨body ++ tail.takeWhile isNamePart, tail.dropWhile isNamePart, ?_, ?_, ?_⟩
  · rw [List.append_assoc, List.takeWhile_append_dropWhile, hsplit]
  · rw [List.mem_append, not_or]
    exact ⟨hbody, notMem_takeWhile (by decide) tail⟩
  · rw [numberStep_eq, htail, List.length_append, hlength]
    dsimp only
    omega

theorem numeralLength_le (us : List UInt16) : numeralLength us ≤ us.length := by
  obtain ⟨body, rest, hsplit, -, hlength⟩ := numeral_split us
  rw [← hlength]
  conv_rhs => rw [hsplit]
  rw [List.length_append]
  omega

theorem numeralLength_stop (us vs : List UInt16) :
    numeralLength (us ++ lineFeed :: vs) = numeralLength us := by
  rw [numeralLength, takeWhile_stop (by decide), dropWhile_stop (by decide), fractionDigits_stop,
    numeralLength]

theorem numeralTail_le (us : List UInt16) :
    numeralLength us + (numeralTail us).length ≤ us.length := by
  have hle := numeralLength_le us
  have htail := (List.takeWhile_prefix (l := us.drop (numeralLength us)) isNamePart).length_le
  rw [List.length_drop] at htail
  rw [numeralTail]
  omega

theorem numberStep_stop (us vs : List UInt16) :
    numberStep (us ++ lineFeed :: vs) = numberStep us := by
  have htail : numeralTail (us ++ lineFeed :: vs) = numeralTail us := by
    rw [numeralTail, numeralLength_stop, List.drop_append_of_le_length (numeralLength_le us),
      takeWhile_stop (by decide), numeralTail]
  have hpiece : numeralPiece (us ++ lineFeed :: vs) = numeralPiece us := by
    rw [numeralPiece, htail, numeralLength_stop, takeWhile_stop (by decide),
      dropWhile_stop (by decide), fractionDigits_stop,
      List.take_append_of_le_length (numeralTail_le us), numeralPiece]
  rw [numberStep_eq, hpiece, numeralLength_stop, htail, numberStep_eq]

/-! ## Names and symbols -/

theorem nameStep_eq (us : List UInt16) :
    ∃ kind, nameStep us = ⟨.token kind, (us.takeWhile isNamePart).length - 1, []⟩ := by
  rw [nameStep]
  cases Keyword.ofText? ⟨us.takeWhile isNamePart⟩ with
  | none => exact ⟨_, rfl⟩
  | some k => exact ⟨_, rfl⟩

/-- A name or a keyword has all parts of names that follow. -/
theorem nameStep_extra {u : UInt16} (hu : isNamePart u = true) (rest : List UInt16) :
    (nameStep (u :: rest)).extra = (rest.takeWhile isNamePart).length := by
  obtain ⟨kind, hstep⟩ := nameStep_eq (u :: rest)
  rw [hstep, List.takeWhile_cons_of_pos hu]
  rfl

theorem nameStep_text {u : UInt16} (hu : isNameStart u = true) (rest : List UInt16) :
    u :: rest.take (nameStep (u :: rest)).extra = (u :: rest).takeWhile isNamePart := by
  have hpart := isNamePart_of_isNameStart hu
  rw [nameStep_extra hpart, ← List.prefix_iff_eq_take.mp (List.takeWhile_prefix isNamePart),
    List.takeWhile_cons_of_pos hpart]

theorem nameStep_onLine {u : UInt16} (hu : isNameStart u = true) (rest : List UInt16) :
    (nameStep (u :: rest)).OnLine (u :: rest) := by
  have hpart := isNamePart_of_isNameStart hu
  obtain ⟨kind, hstep⟩ := nameStep_eq (u :: rest)
  refine ⟨(u :: rest).takeWhile isNamePart, (u :: rest).dropWhile isNamePart,
    List.takeWhile_append_dropWhile.symm, notMem_takeWhile (by decide) _, ?_⟩
  rw [hstep, List.takeWhile_cons_of_pos hpart]
  rfl

theorem nameStep_stop (us vs : List UInt16) : nameStep (us ++ lineFeed :: vs) = nameStep us := by
  rw [nameStep, takeWhile_stop (by decide), nameStep]

/-- No symbol has a blank behind its first unit. -/
theorem ofPair?_blank (c : Char) {v : UInt16} (hv : isSpaceUnit v = true) :
    Symbol.ofPair? c (charOfUnit v) = none := by
  simp only [isSpaceUnit, Bool.or_eq_true, decide_eq_true_eq] at hv
  have hchar : charOfUnit v ∈ [' ', '\t', '\r', '\n'] := by
    rcases hv with ((rfl | rfl) | rfl) | rfl <;> decide
  rw [Symbol.ofPair?]
  all_goals
    rintro rfl heq
    rw [heq] at hchar
    revert hchar
    decide

theorem ofPair?_lineFeed (c : Char) : Symbol.ofPair? c (charOfUnit lineFeed) = none :=
  ofPair?_blank c (by decide)

/-- A symbol takes a second unit only where both spell one. -/
theorem symbolStep_onLine {u : UInt16} (hu : u ≠ lineFeed) (rest : List UInt16) :
    (symbolStep u rest).OnLine (u :: rest) := by
  have alone : ∀ {s : Scanned}, s.extra = 0 → s.OnLine (u :: rest) := fun h =>
    ⟨[u], rest, rfl, by simpa using hu.symm, by rw [h]; rfl⟩
  unfold symbolStep
  cases rest with
  | nil =>
      dsimp only
      cases Symbol.ofChar? (charOfUnit u) <;> exact alone rfl
  | cons v vs =>
      dsimp only
      cases hpair : Symbol.ofPair? (charOfUnit u) (charOfUnit v) with
      | none => cases Symbol.ofChar? (charOfUnit u) <;> exact alone rfl
      | some s =>
          have hv : v ≠ lineFeed := by
            rintro rfl
            rw [ofPair?_lineFeed] at hpair
            cases hpair
          exact ⟨[u, v], vs, rfl, by simpa using ⟨hu.symm, hv.symm⟩, rfl⟩

theorem symbolStep_stop (u : UInt16) (us vs : List UInt16) :
    symbolStep u (us ++ lineFeed :: vs) = symbolStep u us := by
  cases us with
  | nil => simp only [symbolStep, List.nil_append, ofPair?_lineFeed]
  | cons v us => rfl

/-! ## Strings -/

/-- The number of backslashes that some units end in. -/
def trailingBackslashes (us : List UInt16) : Nat := (us.reverse.takeWhile (· = 0x5C)).length

theorem trailingBackslashes_cons (u : UInt16) (us : List UInt16) :
    trailingBackslashes (u :: us) =
      if trailingBackslashes us = us.length ∧ u = 0x5C then us.length + 1
      else trailingBackslashes us := by
  rw [trailingBackslashes, List.reverse_cons, List.takeWhile_append, List.length_reverse,
    trailingBackslashes]
  split
  · next hall =>
      by_cases hu : u = 0x5C
      · simp [hall, hu]
      · simp [hall, hu]
  · next hsome => rw [if_neg fun h => hsome h.1]

theorem trailingBackslashes_le (us : List UInt16) : trailingBackslashes us ≤ us.length := by
  have h := (List.takeWhile_prefix (l := us.reverse) (· = 0x5C)).length_le
  rwa [List.length_reverse] at h

/-- A unit that is no backslash, and what is before it, is not counted. -/
theorem trailingBackslashes_append {u : UInt16} (hu : u ≠ 0x5C) (front us : List UInt16) :
    trailingBackslashes (front ++ u :: us) = trailingBackslashes us := by
  induction front with
  | nil => rw [List.nil_append, trailingBackslashes_cons, if_neg fun h => hu h.2]
  | cons a front ih =>
      have hle := trailingBackslashes_le us
      rw [List.cons_append, trailingBackslashes_cons, ih, if_neg]
      rintro ⟨hall, -⟩
      simp at hall
      omega

/-- An escape does not change whether the backslashes at the end are paired. -/
theorem trailingBackslashes_escape (e : UInt16) (us : List UInt16) :
    trailingBackslashes (0x5C :: e :: us) % 2 = trailingBackslashes us % 2 := by
  have hle := trailingBackslashes_le us
  simp only [trailingBackslashes_cons, List.length_cons, and_true]
  split_ifs <;> omega

/-- The inside of a string goes on to the end of the units, unclosed, and they end in a backslash
    that begins an escape. -/
def StringBody.BreaksOff (body : StringBody) (us : List UInt16) : Prop :=
  body.closed = false ∧ body.size = us.length ∧ trailingBackslashes us % 2 = 1

theorem scanString_lineFeed (k : Nat) (vs : List UInt16) :
    scanString k (lineFeed :: vs) = ⟨0, [], [], false⟩ := by
  rw [scanString.eq_def]
  exact if_pos rfl

theorem scanString_quote (k : Nat) (vs : List UInt16) :
    scanString k (0x22 :: vs) = ⟨1, [], [], true⟩ := by
  rw [scanString.eq_def]
  rfl

/-- A plain unit of a string, and what is behind it. -/
theorem scanString_plain {u : UInt16} (hline : u ≠ lineFeed) (hquote : u ≠ 0x22)
    (hescape : u ≠ 0x5C) (k : Nat) (rest : List UInt16) :
    scanString k (u :: rest) =
      { scanString (k + 1) rest with
        size  := (scanString (k + 1) rest).size + 1
        value := u :: (scanString (k + 1) rest).value } := by
  rw [scanString.eq_def]
  dsimp only
  rw [if_neg hline, if_neg hquote, if_neg hescape]

/-- An escape of a string, and what is behind it. -/
theorem scanString_escape (k : Nat) (e : UInt16) (rest : List UInt16) :
    scanString k (0x5C :: e :: rest) =
      { scanString (k + 2) rest with
        size    := (scanString (k + 2) rest).size + 2
        value   := (decodeEscape e).toList ++ (scanString (k + 2) rest).value
        escapes := (if decodeEscape e = none then [(k, e)] else []) ++
          (scanString (k + 2) rest).escapes } := by
  rw [scanString.eq_def]
  dsimp only
  rw [if_neg (by decide), if_neg (by decide), if_pos rfl]
  cases decodeEscape e <;> rfl

/-- How the inside of a string begins: with a line feed or not at all, with the closing quote, with
    a last backslash, with an escape or with a plain unit. -/
theorem stringBody_cases {motive : List UInt16 → Prop}
    (nil : motive []) (line : ∀ us, motive (lineFeed :: us)) (quote : ∀ us, motive (0x22 :: us))
    (lone : motive [0x5C]) (escape : ∀ e us, motive us → motive (0x5C :: e :: us))
    (plain : ∀ u us, u ≠ lineFeed → u ≠ 0x22 → u ≠ 0x5C → motive us → motive (u :: us))
    (us : List UInt16) : motive us :=
  match us with
  | [] => nil
  | u :: rest => by
      by_cases hline : u = lineFeed
      · exact hline ▸ line rest
      by_cases hquote : u = 0x22
      · exact hquote ▸ quote rest
      by_cases hescape : u = 0x5C
      · rw [hescape]
        match rest with
        | []        => exact lone
        | e :: more => exact escape e more (stringBody_cases nil line quote lone escape plain more)
      · exact plain u rest hline hquote hescape
          (stringBody_cases nil line quote lone escape plain rest)
termination_by us.length

theorem scanString_stop (us vs : List UInt16) (k : Nat) (h : ¬(scanString k us).BreaksOff us) :
    scanString k (us ++ lineFeed :: vs) = scanString k us := by
  induction us using stringBody_cases generalizing k with
  | nil => rw [List.nil_append, scanString_lineFeed, scanString]
  | line us => rw [List.cons_append, scanString_lineFeed, scanString_lineFeed]
  | quote us => rw [List.cons_append, scanString_quote, scanString_quote]
  | lone => exact absurd ⟨rfl, rfl, rfl⟩ h
  | escape e us ih =>
      have hmore : ¬(scanString (k + 2) us).BreaksOff us := by
        rintro ⟨hclosed, hsize, htrailing⟩
        refine h ⟨?_, ?_, ?_⟩
        · rw [scanString_escape]
          exact hclosed
        · rw [scanString_escape, List.length_cons, List.length_cons, ← hsize]
        · rw [trailingBackslashes_escape, htrailing]
      rw [List.cons_append, List.cons_append, scanString_escape, scanString_escape, ih _ hmore]
  | plain u us hline hquote hescape ih =>
      have hmore : ¬(scanString (k + 1) us).BreaksOff us := by
        rintro ⟨hclosed, hsize, htrailing⟩
        refine h ⟨?_, ?_, ?_⟩
        · rw [scanString_plain hline hquote hescape]
          exact hclosed
        · rw [scanString_plain hline hquote hescape, List.length_cons, ← hsize]
        · rw [trailingBackslashes_cons, if_neg fun h => hescape h.2, htrailing]
      rw [List.cons_append, scanString_plain hline hquote hescape,
        scanString_plain hline hquote hescape, ih _ hmore]

/-- A string that breaks off goes on behind the line feed, which is one more invalid escape. -/
theorem scanString_breaksOff (us vs : List UInt16) (k : Nat) (h : (scanString k us).BreaksOff us) :
    (scanString k (us ++ lineFeed :: vs)).escapes =
      (scanString k us).escapes ++ (k + us.length - 1, lineFeed) ::
        (scanString (k + us.length + 1) vs).escapes ∧
    us.length < (scanString k (us ++ lineFeed :: vs)).size := by
  obtain ⟨hclosed, hsize, htrailing⟩ := h
  induction us using stringBody_cases generalizing k with
  | nil => cases htrailing
  | line us =>
      rw [scanString_lineFeed, List.length_cons] at hsize
      exact absurd hsize.symm (Nat.succ_ne_zero _)
  | quote us =>
      rw [scanString_quote] at hclosed
      cases hclosed
  | lone =>
      have hbody : scanString k [0x5C] = ⟨1, [], [], false⟩ := by rw [scanString.eq_def]; rfl
      rw [List.singleton_append, scanString_escape, hbody]
      exact ⟨rfl, by simp⟩
  | escape e us ih =>
      rw [scanString_escape] at hclosed hsize
      rw [trailingBackslashes_escape] at htrailing
      obtain ⟨hescapes, hlong⟩ := ih (k + 2) hclosed (by simpa using hsize) htrailing
      have hk : k + 2 + us.length = k + (us.length + 2) := by omega
      rw [List.cons_append, List.cons_append, scanString_escape, scanString_escape, hescapes,
        List.append_assoc, hk]
      exact ⟨rfl, by simpa using hlong⟩
  | plain u us hline hquote hescape ih =>
      rw [scanString_plain hline hquote hescape] at hclosed hsize
      rw [trailingBackslashes_cons, if_neg fun h => hescape h.2] at htrailing
      obtain ⟨hescapes, hlong⟩ := ih (k + 1) hclosed (by simpa using hsize) htrailing
      have hk : k + 1 + us.length = k + (us.length + 1) := by omega
      rw [List.cons_append, scanString_plain hline hquote hescape,
        scanString_plain hline hquote hescape, hescapes, hk]
      exact ⟨rfl, by simpa using hlong⟩

/-- The invalid escapes of a string lie in it, where they are said to be. -/
theorem scanString_escapes {us : List UInt16} {k j : Nat} {e : UInt16}
    (h : (j, e) ∈ (scanString k us).escapes) :
    ∃ front back, us.take (scanString k us).size = front ++ 0x5C :: e :: back ∧
      j = k + front.length := by
  induction us using stringBody_cases generalizing k with
  | nil => cases h
  | line us =>
      rw [scanString_lineFeed] at h
      cases h
  | quote us =>
      rw [scanString_quote] at h
      cases h
  | lone => cases h
  | escape d us ih =>
      rw [scanString_escape] at h ⊢
      rcases List.mem_append.mp h with h | h
      · split at h
        · cases List.mem_singleton.mp h
          exact ⟨[], _, rfl, rfl⟩
        · cases h
      · obtain ⟨front, back, htake, hj⟩ := ih h
        refine ⟨0x5C :: d :: front, back, ?_, ?_⟩
        · rw [List.take_succ_cons, List.take_succ_cons, htake]
          rfl
        · rw [hj, List.length_cons, List.length_cons]
          omega
  | plain u us hline hquote hescape ih =>
      rw [scanString_plain hline hquote hescape] at h ⊢
      obtain ⟨front, back, htake, hj⟩ := ih h
      refine ⟨u :: front, back, ?_, ?_⟩
      · rw [List.take_succ_cons, htake]
        rfl
      · rw [hj, List.length_cons]
        omega

/-- A line feed inside a string is an invalid escape of it. -/
theorem scanString_crosses {us : List UInt16} {k : Nat}
    (h : lineFeed ∈ us.take (scanString k us).size) :
    ∃ j, (j, lineFeed) ∈ (scanString k us).escapes := by
  induction us using stringBody_cases generalizing k with
  | nil => simp at h
  | line us =>
      rw [scanString_lineFeed] at h
      cases h
  | quote us =>
      rw [scanString_quote] at h
      simp [lineFeed] at h
  | lone =>
      have h := List.mem_of_mem_take h
      simp [lineFeed] at h
  | escape d us ih =>
      rw [scanString_escape, List.take_succ_cons, List.take_succ_cons] at h
      rw [scanString_escape]
      rcases List.mem_cons.mp h with hd | h
      · cases hd
      rcases List.mem_cons.mp h with rfl | h
      · exact ⟨k, by simp [decodeEscape, lineFeed]⟩
      · obtain ⟨j, hj⟩ := ih h
        exact ⟨j, List.mem_append_right _ hj⟩
  | plain u us hline hquote hescape ih =>
      rw [scanString_plain hline hquote hescape, List.take_succ_cons] at h
      rw [scanString_plain hline hquote hescape]
      rcases List.mem_cons.mp h with hu | h
      · exact absurd hu.symm hline
      · exact ih h

/-! ## One step -/

theorem scan_quote (rest : List UInt16) : scan 0x22 rest = stringStep rest := by
  rw [scan, if_neg (by decide), if_neg (by simp), if_pos rfl]

theorem scan_lineFeed (rest : List UInt16) : scan lineFeed rest = ⟨.trivia, 0, []⟩ := by
  rw [scan, if_pos (by decide)]

/-- A step takes units of one line, other than at a line feed and at a quote. -/
theorem scan_onLine {u : UInt16} (hline : u ≠ lineFeed) (hquote : u ≠ 0x22) (rest : List UInt16) :
    (scan u rest).OnLine (u :: rest) := by
  rw [scan]
  split_ifs with hspace hcomment hdigit hname
  · exact ⟨[u], rest, rfl, List.not_mem_cons_of_ne_of_not_mem hline.symm List.not_mem_nil, rfl⟩
  · refine ⟨u :: rest.takeWhile (· ≠ lineFeed), rest.dropWhile (· ≠ lineFeed), ?_, ?_, rfl⟩
    · rw [List.cons_append, List.takeWhile_append_dropWhile]
    · exact List.not_mem_cons_of_ne_of_not_mem hline.symm (notMem_takeWhile (by simp) rest)
  · exact numberStep_onLine hdigit rest
  · exact nameStep_onLine hname rest
  · exact symbolStep_onLine hline rest

theorem scan_extra_le (u : UInt16) (rest : List UInt16) : (scan u rest).extra ≤ rest.length := by
  by_cases hline : u = lineFeed
  · rw [hline, scan_lineFeed]
    exact Nat.zero_le _
  by_cases hquote : u = 0x22
  · rw [hquote, scan_quote]
    exact scanString_size_le 1 rest
  · obtain ⟨lexeme, tail, hsplit, -, hlength⟩ := scan_onLine hline hquote rest
    have h := congrArg List.length hsplit
    rw [List.length_append, List.length_cons] at h
    omega

/-- What is not trivia holds a line feed only as an invalid escape. -/
theorem scan_crosses {u : UInt16} {rest : List UInt16} (hpiece : (scan u rest).piece ≠ .trivia)
    (h : lineFeed ∈ u :: rest.take (scan u rest).extra) :
    ∃ k, (k, lineFeed) ∈ (scan u rest).escapes := by
  by_cases hline : u = lineFeed
  · rw [hline, scan_lineFeed] at hpiece
    exact absurd rfl hpiece
  by_cases hquote : u = 0x22
  · subst hquote
    rw [scan_quote] at h ⊢
    exact scanString_crosses ((List.mem_cons.mp h).resolve_left fun h => hline h.symm)
  · obtain ⟨lexeme, tail, hsplit, hnot, hlength⟩ := scan_onLine hline hquote rest
    have htake : u :: rest.take (scan u rest).extra = lexeme := by
      rw [← List.take_succ_cons, hsplit, hlength, List.take_left]
    rw [htake] at h
    exact absurd h hnot

/-- Only a string has invalid escapes, and only a string can be unterminated. -/
theorem scan_noString {u : UInt16} (hquote : u ≠ 0x22) (rest : List UInt16) :
    (scan u rest).escapes = [] ∧ (scan u rest).piece ≠ .problem .unterminatedString := by
  rw [scan]
  split_ifs with hspace hcomment hdigit hname
  · exact ⟨rfl, Piece.noConfusion⟩
  · exact ⟨rfl, Piece.noConfusion⟩
  · rw [numberStep_eq, numeralPiece]
    refine ⟨rfl, ?_⟩
    dsimp only
    split_ifs <;> simp
  · obtain ⟨kind, hstep⟩ := nameStep_eq (u :: rest)
    rw [hstep]
    exact ⟨rfl, Piece.noConfusion⟩
  · unfold symbolStep
    dsimp only
    split <;> exact ⟨rfl, by simp⟩

/-- The invalid escapes of a step lie in what it takes, where they are said to be. -/
theorem scan_escapes {u : UInt16} {rest : List UInt16} {k : Nat} {e : UInt16}
    (h : (k, e) ∈ (scan u rest).escapes) :
    ∃ front back, u :: rest.take (scan u rest).extra = front ++ 0x5C :: e :: back ∧
      k = front.length := by
  by_cases hquote : u = 0x22
  · subst hquote
    rw [scan_quote] at h ⊢
    obtain ⟨front, back, htake, hk⟩ := scanString_escapes h
    refine ⟨0x22 :: front, back, ?_, ?_⟩
    · exact congrArg (List.cons 0x22) htake
    · rw [hk, List.length_cons, Nat.add_comm]
  · rw [(scan_noString hquote rest).1] at h
    cases h

/-- A string is unterminated when it is not closed. -/
theorem scan_unterminated_iff {u : UInt16} {rest : List UInt16} :
    (scan u rest).piece = .problem .unterminatedString ↔
      u = 0x22 ∧ (scanString 1 rest).closed = false := by
  constructor
  · intro h
    have hquote : u = 0x22 := by_contra fun hu => (scan_noString hu rest).2 h
    subst hquote
    rw [scan_quote, stringStep] at h
    refine ⟨rfl, ?_⟩
    cases hclosed : (scanString 1 rest).closed with
    | false => rfl
    | true => simp [hclosed] at h
  · rintro ⟨rfl, hclosed⟩
    rw [scan_quote, stringStep]
    simp [hclosed]

theorem head?_stop (us vs : List UInt16) :
    ((us ++ lineFeed :: vs).head? == some 0x2F) = (us.head? == some 0x2F) := by
  cases us <;> rfl

/-- A line feed behind the units changes no step but that of a string that breaks off. -/
theorem scan_stop {u : UInt16} {rest : List UInt16} (vs : List UInt16)
    (h : ¬(u = 0x22 ∧ (scanString 1 rest).BreaksOff rest)) :
    scan u (rest ++ lineFeed :: vs) = scan u rest := by
  rw [scan, head?_stop, scan]
  split_ifs with hspace hcomment hquote hdigit hname
  · rfl
  · rw [takeWhile_stop (by simp)]
  · rw [stringStep, scanString_stop rest vs 1 fun hoff => h ⟨hquote, hoff⟩, stringStep]
  · exact numberStep_stop (u :: rest) vs
  · exact nameStep_stop (u :: rest) vs
  · exact symbolStep_stop u rest vs

/-- The error for an invalid escape at its offset in a lexeme. -/
def escapeError (p : Position) (lexeme : List UInt16) (escape : Nat × UInt16) : LexError :=
  ⟨.invalidEscape escape.2, ⟨p.after (lexeme.take escape.1), p.after (lexeme.take (escape.1 + 2))⟩⟩

theorem Scanned.errors_eq (s : Scanned) (p : Position) (lexeme : List UInt16) :
    ∃ whole, s.errors p lexeme = s.escapes.map (escapeError p lexeme) ++ whole ∧
      ∀ problem, s.piece = .problem problem → whole = [⟨problem, ⟨p, p.after lexeme⟩⟩] := by
  refine ⟨_, rfl, fun problem hpiece => ?_⟩
  rw [hpiece]

/-- The errors of a string that breaks off, and of what it becomes in front of a line feed. -/
theorem stringStep_breaksOff {rest : List UInt16} (vs : List UInt16) (p : Position)
    (h : (scanString 1 rest).BreaksOff rest) :
    ∃ before after,
      (scan 0x22 rest).errors p (0x22 :: rest) =
        before ++ [⟨.unterminatedString, ⟨p, p.after (0x22 :: rest)⟩⟩] ∧
      (scan 0x22 (rest ++ lineFeed :: vs)).errors p
          (0x22 :: (rest ++ lineFeed :: vs).take (scan 0x22 (rest ++ lineFeed :: vs)).extra) =
        before ++ ⟨.invalidEscape lineFeed, ⟨p.after (0x22 :: rest).dropLast,
          p.after (0x22 :: rest ++ [lineFeed])⟩⟩ :: after := by
  obtain ⟨hescapes, hlong⟩ := scanString_breaksOff rest vs 1 h
  have hpiece : (scan 0x22 rest).piece = .problem .unterminatedString :=
    scan_unterminated_iff.mpr ⟨rfl, h.1⟩
  have hextra : (scan 0x22 (rest ++ lineFeed :: vs)).extra =
      (scanString 1 (rest ++ lineFeed :: vs)).size := by rw [scan_quote]; rfl
  have hlist : (scan 0x22 (rest ++ lineFeed :: vs)).escapes =
      (scan 0x22 rest).escapes ++ (rest.length, lineFeed) ::
        (scanString (rest.length + 2) vs).escapes := by
    rw [scan_quote, scan_quote, stringStep, stringStep]
    dsimp only
    rw [hescapes]
    congr 2
    · rw [Nat.add_sub_cancel_left]
    · congr 2
      omega
  -- What the string takes in the joined text begins with all the units in front of the line feed.
  have htake : ∀ n, n ≤ rest.length + 2 →
      (0x22 :: (rest ++ lineFeed :: vs).take (scan 0x22 (rest ++ lineFeed :: vs)).extra).take n =
        (0x22 :: rest ++ [lineFeed]).take n := by
    intro n hn
    have happend :
        (0x22 : UInt16) :: (rest ++ lineFeed :: vs) = 0x22 :: rest ++ [lineFeed] ++ vs := by
      simp
    rw [← List.take_succ_cons, List.take_take, happend, Nat.min_eq_left (by omega),
      List.take_append_of_le_length (by simpa using hn)]
  have hshared : ∀ x ∈ (scan 0x22 rest).escapes, x.1 + 2 ≤ rest.length + 1 := by
    intro x hx
    obtain ⟨front, back, hlexeme, hk⟩ := scan_escapes (k := x.1) (e := x.2) hx
    have hlength := congrArg List.length hlexeme
    simp only [List.length_cons, List.length_take, List.length_append] at hlength
    omega
  have hwithin : ∀ n, n ≤ rest.length + 1 →
      (0x22 :: rest ++ [lineFeed]).take n = (0x22 :: rest).take n := fun n hn =>
    List.take_append_of_le_length (by simpa using hn)
  obtain ⟨whole, hown, hwhole⟩ := (scan 0x22 rest).errors_eq p (0x22 :: rest)
  obtain ⟨whole', hjoined, -⟩ := (scan 0x22 (rest ++ lineFeed :: vs)).errors_eq p
    (0x22 :: (rest ++ lineFeed :: vs).take (scan 0x22 (rest ++ lineFeed :: vs)).extra)
  rw [hlist, List.map_append, List.append_assoc, List.map_cons, List.cons_append] at hjoined
  have hmap : ∀ x ∈ (scan 0x22 rest).escapes,
      escapeError p (0x22 :: (rest ++ lineFeed :: vs).take
        (scan 0x22 (rest ++ lineFeed :: vs)).extra) x = escapeError p (0x22 :: rest) x := by
    intro x hx
    have hx := hshared x hx
    rw [escapeError, htake _ (by omega), htake _ (by omega), hwithin _ (by omega), hwithin _ hx,
      escapeError]
  have hlast : ((0x22 : UInt16) :: rest ++ [lineFeed]).take (rest.length + 2) =
      0x22 :: rest ++ [lineFeed] := List.take_of_length_le (by simp)
  have hend : ((0x22 : UInt16) :: rest).take rest.length = (0x22 :: rest).dropLast := by
    rw [List.dropLast_eq_take]
    rfl
  rw [List.map_congr_left hmap, escapeError, htake _ (by omega), htake _ (Nat.le_refl _),
    hwithin _ (by omega), hlast, hend] at hjoined
  exact ⟨_, _, by rw [hown, hwhole _ hpiece], hjoined⟩

end SceneScript
