import SceneScript.Proofs.Token.Lines
import SceneScript.Proofs.Token.Numbers

/-!
# Tokens with spaces between them

What a token is depends on its lexeme alone. Followed by a space or by nothing a lexeme is read as
it was in its script: the space can belong neither to a name, a number or a symbol nor begin a
comment with a slash, and a string ends with its quote anyway. So a script without lexical errors
may be written anew with single spaces between its tokens.

* **`SetApart`** — the units behind a lexeme: none, or a space in front.
* **`StandsAlone`** — a lexeme that is one step wherever it stands apart.
* **`scan_standsAlone`** — the lexeme of a step that reads a token is such a lexeme.
* **`lexFrom_spaced`** — lexemes with spaces between them are read one by one.
* **`tokenize_respaced`** — whole scripts.
-/

namespace SceneScript

/-- Nothing, or units that begin with a space. -/
def SetApart (vs : List UInt16) : Prop := vs = [] ∨ ∃ ws, vs = 0x20 :: ws

/-- In front of units that stand apart the lexeme is one step, which reads a token of the kind and
    finds no invalid escape. -/
def StandsAlone (kind : TokenKind) (lexeme : List UInt16) : Prop :=
  ∃ u tail, lexeme = u :: tail ∧
    ∀ vs, SetApart vs → scan u (tail ++ vs) = ⟨.token kind, tail.length, []⟩

theorem SetApart.takeWhile {p : UInt16 → Bool} (hp : p 0x20 = false) {vs : List UInt16}
    (h : SetApart vs) : vs.takeWhile p = [] := by
  rcases h with rfl | ⟨ws, rfl⟩
  · rfl
  · rw [List.takeWhile_cons, hp]
    rfl

/-- The front of some units, in front of units that stand apart. -/
theorem takeWhile_apart {p : UInt16 → Bool} (hp : p 0x20 = false) {vs : List UInt16}
    (h : SetApart vs) (us : List UInt16) : (us.takeWhile p ++ vs).takeWhile p = us.takeWhile p := by
  rw [List.takeWhile_append_of_pos (List.all_eq_true.mp List.all_takeWhile), h.takeWhile hp,
    List.append_nil]

/-! ## Strings -/

/-- A closed string is read up to its quote, whatever is behind. -/
theorem scanString_closed {us : List UInt16} {k : Nat} (h : (scanString k us).closed = true)
    (vs : List UInt16) :
    scanString k (us.take (scanString k us).size ++ vs) = scanString k us := by
  induction us using stringBody_cases generalizing k with
  | nil => cases h
  | line us =>
      rw [scanString_lineFeed] at h
      cases h
  | quote us =>
      rw [scanString_quote]
      exact scanString_quote k vs
  | lone => cases h
  | escape e us ih =>
      rw [scanString_escape] at h ⊢
      rw [List.take_succ_cons, List.take_succ_cons, List.cons_append, List.cons_append,
        scanString_escape, ih h]
  | plain u us hline hquote hescape ih =>
      rw [scanString_plain hline hquote hescape] at h ⊢
      rw [List.take_succ_cons, List.cons_append, scanString_plain hline hquote hescape, ih h]

/-! ## Numbers -/

/-- A number is its digits, or its digits, a point and more digits. -/
theorem numeral_cases (us : List UInt16) :
    (fractionDigits (us.dropWhile isDigitUnit) = [] ∧
      us.take (numeralLength us) = us.takeWhile isDigitUnit) ∨
    (fractionDigits (us.dropWhile isDigitUnit) ≠ [] ∧
      us.take (numeralLength us) =
        us.takeWhile isDigitUnit ++ 0x2E :: fractionDigits (us.dropWhile isDigitUnit)) := by
  have hwhole : us = us.takeWhile isDigitUnit ++ us.dropWhile isDigitUnit :=
    List.takeWhile_append_dropWhile.symm
  by_cases hfraction : fractionDigits (us.dropWhile isDigitUnit) = []
  · refine .inl ⟨hfraction, ?_⟩
    rw [numeralLength, hfraction]
    exact (List.prefix_iff_eq_take.mp (List.takeWhile_prefix isDigitUnit)).symm
  · refine .inr ⟨hfraction, ?_⟩
    have hsize : numeralLength us = (us.takeWhile isDigitUnit ++
        0x2E :: fractionDigits (us.dropWhile isDigitUnit)).length := by
      rw [numeralLength, if_neg (by simpa using hfraction)]
      simp only [List.length_append, List.length_cons]
      omega
    rw [hsize]
    refine (List.prefix_iff_eq_take.mp ?_).symm
    conv_rhs => rw [hwhole]
    rw [List.prefix_append_right_inj]
    cases hrest : us.dropWhile isDigitUnit with
    | nil => rw [hrest] at hfraction; exact absurd rfl hfraction
    | cons v vs =>
        rw [hrest] at hfraction
        by_cases hv : v = 0x2E
        · subst hv
          exact List.cons_prefix_cons.mpr ⟨rfl, List.takeWhile_prefix isDigitUnit⟩
        · exact absurd (by rw [fractionDigits, if_neg hv]) hfraction

/-- A numeral that stands apart has the same parts as before. -/
theorem numeral_apart {vs : List UInt16} (h : SetApart vs) (us : List UInt16) :
    (us.take (numeralLength us) ++ vs).takeWhile isDigitUnit = us.takeWhile isDigitUnit ∧
    fractionDigits ((us.take (numeralLength us) ++ vs).dropWhile isDigitUnit) =
      fractionDigits (us.dropWhile isDigitUnit) := by
  have hdigits : ∀ u ∈ us.takeWhile isDigitUnit, isDigitUnit u = true :=
    List.all_eq_true.mp List.all_takeWhile
  rcases numeral_cases us with ⟨hfraction, hnumeral⟩ | ⟨hfraction, hnumeral⟩
  · rw [hnumeral, takeWhile_apart (by decide) h, hfraction, List.dropWhile_append_of_pos hdigits]
    refine ⟨rfl, ?_⟩
    rcases h with rfl | ⟨ws, rfl⟩ <;> rfl
  · have hmore : (fractionDigits (us.dropWhile isDigitUnit) ++ vs).takeWhile isDigitUnit =
        fractionDigits (us.dropWhile isDigitUnit) := by
      cases hrest : us.dropWhile isDigitUnit with
      | nil => rw [hrest] at hfraction; exact absurd rfl hfraction
      | cons v rest =>
          rw [hrest, fractionDigits] at hfraction
          rw [fractionDigits]
          split
          · exact takeWhile_apart (by decide) h rest
          · next hv => exact absurd (if_neg hv) hfraction
    rw [hnumeral, List.append_assoc, List.cons_append, List.takeWhile_append_of_pos hdigits,
      List.dropWhile_append_of_pos hdigits, List.takeWhile_cons_of_neg (by decide),
      List.dropWhile_cons_of_neg (by decide), List.append_nil]
    exact ⟨rfl, hmore⟩

/-- A number that runs into no name, standing apart. -/
theorem numberStep_apart {us vs : List UInt16} (h : SetApart vs) (htail : numeralTail us = []) :
    numberStep (us.take (numeralLength us) ++ vs) = numberStep us := by
  obtain ⟨hwhole, hfraction⟩ := numeral_apart h us
  have hlength : numeralLength (us.take (numeralLength us) ++ vs) = numeralLength us := by
    rw [numeralLength, hwhole, hfraction, numeralLength]
  have hsize : (us.take (numeralLength us)).length = numeralLength us := by
    rw [List.length_take, Nat.min_eq_left (numeralLength_le us)]
  have htail' : numeralTail (us.take (numeralLength us) ++ vs) = [] := by
    rw [numeralTail, hlength, List.drop_left' hsize, h.takeWhile (by decide)]
  rw [numberStep_eq, numberStep_eq, hlength, htail', htail, numeralPiece, numeralPiece, htail',
    htail, hwhole, hfraction]
  rfl

/-! ## One step -/

/-- A number that is a token runs into no name. -/
theorem numberStep_tail {us : List UInt16} {kind : TokenKind}
    (h : (numberStep us).piece = .token kind) : numeralTail us = [] := by
  rw [numberStep_eq, numeralPiece] at h
  by_contra hne
  simp [hne] at h

/-- A number that is a token has all units of the numeral. -/
theorem numberStep_extra {u : UInt16} (hu : isDigitUnit u = true) {rest : List UInt16}
    {kind : TokenKind} (h : (numberStep (u :: rest)).piece = .token kind) :
    (numberStep (u :: rest)).extra + 1 = numeralLength (u :: rest) := by
  have hpos := numeralLength_pos hu rest
  rw [numberStep_eq, numberStep_tail h, List.length_nil]
  dsimp only
  omega

/-- A symbol that stands apart. -/
theorem symbolStep_apart {u : UInt16} {rest vs : List UInt16} (h : SetApart vs) :
    symbolStep u (rest.take (symbolStep u rest).extra ++ vs) = symbolStep u rest := by
  have hpair : symbolStep u vs = symbolStep u [] := by
    rcases h with rfl | ⟨ws, rfl⟩
    · rfl
    · have hspace : isSpaceUnit 0x20 = true := by decide
      simp only [symbolStep, ofPair?_blank _ hspace]
  cases rest with
  | nil => rw [List.take_nil, List.nil_append, hpair]
  | cons v rest =>
      by_cases hv : Symbol.ofPair? (charOfUnit u) (charOfUnit v) = none
      · have halone : symbolStep u (v :: rest) = symbolStep u [] := by
          simp only [symbolStep, hv]
        have hextra : (symbolStep u []).extra = 0 := by
          rw [symbolStep]
          cases Symbol.ofChar? (charOfUnit u) <;> rfl
        rw [halone, hextra, List.take_zero, List.nil_append, hpair]
      · obtain ⟨s, hs⟩ := Option.ne_none_iff_exists'.mp hv
        have htwo : ∀ ws, symbolStep u (v :: ws) = ⟨.token (.symbol s), 1, []⟩ := fun ws => by
          simp only [symbolStep, hs]
        rw [htwo, List.take_succ_cons, List.cons_append, htwo]

/-- A string that is a token is closed. -/
theorem stringStep_closes {rest : List UInt16} {kind : TokenKind}
    (h : (stringStep rest).piece = .token kind) : (scanString 1 rest).closed = true := by
  by_contra hopen
  rw [stringStep] at h
  simp [hopen] at h

/-- A string that is a token, in front of anything. -/
theorem stringStep_closed {rest : List UInt16} {kind : TokenKind}
    (h : (stringStep rest).piece = .token kind) (vs : List UInt16) :
    stringStep (rest.take (stringStep rest).extra ++ vs) = stringStep rest := by
  have hbody : scanString 1 (rest.take (stringStep rest).extra ++ vs) = scanString 1 rest :=
    scanString_closed (stringStep_closes h) vs
  rw [stringStep, hbody, stringStep]

/-- A name or a keyword that stands apart. -/
theorem nameStep_apart {u : UInt16} (hu : isNameStart u = true) {rest vs : List UInt16}
    (h : SetApart vs) :
    nameStep (u :: (rest.take (nameStep (u :: rest)).extra ++ vs)) = nameStep (u :: rest) := by
  have hpart := isNamePart_of_isNameStart hu
  have hname : (u :: (rest.take (rest.takeWhile isNamePart).length ++ vs)).takeWhile isNamePart =
      (u :: rest).takeWhile isNamePart := by
    rw [← List.prefix_iff_eq_take.mp (List.takeWhile_prefix isNamePart),
      List.takeWhile_cons_of_pos hpart, takeWhile_apart (by decide) h,
      List.takeWhile_cons_of_pos hpart]
  rw [nameStep_extra hpart, nameStep, hname, nameStep]

/-- No comment begins where a lexeme stands apart that began none before. -/
theorem head?_apart {u : UInt16} {rest vs : List UInt16} (h : SetApart vs)
    (hcomment : ¬(u = 0x2F && rest.head? == some 0x2F) = true) (n : Nat) :
    ¬(u = 0x2F && (rest.take n ++ vs).head? == some 0x2F) = true := by
  intro hslash
  simp only [Bool.and_eq_true, decide_eq_true_eq, beq_iff_eq] at hcomment hslash
  refine hcomment ⟨hslash.1, ?_⟩
  have hhead := hslash.2
  cases n with
  | zero => rcases h with rfl | ⟨ws, rfl⟩ <;> simp at hhead
  | succ n =>
      cases rest with
      | nil => rcases h with rfl | ⟨ws, rfl⟩ <;> simp at hhead
      | cons v rest => exact hhead

/-- A step that reads a token reads it again in front of units that stand apart. -/
theorem scan_apart {u : UInt16} {rest vs : List UInt16} {kind : TokenKind} (h : SetApart vs)
    (hpiece : (scan u rest).piece = .token kind) :
    scan u (rest.take (scan u rest).extra ++ vs) = scan u rest := by
  have hspace : ¬isSpaceUnit u = true := by
    intro hspace
    rw [scan, if_pos hspace] at hpiece
    cases hpiece
  have hcomment : ¬(u = 0x2F && rest.head? == some 0x2F) = true := by
    intro hcomment
    rw [scan, if_neg hspace, if_pos hcomment] at hpiece
    cases hpiece
  have hscan : ∀ ws, ¬(u = 0x2F && ws.head? == some 0x2F) = true → scan u ws =
      if u = 0x22 then stringStep ws
      else if isDigitUnit u then numberStep (u :: ws)
      else if isNameStart u then nameStep (u :: ws)
      else symbolStep u ws := fun ws hws => by
    rw [scan, if_neg hspace, if_neg hws]
  rw [hscan _ (head?_apart h hcomment _)]
  rw [hscan rest hcomment] at hpiece ⊢
  by_cases hquote : u = 0x22
  · simp only [if_pos hquote] at hpiece ⊢
    exact stringStep_closed hpiece vs
  by_cases hdigit : isDigitUnit u = true
  · simp only [if_neg hquote, if_pos hdigit] at hpiece ⊢
    rw [← List.cons_append, ← List.take_succ_cons, numberStep_extra hdigit hpiece]
    exact numberStep_apart h (numberStep_tail hpiece)
  by_cases hname : isNameStart u = true
  · simp only [if_neg hquote, if_neg hdigit, if_pos hname] at hpiece ⊢
    exact nameStep_apart hname h
  · simp only [if_neg hquote, if_neg hdigit, if_neg hname] at hpiece ⊢
    exact symbolStep_apart h

theorem scan_standsAlone {u : UInt16} {rest : List UInt16} {kind : TokenKind}
    (hpiece : (scan u rest).piece = .token kind) (hescapes : (scan u rest).escapes = []) :
    StandsAlone kind (u :: rest.take (scan u rest).extra) := by
  refine ⟨u, _, rfl, fun vs h => ?_⟩
  have hlength : (rest.take (scan u rest).extra).length = (scan u rest).extra := by
    rw [List.length_take, Nat.min_eq_left (scan_extra_le u rest)]
  rw [scan_apart h hpiece, hlength, ← hpiece, ← hescapes]

/-! ## The whole text -/

/-- Where no error is found, the lexemes of all tokens stand alone. -/
theorem lexFrom_standsAlone (us : List UInt16) (p : Position)
    (h : (lexFrom false p us).errors = []) :
    ∀ t ∈ (lexFrom false p us).tokens, StandsAlone t.kind t.lexeme.units := by
  match us with
  | [] =>
      rw [lexFrom]
      exact fun _ ht => absurd ht List.not_mem_nil
  | u :: rest =>
      rw [lexFrom_step] at h ⊢
      obtain ⟨hstep, hrest⟩ := List.append_eq_nil_iff.mp h
      refine List.forall_mem_append.mpr ⟨fun t ht => ?_, lexFrom_standsAlone _ _ hrest⟩
      have hescapes : (scan u rest).escapes = [] :=
        List.map_eq_nil_iff.mp (List.append_eq_nil_iff.mp hstep).1
      rw [Scanned.lexed, Scanned.tokens] at ht
      split at ht
      · next kind hpiece =>
          rw [List.mem_singleton.mp ht]
          exact scan_standsAlone hpiece hescapes
      · exact absurd ht List.not_mem_nil
termination_by us.length
decreasing_by simp only [List.length_drop, List.length_cons]; omega

/-- What re-spacing keeps of a token. -/
def Token.content (t : Token) : TokenKind × Text := (t.kind, t.lexeme)

/-- A lexeme that stands alone, in front of units that stand apart. -/
theorem StandsAlone.lexFrom_append {kind : TokenKind} {lexeme vs : List UInt16}
    (h : StandsAlone kind lexeme) (hvs : SetApart vs) (p : Position) :
    lexFrom false p (lexeme ++ vs) =
      Lexed.followedBy ⟨[⟨kind, ⟨lexeme⟩, ⟨p, p.after lexeme⟩⟩], [], p.after lexeme⟩
        (lexFrom false (p.after lexeme) vs) := by
  obtain ⟨u, tail, rfl, hscan⟩ := h
  rw [List.cons_append, lexFrom_step, hscan vs hvs, List.take_left, List.drop_left]
  rfl

theorem lexFrom_space (p : Position) (vs : List UInt16) :
    lexFrom false p (0x20 :: vs) = lexFrom false (p.next 0x20) vs := by
  have hscan : scan 0x20 vs = ⟨.trivia, 0, []⟩ := by rw [scan, if_pos (by decide)]
  rw [lexFrom_step, hscan]
  rfl

/-- Lexemes that stand alone, with spaces between them, are read one by one. -/
theorem lexFrom_spaced (tokens : List Token)
    (h : ∀ t ∈ tokens, StandsAlone t.kind t.lexeme.units) (p : Position) :
    (lexFrom false p ([0x20].intercalate (tokens.map fun t => t.lexeme.units))).errors = [] ∧
    (lexFrom false p ([0x20].intercalate (tokens.map fun t => t.lexeme.units))).tokens.map
      Token.content = tokens.map Token.content := by
  induction tokens generalizing p with
  | nil =>
      rw [List.map_nil, List.intercalate_nil, lexFrom]
      exact ⟨rfl, rfl⟩
  | cons t tokens ih =>
      obtain ⟨ht, htokens⟩ := List.forall_mem_cons.mp h
      cases tokens with
      | nil =>
          have hlex := ht.lexFrom_append (.inl rfl) p
          rw [List.append_nil] at hlex
          rw [List.map_singleton, List.intercalate_singleton, hlex, lexFrom]
          exact ⟨rfl, rfl⟩
      | cons t' tokens =>
          obtain ⟨herrors, hcontent⟩ := ih htokens ((p.after t.lexeme.units).next 0x20)
          rw [List.map_cons, List.map_cons, List.intercalate_cons_cons, List.append_assoc,
            List.singleton_append, ht.lexFrom_append (.inr ⟨_, rfl⟩), lexFrom_space]
          refine ⟨herrors, ?_⟩
          rw [Lexed.followedBy, List.map_append]
          exact congrArg (List.cons t.content) hcontent

/-- The lexemes of all tokens with single spaces between them. -/
def Lexed.respaced (l : Lexed) : Text := Text.join " " (l.tokens.map Token.lexeme)

/-- A script without lexical errors may be written anew with single spaces between its tokens:
    there are no errors then either, and the tokens have the same kinds, values and lexemes. -/
theorem tokenize_respaced {source : Text} (h : (tokenize source false).errors = []) :
    (tokenize (tokenize source false).respaced false).errors = [] ∧
    (tokenize (tokenize source false).respaced false).tokens.map Token.content =
      (tokenize source false).tokens.map Token.content := by
  have hunits : (tokenize source false).respaced.units =
      [0x20].intercalate ((tokenize source false).tokens.map fun t => t.lexeme.units) := by
    rw [Lexed.respaced, Text.join, List.map_map]
    rfl
  rw [tokenize, hunits]
  exact lexFrom_spaced _ (lexFrom_standsAlone source.units .origin h) .origin

/-- A script with no blank between its tokens, and what it is written anew as. -/
theorem tokenize_respaced_glued :
    (tokenize "x-=1.5.y//z" false).errors = [] ∧
    (tokenize "x-=1.5.y//z" false).respaced = ("x -= 1.5 . y" : Text) ∧
    (tokenize "x -= 1.5 . y" false).errors = [] ∧
    (tokenize "x -= 1.5 . y" false).tokens.map Token.content =
      (tokenize "x-=1.5.y//z" false).tokens.map Token.content := by
  have herrors : (tokenize "x-=1.5.y//z" false).errors = [] := by decide +kernel
  have hrespaced : (tokenize "x-=1.5.y//z" false).respaced = ("x -= 1.5 . y" : Text) := by
    decide +kernel
  have h := tokenize_respaced herrors
  rw [hrespaced] at h
  exact ⟨herrors, hrespaced, h⟩

end SceneScript
