import SceneScript.Proofs.Token.Lines
import SceneScript.Proofs.Token.Numbers

/-!
# Writing a text as a string literal

Every sequence of units is the value of a string literal. A line feed, a backslash and a quote have
to be escaped; a tab, a carriage return and a null unit may be; everything else, half of a pair
included, stands for itself. What follows the closing quote has no influence.

* **`escapeLetter`** — the letter behind the backslash, the other way round of `decodeEscape`.
* **`Text.quoted`** — a text as a literal, with all escapes that there are.
* **`Text.IsLiteralOf`** — all ways of writing a text: blank units with or without their escapes.
* **`scanString_writes`** — what is written is read back.
* **`tokenize_literal`** — the literal is the first token, and no error lies in it.
-/

namespace SceneScript

/-! ## Literals -/

/-- The letter of the escape that a unit has. -/
def escapeLetter (u : UInt16) : Option UInt16 :=
  if u = lineFeed then some 0x6E
  else if u = 0x09 then some 0x74
  else if u = 0x0D then some 0x72
  else if u = 0x00 then some 0x30
  else if u = 0x5C then some 0x5C
  else if u = 0x22 then some 0x22
  else none

/-- A unit inside a literal, escaped if it has an escape. -/
def quoteUnit (u : UInt16) : List UInt16 :=
  match escapeLetter u with
  | some e => [0x5C, e]
  | none   => [u]

/-- The text as a literal. -/
def Text.quoted (s : Text) : Text := ⟨0x22 :: s.units.flatMap quoteUnit ++ [0x22]⟩

/-- The units `us` may be written inside a literal as `ws`: a tab, a carriage return and a null
    unit may also stand for themselves. -/
inductive Writes : List UInt16 → List UInt16 → Prop where
  | nil : Writes [] []
  | quote (u : UInt16) (us ws : List UInt16) : Writes us ws → Writes (u :: us) (quoteUnit u ++ ws)
  | plain (u : UInt16) (us ws : List UInt16) :
      u = 0x09 ∨ u = 0x0D ∨ u = 0x00 → Writes us ws → Writes (u :: us) (u :: ws)

/-- The first text is a literal of the second. -/
def Text.IsLiteralOf (lit s : Text) : Prop :=
  ∃ ws, Writes s.units ws ∧ lit = ⟨0x22 :: ws ++ [0x22]⟩

theorem Text.quoted_isLiteralOf (s : Text) : s.quoted.IsLiteralOf s := by
  refine ⟨_, ?_, rfl⟩
  induction s.units with
  | nil => exact .nil
  | cons u us ih => exact .quote u us _ ih

/-! ## Reading back -/

/-- Escapes are read as what they were written for. -/
theorem decodeEscape_escapeLetter {u e : UInt16} (h : escapeLetter u = some e) :
    decodeEscape e = some u := by
  unfold escapeLetter at h
  split_ifs at h with hn ht hr h0 hb hq
  all_goals
    cases h
    subst_vars
    decide

/-- A unit without an escape is nothing special inside a literal. -/
theorem escapeLetter_eq_none {u : UInt16} (h : escapeLetter u = none) :
    u ≠ lineFeed ∧ u ≠ 0x22 ∧ u ≠ 0x5C := by
  refine ⟨?_, ?_, ?_⟩ <;> rintro rfl <;> revert h <;> decide

/-- What is written inside a literal is read back up to the closing quote, whatever is behind. -/
theorem scanString_writes {us ws : List UInt16} (h : Writes us ws) (k : Nat) (vs : List UInt16) :
    scanString k (ws ++ 0x22 :: vs) = ⟨ws.length + 1, us, [], true⟩ := by
  induction h generalizing k with
  | nil => exact scanString_quote k vs
  | quote u us ws _ ih =>
      rw [quoteUnit]
      cases he : escapeLetter u with
      | some e =>
          have hd := decodeEscape_escapeLetter he
          show scanString k (0x5C :: e :: (ws ++ 0x22 :: vs)) = _
          rw [scanString_escape, ih, hd]
          rfl
      | none =>
          obtain ⟨hline, hquote, hescape⟩ := escapeLetter_eq_none he
          show scanString k (u :: (ws ++ 0x22 :: vs)) = _
          rw [scanString_plain hline hquote hescape, ih]
          rfl
  | plain u us ws hu _ ih =>
      have hplain : u ≠ lineFeed ∧ u ≠ 0x22 ∧ u ≠ 0x5C := by
        rcases hu with rfl | rfl | rfl <;> decide
      rw [List.cons_append, scanString_plain hplain.1 hplain.2.1 hplain.2.2, ih]
      rfl

/-- A literal is one step. -/
theorem scan_literal {s : Text} {ws : List UInt16} (h : Writes s.units ws) (vs : List UInt16) :
    scan 0x22 (ws ++ 0x22 :: vs) = ⟨.token (.string s), ws.length + 1, []⟩ := by
  rw [scan_quote, stringStep, scanString_writes h]
  rfl

/-- Every text can be written as a literal and is read back exactly: the text with its escapes is a
    literal of it; and however it is written, with its tabs, carriage returns and null units escaped
    or not, in front of any other text the literal is the first token, its value is the text, and
    all errors lie behind it. -/
theorem tokenize_literal (s t : Text) : s.quoted.IsLiteralOf s ∧
    ∀ lit : Text, lit.IsLiteralOf s →
      (tokenize (lit ++ t) false).tokens.head? =
        some ⟨.string s, lit, ⟨.origin, (lit ++ t).positionAt lit.length⟩⟩ ∧
      ∀ e ∈ (tokenize (lit ++ t) false).errors, lit.length ≤ e.span.start.offset := by
  refine ⟨s.quoted_isLiteralOf, ?_⟩
  rintro lit ⟨ws, hws, rfl⟩
  have hstep := scan_literal hws t.units
  have hunits : (Text.mk (0x22 :: ws ++ [0x22]) ++ t).units = 0x22 :: (ws ++ 0x22 :: t.units) := by
    show 0x22 :: ws ++ [0x22] ++ t.units = _
    simp
  have hsplit : ws ++ 0x22 :: t.units = ws ++ [0x22] ++ t.units := by simp
  have hsize : (ws ++ [0x22]).length = ws.length + 1 := by simp
  have hstop : Position.after .origin (0x22 :: ws ++ [0x22]) =
      (Text.mk (0x22 :: ws ++ [0x22]) ++ t).positionAt (0x22 :: ws ++ [0x22]).length :=
    Text.after_origin rfl
  have hlex : tokenize (Text.mk (0x22 :: ws ++ [0x22]) ++ t) false =
      Lexed.followedBy
        ⟨[⟨.string s, ⟨0x22 :: ws ++ [0x22]⟩,
          ⟨.origin, Position.after .origin (0x22 :: ws ++ [0x22])⟩⟩], [],
          Position.after .origin (0x22 :: ws ++ [0x22])⟩
        (lexFrom false (Position.after .origin (0x22 :: ws ++ [0x22])) t.units) := by
    rw [tokenize, hunits, lexFrom_step, hstep, hsplit, List.take_left' hsize, List.drop_left' hsize]
    rfl
  rw [hlex]
  refine ⟨by rw [hstop]; rfl, fun e he => ?_⟩
  have hfrom := lexFrom_errors_from _ _ e he
  rwa [Position.after_offset, show Position.origin.offset = 0 from rfl, Nat.zero_add] at hfrom

/-- A bare tab, half of a pair and a backslash at the end, in front of a quote that opens a string
    which is not closed. -/
theorem tokenize_literal_bare :
    (Text.mk [0x22, 0x09, 0xD800, 0x5C, 0x5C, 0x22]).IsLiteralOf ⟨[0x09, 0xD800, 0x5C]⟩ ∧
    (tokenize (⟨[0x22, 0x09, 0xD800, 0x5C, 0x5C, 0x22]⟩ ++ ⟨[0x22]⟩) false).tokens.head? =
      some ⟨.string ⟨[0x09, 0xD800, 0x5C]⟩, ⟨[0x22, 0x09, 0xD800, 0x5C, 0x5C, 0x22]⟩,
        ⟨⟨0, 0, 0⟩, ⟨6, 0, 6⟩⟩⟩ ∧
    ∀ e ∈ (tokenize (⟨[0x22, 0x09, 0xD800, 0x5C, 0x5C, 0x22]⟩ ++ ⟨[0x22]⟩) false).errors,
      6 ≤ e.span.start.offset := by
  have hlit : (Text.mk [0x22, 0x09, 0xD800, 0x5C, 0x5C, 0x22]).IsLiteralOf
      ⟨[0x09, 0xD800, 0x5C]⟩ :=
    ⟨[0x09, 0xD800, 0x5C, 0x5C],
      .plain _ _ _ (.inl rfl) (.quote 0xD800 _ _ (.quote 0x5C _ _ .nil)), rfl⟩
  exact ⟨hlit, (tokenize_literal ⟨[0x09, 0xD800, 0x5C]⟩ ⟨[0x22]⟩).2 _ hlit⟩

end SceneScript
