import SceneScript.Ast
import SceneScript.Proofs.Text.Shown
import SceneScript.Proofs.Token.Edges
import SceneScript.Proofs.Token.Lines
import SceneScript.Proofs.Token.Numbers

/-!
# Names that stand by themselves

A name ends where no more units of names follow, and nothing that is read in front of a name ends
with such a unit: a word would have gone on, a number may not run into a name, and what ends a
string or a symbol belongs to no name. So a word of the text around any place inside a name is that
name, and it follows a dot only when the token in front of it is one.

* **`Ident.StandsIn`** — a name is a whole word of a text, and not behind a dot.
* **`scan_seam`** — what a step ends with where a name begins behind it.
* **`FreeNames`** — the identifiers among tokens that are not behind a dot have a property.
* **`tokenize_freeNames`** — they are whole words.
-/

namespace SceneScript

/-! ## Words of a text -/

/-- The text consists of `front`, the name at its place, and `back`. The name is a whole word, and
    no dot stands in front of it. -/
structure Ident.Between (id : Ident) (t : Text) (front back : List UInt16) : Prop where
  split  : t.units = front ++ id.name.units ++ back
  start  : id.span.start.offset = front.length
  stop   : id.span.stop.offset = front.length + id.name.length
  parts  : ∀ u ∈ id.name.units, isNamePart u = true
  begins : id.name.units.head?.any isNameStart = true
  before : ∀ w ∈ front.getLast?, isNamePart w = false ∧ w ≠ unitOf '.'
  behind : ∀ w ∈ back.head?, isNamePart w = false

/-- The name is a whole word at its place in the text, and no dot stands in front of it. -/
def Ident.StandsIn (id : Ident) (t : Text) : Prop := ∃ front back, id.Between t front back

/-! ## The end of a step -/

/-- The second unit of a symbol belongs to no name, and is no dot. -/
theorem ofPair?_second {c : Char} {v : UInt16} {s : Symbol}
    (h : Symbol.ofPair? c (charOfUnit v) = some s) : isNamePart v = false ∧ v ≠ unitOf '.' := by
  have hchar : charOfUnit v ∈ ['=', '>', '&', '|'] := by
    rw [Symbol.ofPair?.eq_def] at h
    split at h
    case h_12 => cases h
    all_goals (rename_i heq; rw [heq]; decide)
  simp only [List.mem_cons, List.not_mem_nil, or_false] at hchar
  have hunit : unitOf (charOfUnit v) = v := by
    refine unitOf_charOfUnit ?_
    generalize charOfUnit v = d at hchar
    rcases hchar with rfl | rfl | rfl | rfl <;> decide
  rw [← hunit]
  generalize charOfUnit v = d at hchar
  rcases hchar with rfl | rfl | rfl | rfl <;> decide

/-- A dot is a symbol of its own. -/
theorem symbolStep_dot (rest : List UInt16) :
    symbolStep (unitOf '.') rest = ⟨.token (.symbol .dot), 0, []⟩ := by
  cases rest <;> rfl

/-- What a symbol ends with. -/
theorem symbolStep_seam {u : UInt16} (hdigit : isDigitUnit u = false)
    (hname : isNameStart u = false) (rest : List UInt16) :
    ∃ w, (u :: rest.take (symbolStep u rest).extra).getLast? = some w ∧ isNamePart w = false ∧
      (w = unitOf '.' → (symbolStep u rest).piece = .token (.symbol .dot)) := by
  have hfirst : isNamePart u = false := by rw [isNamePart, hname, hdigit]; rfl
  have alone : (symbolStep u rest).extra = 0 → ∃ w,
      (u :: rest.take (symbolStep u rest).extra).getLast? = some w ∧ isNamePart w = false ∧
      (w = unitOf '.' → (symbolStep u rest).piece = .token (.symbol .dot)) := by
    intro hextra
    refine ⟨u, by rw [hextra]; rfl, hfirst, ?_⟩
    rintro rfl
    rw [symbolStep_dot]
  cases rest with
  | nil => exact alone (by rw [symbolStep]; cases Symbol.ofChar? (charOfUnit u) <;> rfl)
  | cons v rest =>
      cases hpair : Symbol.ofPair? (charOfUnit u) (charOfUnit v) with
      | none =>
          refine alone ?_
          simp only [symbolStep, hpair]
          cases Symbol.ofChar? (charOfUnit u) <;> rfl
      | some s =>
          have hextra : (symbolStep u (v :: rest)).extra = 1 := by simp only [symbolStep, hpair]
          obtain ⟨hpart, hdot⟩ := ofPair?_second hpair
          exact ⟨v, by rw [hextra]; rfl, hpart, fun hv => absurd hv hdot⟩

/-- What is skipped in front of a name ends with a blank. -/
theorem IsTrivia.seam {us rest : List UInt16} {v : UInt16} (h : IsTrivia us rest)
    (hv : rest.head? = some v) (hstart : isNameStart v = true) :
    ∃ w, us.getLast? = some w ∧ isNamePart w = false ∧ w ≠ unitOf '.' := by
  cases h with
  | blank u rest hblank =>
      refine ⟨u, rfl, ?_⟩
      rcases hblank with rfl | rfl | rfl | rfl <;> decide
  | comment body rest hbody hrest =>
      -- A comment goes up to the end of its line.
      rcases hrest with rfl | hline
      · cases hv
      · rw [hline] at hv
        cases hv
        exact absurd hstart (by decide)

/-- A number runs into no name. -/
theorem numberStep_seam {u v : UInt16} {rest : List UInt16} {kind : TokenKind}
    (hu : isDigitUnit u = true) (h : (numberStep (u :: rest)).piece = .token kind)
    (hv : (rest.drop (numberStep (u :: rest)).extra).head? = some v) : isNamePart v = false := by
  have htail := numberStep_tail h
  rw [numeralTail, ← numberStep_extra hu h, List.drop_succ_cons] at htail
  obtain ⟨more, hmore⟩ := List.head?_eq_some_iff.mp hv
  rw [hmore] at htail
  by_contra hpart
  rw [List.takeWhile_cons_of_pos (by simpa using hpart)] at htail
  cases htail

/-- A name goes on as long as it can. -/
theorem nameStep_seam {u v : UInt16} {rest : List UInt16} (hu : isNameStart u = true)
    (hv : (rest.drop (nameStep (u :: rest)).extra).head? = some v) : isNamePart v = false := by
  rw [nameStep_extra (isNamePart_of_isNameStart hu)] at hv
  have hdrop : rest.drop (rest.takeWhile isNamePart).length = rest.dropWhile isNamePart := by
    conv_lhs => arg 2; rw [← List.takeWhile_append_dropWhile (p := isNamePart) (l := rest)]
    exact List.drop_left
  have hstop := List.head?_dropWhile_not isNamePart rest
  rwa [← hdrop, hv] at hstop

/-- A step without a problem in front of a name ends with a unit that belongs to no name, and with
    a dot only when it reads one. -/
theorem scan_seam {u v : UInt16} {rest : List UInt16}
    (hpiece : ∀ p, (scan u rest).piece ≠ .problem p)
    (hv : (rest.drop (scan u rest).extra).head? = some v) (hstart : isNameStart v = true) :
    ∃ w, (u :: rest.take (scan u rest).extra).getLast? = some w ∧ isNamePart w = false ∧
      (w = unitOf '.' → (scan u rest).piece = .token (.symbol .dot)) := by
  have hv' := isNamePart_of_isNameStart hstart
  cases hread : (scan u rest).piece with
  | problem p => exact absurd hread (hpiece p)
  | trivia =>
      obtain ⟨w, hlast, hpart, hdot⟩ := (scan_trivia hread).seam hv hstart
      exact ⟨w, hlast, hpart, fun hw => absurd hw hdot⟩
  | token kind =>
      have hstep := scan_read_token hread
      generalize scan u rest = step at hread hv hstep ⊢
      cases hstep with
      | string =>
          have hlast : (rest.take (stringStep rest).extra).getLast? = some 0x22 :=
            scanString_last (stringStep_closes hread)
          refine ⟨0x22, by rw [List.getLast?_cons, hlast]; rfl, by decide, fun h => ?_⟩
          exact absurd h (by decide)
      | number hu =>
          rw [numberStep_seam hu hread hv] at hv'
          cases hv'
      | name hu =>
          rw [nameStep_seam hu hv] at hv'
          cases hv'
      | symbol _ hdigit hname =>
          obtain ⟨w, hlast, hpart, hdot⟩ := symbolStep_seam hdigit hname rest
          exact ⟨w, hlast, hpart, fun hw => hread.symm.trans (hdot hw)⟩

/-- An identifier is a whole word where no part of another name and no dot stands in front of
    it. -/
theorem scan_standsIn {t : Text} {front rest : List UInt16} {u : UInt16}
    (h : t.units = front ++ (u :: rest.take (scan u rest).extra) ++ rest.drop (scan u rest).extra)
    (hfront : ∀ w ∈ front.getLast?, isNamePart w = false ∧ w ≠ unitOf '.')
    (hread : (scan u rest).piece = .token .identifier) :
    Ident.StandsIn ⟨⟨u :: rest.take (scan u rest).extra⟩, ⟨.after .origin front,
      .after (.after .origin front) (u :: rest.take (scan u rest).extra)⟩⟩ t := by
  obtain ⟨hstart, hstep⟩ := scan_identifier_step hread
  refine ⟨front, rest.drop (scan u rest).extra, h, Position.offset_after front, ?_, ?_, ?_, hfront,
    fun w hw => ?_⟩
  · rw [Position.after_offset, Position.offset_after]
    rfl
  · rw [hstep, nameStep_text hstart]
    exact List.all_eq_true.mp List.all_takeWhile
  · rw [List.head?_cons, Option.any_some, hstart]
  · rw [hstep] at hw
    exact nameStep_seam hstart hw

/-! ## Whole texts -/

/-- Every identifier among the tokens that does not stand directly behind a dot has the property;
    the first token stands behind one when `dotted` says so. -/
def FreeNames (N : Ident → Prop) : Bool → List Token → Prop
  | _, []           => True
  | dotted, t :: ts =>
      (dotted = false → t.kind = .identifier → N ⟨t.lexeme, t.span⟩) ∧
        FreeNames N (decide (t.kind = .symbol .dot)) ts

/-- What is read without errors behind the units `front` has its identifiers as whole words, unless
    it goes on with a name that `front` ends in. -/
theorem lexFrom_freeNames (t : Text) (us front : List UInt16) (dotted : Bool)
    (h : t.units = front ++ us)
    (hseam : ∀ v ∈ us.head?, isNameStart v = true → ∀ w ∈ front.getLast?,
      isNamePart w = false ∧ (w = unitOf '.' → dotted = true))
    (herrors : (lexFrom false (.after .origin front) us).errors = []) :
    FreeNames (·.StandsIn t) dotted (lexFrom false (.after .origin front) us).tokens := by
  match us with
  | [] =>
      rw [lexFrom]
      trivial
  | u :: rest =>
      have hsplit : t.units =
          front ++ (u :: rest.take (scan u rest).extra) ++ rest.drop (scan u rest).extra := by
        rw [h, List.append_assoc, List.cons_append, List.take_append_drop]
      rw [lexFrom_step] at herrors ⊢
      obtain ⟨hfirst, hnext⟩ := List.append_eq_nil_iff.mp herrors
      have hpiece : ∀ p, (scan u rest).piece ≠ .problem p := by
        intro p hp
        have hmem := (List.append_eq_nil_iff.mp hfirst).2
        rw [hp] at hmem
        cases hmem
      have hrest : ∀ dotted, ((scan u rest).piece = .token (.symbol .dot) → dotted = true) →
          FreeNames (·.StandsIn t) dotted
            (lexFrom false (.after (.after .origin front) (u :: rest.take (scan u rest).extra))
              (rest.drop (scan u rest).extra)).tokens := by
        intro dotted hdot
        rw [← Position.after_append] at hnext ⊢
        refine lexFrom_freeNames t _ _ dotted hsplit (fun v hv hstart w hw => ?_) hnext
        obtain ⟨w', hlast, hpart, hsymbol⟩ := scan_seam hpiece hv hstart
        rw [List.getLast?_append, hlast] at hw
        cases hw
        exact ⟨hpart, fun hw => hdot (hsymbol hw)⟩
      rw [Lexed.followedBy, Scanned.lexed, Scanned.tokens]
      cases hread : (scan u rest).piece with
      | problem p => exact absurd hread (hpiece p)
      | trivia => exact hrest dotted fun hdot => by rw [hread] at hdot; cases hdot
      | token kind =>
          refine ⟨fun hfree hkind => ?_, hrest _ fun hdot => ?_⟩
          · subst hkind
            refine scan_standsIn hsplit (fun w hw => ?_) hread
            obtain ⟨hpart, hdot⟩ := hseam u rfl (scan_identifier_step hread).1 w hw
            exact ⟨hpart, fun hw => by rw [hdot hw] at hfree; cases hfree⟩
          · rw [hread] at hdot
            cases hdot
            rfl
termination_by us.length
decreasing_by simp only [List.length_drop, List.length_cons]; omega

/-- In a text without lexical errors every identifier is a whole word, and unless the token in front
    of it is a dot there is none in front of it. -/
theorem tokenize_freeNames {source : Text} (h : (tokenize source false).errors = []) :
    FreeNames (·.StandsIn source) false (tokenize source false).tokens :=
  lexFrom_freeNames source source.units [] false rfl (fun _ _ _ _ hw => by cases hw) h

end SceneScript
