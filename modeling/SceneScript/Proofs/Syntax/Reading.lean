import SceneScript.Ast.Parser
import SceneScript.Proofs.Outcome

/-!
# Reading steps

How a cursor moves, and what the small reading steps lead to. A step only moves forward: it
leaves a suffix of the tokens, keeps the errors that were there and adds only errors of syntax.

* **`Cursor.Extends`** — how the cursor may change; reflexive and transitive.
* **`ends_accept`**, **`ends_expectName`**, … — the outcome of each step, for any conditions on
  it.
-/

namespace SceneScript

/-! ## How a cursor may change -/

/-- The second cursor stands further on in the same script, with more errors of syntax. -/
structure Cursor.Extends (c d : Cursor) : Prop where
  tokens : d.tokens <:+ c.tokens
  finish : d.finish = c.finish
  errors : ∃ new : List (SyntaxError × Span),
    d.errors = c.errors ++ new.map fun e => e.1.diagnostic e.2

namespace Cursor.Extends

theorem refl (c : Cursor) : c.Extends c := ⟨List.suffix_rfl, rfl, [], by simp⟩

theorem trans {a b c : Cursor} (hab : a.Extends b) (hbc : b.Extends c) : a.Extends c := by
  obtain ⟨new₁, h₁⟩ := hab.errors
  obtain ⟨new₂, h₂⟩ := hbc.errors
  refine ⟨hbc.tokens.trans hab.tokens, hbc.finish.trans hab.finish, new₁ ++ new₂, ?_⟩
  rw [h₂, h₁, List.map_append, List.append_assoc]

theorem length_le {c d : Cursor} (h : c.Extends d) : d.tokens.length ≤ c.tokens.length :=
  h.tokens.length_le

/-- No error before the end means no error on the way. -/
theorem errors_eq {a b c : Cursor} (hab : a.Extends b) (hbc : b.Extends c)
    (h : c.errors = a.errors) : b.errors = a.errors := by
  obtain ⟨new₁, h₁⟩ := hab.errors
  obtain ⟨new₂, h₂⟩ := hbc.errors
  rw [h₂, h₁, List.append_assoc, List.append_right_eq_self, List.append_eq_nil_iff] at h
  rw [h₁, h.1, List.append_nil]

end Cursor.Extends

namespace Cursor

variable {c : Cursor} {t : Token} {rest : List Token}

theorem advance_cons (h : c.tokens = t :: rest) :
    c.advance = { c with tokens := rest, last := t.span.stop } := by rw [advance, h]

theorem advance_tokens (h : c.tokens = t :: rest) : c.advance.tokens = rest := by
  rw [advance_cons h]

@[simp] theorem advance_errors (c : Cursor) : c.advance.errors = c.errors := by
  rw [advance]
  split <;> rfl

theorem extends_advance (c : Cursor) : c.Extends c.advance := by
  rw [advance]
  split
  · next t rest ht => exact ⟨ht ▸ List.suffix_cons t rest, rfl, [], by simp⟩
  · exact .refl c

theorem extends_record (c : Cursor) (e : SyntaxError) (span : Span) :
    c.Extends (c.record e span) := ⟨List.suffix_rfl, rfl, [(e, span)], rfl⟩

theorem record_errors_ne (c : Cursor) (e : SyntaxError) (span : Span) :
    (c.record e span).errors ≠ c.errors := by simp [record]

theorem extends_skip (n : Nat) (c : Cursor) : c.Extends (c.skip n) := by
  induction n generalizing c with
  | zero => exact .refl c
  | succ n ih => exact (extends_advance c).trans (ih c.advance)

theorem kindAt_zero (h : c.tokens = t :: rest) : c.kindAt 0 = some t.kind := by simp [kindAt, h]

theorem atSymbol_iff {s : Symbol} :
    c.atSymbol s = true ↔ ∃ t rest, c.tokens = t :: rest ∧ t.kind = .symbol s := by
  rw [atSymbol, kindAt]
  cases h : c.tokens <;> simp

theorem atKeyword_iff {k : Keyword} :
    c.atKeyword k = true ↔ ∃ t rest, c.tokens = t :: rest ∧ t.kind = .keyword k := by
  rw [atKeyword, kindAt]
  cases h : c.tokens <;> simp

end Cursor

/-! ## Outcomes of the small steps -/

namespace Reader

variable {α : Type} {c : Cursor} {E : Stop → Cursor → Prop}

@[simp] theorem ends_peek {Q : Option Token → Cursor → Prop} :
    Ends peek c Q E ↔ Q c.tokens.head? c := Iff.rfl

@[simp] theorem ends_advance {Q : Unit → Cursor → Prop} :
    Ends advance c Q E ↔ Q () c.advance := Iff.rfl

@[simp] theorem ends_atSymbol {Q : Bool → Cursor → Prop} {s : Symbol} :
    Ends (atSymbol s) c Q E ↔ Q (c.atSymbol s) c := Iff.rfl

@[simp] theorem ends_atKeyword {Q : Bool → Cursor → Prop} {k : Keyword} :
    Ends (atKeyword k) c Q E ↔ Q (c.atKeyword k) c := Iff.rfl

@[simp] theorem ends_spanFrom {Q : Span → Cursor → Prop} {p : Position} :
    Ends (spanFrom p) c Q E ↔ Q ⟨p, c.last⟩ c := Iff.rfl

@[simp] theorem ends_start {Q : Position → Cursor → Prop} :
    Ends start c Q E ↔ Q c.here.start c := Iff.rfl

theorem ends_accept {Q : Bool → Cursor → Prop} {s : Symbol} :
    Ends (accept s) c Q E ↔
      (c.atSymbol s = true → Q true c.advance) ∧ (c.atSymbol s = false → Q false c) := by
  rw [accept, ends_bind, ends_atSymbol]
  cases c.atSymbol s <;> simp

theorem ends_acceptKeyword {Q : Bool → Cursor → Prop} {k : Keyword} :
    Ends (acceptKeyword k) c Q E ↔
      (c.atKeyword k = true → Q true c.advance) ∧ (c.atKeyword k = false → Q false c) := by
  rw [acceptKeyword, ends_bind, ends_atKeyword]
  cases c.atKeyword k <;> simp

/-- A name is read, or the step panics where it stands. -/
theorem ends_expectName {Q : Ident → Cursor → Prop} {expected : Expected}
    (hQ : ∀ t rest, c.tokens = t :: rest → t.kind = .identifier → Q ⟨t.lexeme, t.span⟩ c.advance)
    (hE : ∀ e, E .panic (c.record e c.here)) : Ends (expectName expected) c Q E := by
  rw [expectName, ends_bind, ends_peek]
  cases h : c.tokens with
  | nil => exact hE _
  | cons t rest =>
      by_cases hk : t.kind = .identifier
      · simp only [List.head?_cons, hk, if_true, ends_bind, ends_advance]
        exact hQ t rest h hk
      · simp only [List.head?_cons, hk, if_false]
        exact hE _

/-- A type name is read, or the step panics where it stands. -/
theorem ends_typeRef {Q : TypeRef → Cursor → Prop}
    (hQ : ∀ t rest, c.tokens = t :: rest → t.kind = .identifier → Q ⟨t.lexeme, t.span⟩ c.advance)
    (hE : ∀ e, E .panic (c.record e c.here)) : Ends typeRef c Q E := by
  rw [typeRef, ends_bind, ends_peek]
  cases h : c.tokens with
  | nil => exact hE _
  | cons t rest =>
      by_cases hk : t.kind = .identifier
      · simp only [List.head?_cons, hk, if_true, ends_bind, ends_advance]
        exact hQ t rest h hk
      · simp only [List.head?_cons, hk, if_false]
        exact hE _

theorem ends_expectMark {Q : Unit → Cursor → Prop} {s : Symbol} {mark : Mark}
    (hQ : c.atSymbol s = true → Q () c.advance) (hE : ∀ e, E .panic (c.record e c.here)) :
    Ends (expectMark s mark) c Q E := by
  rw [expectMark, ends_bind, ends_accept]
  exact ⟨hQ, fun _ => hE _⟩

theorem ends_expectClose {Q : Unit → Cursor → Prop} {s : Symbol} {enclosed : Enclosed}
    (hQ : c.atSymbol s = true → Q () c.advance) (hE : ∀ e, E .panic (c.record e c.here)) :
    Ends (expectClose s enclosed) c Q E := by
  rw [expectClose, ends_bind, ends_accept]
  exact ⟨hQ, fun _ => hE _⟩

theorem ends_rejectAssign {Q : Unit → Cursor → Prop} (hQ : Q () c)
    (hE : ∀ e span, E .panic (c.record e span)) : Ends rejectAssign c Q E := by
  rw [rejectAssign, ends_bind, ends_peek]
  split
  · exact hE _ _
  · exact hQ

theorem ends_expectSemicolon {Q : Unit → Cursor → Prop} {ended : Ended}
    (hQ : c.atSymbol .semicolon = true → Q () c.advance)
    (hE : ∀ e span, E .panic (c.record e span)) : Ends (expectSemicolon ended) c Q E := by
  rw [expectSemicolon, ends_bind, ends_accept]
  refine ⟨hQ, fun _ => ?_⟩
  simp only [Bool.false_eq_true, if_false, ends_bind]
  exact ends_rejectAssign (hE _ _) hE

/-! ## Unary operators -/

/-- The next two tokens are a minus and the number that only a minus may precede. -/
def AtLeast (c : Cursor) : Prop :=
  ∃ minus number rest, c.tokens = minus :: number :: rest ∧ minus.kind = .symbol .minus ∧
    number.kind = .int maxIntMagnitude

/-- An operand with its unary operators, none of which belongs to a literal. -/
def unaryPlain (fuel : Nat) (c : Cursor) : Reader Expr :=
  match unaryOp? c.tokens.head? with
  | some op => do
      advance
      let arg ← unary fuel
      return .unary (c.here.through arg.span) op arg
  | none => do
      let object ← primary fuel
      fields fuel object

theorem unary_eq (fuel : Nat) (c : Cursor) :
    unary (fuel + 1) c =
      (match c.tokens with
      | minus :: number :: _ =>
          if minus.kind = .symbol .minus ∧ number.kind = .int maxIntMagnitude then do
            advance
            advance
            return .int (minus.span.through number.span) (-(maxIntMagnitude : Int))
              ("-" ++ number.lexeme)
          else unaryPlain fuel c
      | _ => unaryPlain fuel c : Reader Expr) c := rfl

theorem unary_least {fuel : Nat} {minus number : Token} {rest : List Token}
    (h : c.tokens = minus :: number :: rest) (hm : minus.kind = .symbol .minus)
    (hn : number.kind = .int maxIntMagnitude) :
    unary (fuel + 1) c = .ok (.int (minus.span.through number.span) (-(maxIntMagnitude : Int))
      ("-" ++ number.lexeme)) c.advance.advance := by
  rw [unary_eq, h]
  simp only [hm, hn, and_self, if_true]
  rfl

theorem unary_plain {fuel : Nat} (h : ¬AtLeast c) : unary (fuel + 1) c = unaryPlain fuel c c := by
  rw [unary_eq]
  rcases ht : c.tokens with _ | ⟨minus, _ | ⟨number, rest⟩⟩
  · rfl
  · rfl
  · simp only
    rw [if_neg fun hk => h ⟨minus, number, rest, ht, hk.1, hk.2⟩]

/-! ## Variable declarations -/

/-- A variable declaration from its equals sign on. -/
def letRest (fuel : Nat) (start : Position) (mutable : Bool) (name : Ident)
    (declared : Option TypeRef) : Reader LetParts := do
  if !(← accept .assign) then fail (.expectedInitializer name.name (← peek))
  let init ← expression fuel
  expectSemicolon .variableDeclaration
  return ⟨← spanFrom start, name, mutable, declared, init⟩

theorem letParts_eq (fuel : Nat) : letParts fuel = (do
    let start ← start
    advance
    let mutable ← acceptKeyword .mutKey
    let name ← expectName .variableName
    if ← accept .colon then
      let type ← typeRef
      letRest fuel start mutable name (some type)
    else letRest fuel start mutable name none) := by
  rw [letParts]
  simp only [bind_map_left, pure_bind]
  rfl

/-! ## Recovery -/

/-- On the level of items a panic is over once the cursor has moved to the next item. -/
theorem ends_recover {level : Cursor.Level} {step : Reader α} {Q : Option α → Cursor → Prop} :
    Ends (recover level step) c Q E ↔
      Ends step c (fun a d => Q (some a) d) (fun stop d =>
        (stop = .panic → Q none (d.synchronize level)) ∧
          (stop = .outOfFuel → E .outOfFuel d)) := by
  unfold Ends recover
  cases step c with
  | ok a d => exact Iff.rfl
  | error stop d => cases stop <;> simp

end Reader

end SceneScript
