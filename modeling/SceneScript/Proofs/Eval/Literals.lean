import SceneScript.Eval
import SceneScript.Proofs.Syntax.Literals
import SceneScript.Proofs.Syntax.Moments

/-!
# Integer literals keep their values

The bound of an integer literal is drawn in three places. The lexer lets the largest magnitude pass
and nothing beyond it; a minus directly in front takes that magnitude into the literal; and the
primary expression that meets it without one reports it. Between them no literal is left that would
wrap when it is evaluated.

* **`Machine.eval_int`** — a literal in range evaluates to its value.
* **`integers_exact`** — the values of literals, and the reports of those that have none.
-/

namespace SceneScript

variable {σ : Type}

/-- A literal in range evaluates to its value and changes nothing. -/
theorem Machine.eval_int (m : Machine σ) (depth : Nat) (locals : Locals) (fuel : Nat) (span : Span)
    {n : Int} (raw : Text) (w : World σ) (hleast : -2147483648 ≤ n) (hgreatest : n ≤ 2147483647) :
    ∃ i : Int32, m.eval depth locals (fuel + 1) (.int span n raw) w = .ok (.int i) w ∧
      i.toInt = n := by
  exact ⟨.ofInt n, rfl, Int32.toInt_ofInt_of_le hleast (Int.lt_add_one_iff.mpr hgreatest)⟩

/-- Integer literals never wrap. In a script about which nothing is reported, every integer literal
    has the value that its spelling denotes, which fits in thirty-two bits, and evaluates to it. In
    every script, digits at which the lexer begins a number, and behind which neither a name nor a
    fraction goes on, are reported by the lexer exactly when their value is beyond the largest
    magnitude; and every token of that magnitude with which a primary expression begins is reported
    by the parser. -/
theorem integers_exact (source : Text) :
    ((parseSource source).diagnostics = [] →
      ∀ span n raw, .int span n raw ∈ (parseSource source).program.parts →
        raw.Denotes n ∧ -2147483648 ≤ n ∧ n ≤ 2147483647 ∧
        ∀ (σ : Type) (m : Machine σ) (depth : Nat) (locals : Locals) (fuel : Nat) (w : World σ),
          ∃ i : Int32, m.eval depth locals (fuel + 1) (.int span n raw) w = .ok (.int i) w ∧
            i.toInt = n) ∧
    (∀ p ds rest, LexesTo source p (ds ++ rest) → WholeNumber ds rest →
      ((∃ e ∈ (tokenize source false).errors,
          e.problem.code = "E004" ∧ e.span = ⟨p, p.after ds⟩) ↔ 2147483648 < digitsNumber ds)) ∧
    ∀ (n : Nat) (c : Cursor) (t : Token),
      Reader.Reaches (.start (tokenize source false).tokens (tokenize source false).finish)
        ⟨n, .primary, c⟩ →
      c.tokens.head? = some t → t.kind = .int 2147483648 →
      ∃ d : Diagnostic, d.code = "E004" ∧ d.stage = some .parser ∧ d.span = t.span ∧
        d ∈ (parseTokens (tokenize source false).tokens
          (tokenize source false).finish).diagnostics ∧
        ((tokenize source false).errors = [] → d ∈ (parseSource source).diagnostics) := by
  refine ⟨fun hclean span n raw hmem => ?_, fun p ds rest hlexes hds => hlexes.tooLarge_iff hds,
    fun n c t hreach ht hk => ?_⟩
  · obtain ⟨hdenotes, hleast, hless⟩ := parseSource_int hclean hmem
    have hgreatest : n ≤ 2147483647 := Int.lt_add_one_iff.mp hless
    exact ⟨hdenotes, hleast, hgreatest, fun σ m depth locals fuel w =>
      m.eval_int depth locals fuel span raw w hleast hgreatest⟩
  · have hreported := parseTokens_primary hreach ht hk (Nat.le_refl maxIntMagnitude)
    refine ⟨_, rfl, rfl, rfl, hreported, fun herrors => ?_⟩
    rw [parseSource]
    simp only [herrors, List.isEmpty_nil, if_true]
    exact hreported

/-- The largest magnitude in parentheses, so that no minus takes it into the literal. -/
def grouped : Text := "let a = (2147483648);"

/-- The least integer; the magnitude behind zeros and one beyond it, alone; and in parentheses. -/
theorem integers_exact_bounds :
    (∃ span raw, .int span (-2147483648) raw ∈ (parseSource "let a = -2147483648;").program.parts ∧
      raw.Denotes (-2147483648)) ∧
    (∃ e ∈ (tokenize "0002147483649;" false).errors, e.problem.code = "E004") ∧
    ∃ d ∈ (parseSource grouped).diagnostics, d.code = "E004" := by
  refine ⟨?_, ?_, ?_⟩
  · have hmem : ((parseSource "let a = -2147483648;").program.parts.any fun
        | .int _ n _ => n == -2147483648
        | _          => false) = true := by decide +kernel
    obtain ⟨e, he, hn⟩ := List.any_eq_true.mp hmem
    cases e with
    | int span n raw =>
        rw [beq_iff_eq] at hn
        subst hn
        exact ⟨span, raw, he, ((integers_exact _).1 (by decide +kernel) span _ raw he).1⟩
    | _ => cases hn
  · have hds : WholeNumber (Text.ofString "0002147483649").units [unitOf ';'] :=
      { nonempty := List.cons_ne_nil _ _
        digits   := List.all_eq_true.mp (by decide +kernel)
        name     := fun u hu => by cases hu; decide
        fraction := fun _ _ h => by cases h }
    have hlexes : LexesTo "0002147483649;" .origin
        ((Text.ofString "0002147483649").units ++ [unitOf ';']) := .start
    obtain ⟨e, he, hcode, -⟩ :=
      ((integers_exact "0002147483649;").2.1 _ _ _ hlexes hds).mpr (by decide +kernel)
    exact ⟨e, he, hcode⟩
  · let c : Cursor :=
      ⟨(tokenize grouped false).tokens, .origin, (tokenize grouped false).finish, []⟩
    have hintro : (match Reader.letIntro c with
        | .ok _ d => decide (d.tokens.map Token.kind =
            [.symbol .lparen, .int 2147483648, .symbol .rparen, .symbol .semicolon])
        | _ => false) = true := by decide +kernel
    have hlet : c.atKeyword .letKey = true := by decide +kernel
    have hne : c.tokens ≠ [] := by
      obtain ⟨t, rest, ht, -⟩ := Cursor.atKeyword_iff.mp hlet
      rw [ht]
      exact List.cons_ne_nil t rest
    split at hintro
    · next head d hhead =>
        have hkinds := of_decide_eq_true hintro
        obtain ⟨paren, rest, hd, hparen, hrest⟩ := List.map_eq_cons_iff.mp hkinds
        obtain ⟨number, more, rfl, hnumber, -⟩ := List.map_eq_cons_iff.mp hrest
        have hadvance : d.advance.tokens = number :: more := Cursor.advance_tokens hd
        have hreach : Reader.Reaches
            (.start (tokenize grouped false).tokens (tokenize grouped false).finish)
            ⟨16 * c.tokens.length + 26, .primary, d.advance⟩ :=
          .head (.first hne) <| .head (.unmarked hlet) <| .head .parts <| .head (.init hhead) <|
            .head .operand <| .head (.bare (by simp [Reader.AtLeast, hd, hparen])
              (by simp [Reader.unaryOp?, hd, hparen])) <|
            .head (.grouped (Cursor.atSymbol_iff.mpr ⟨paren, _, hd, hparen⟩)) <|
            .head .operand <| .single (.bare (by simp [Reader.AtLeast, hadvance, hnumber])
              (by simp [Reader.unaryOp?, hadvance, hnumber]))
        obtain ⟨d, hcode, -, -, -, hmem⟩ := (integers_exact grouped).2.2 _ _ number hreach
          (by rw [hadvance]; rfl) hnumber
        exact ⟨d, hmem (by decide +kernel), hcode⟩
    · cases hintro

end SceneScript
