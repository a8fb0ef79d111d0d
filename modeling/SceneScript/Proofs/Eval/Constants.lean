import SceneScript.Eval
import SceneScript.Property
import SceneScript.Proofs.Outcome

/-!
# Constants have the value that they are said to have

The value of a constant expression is found without running anything, when a script is checked.
Running the expression gives the same value, wherever that is done: no host is asked, no variable
is looked up, and nothing is changed.

* **`Yields`** — a computation with one outcome, for which its fuel may not be enough.
* **`Machine.eval_constant`** — a constant expression yields its value, given fuel for its size.
-/

namespace SceneScript

variable {σ α β : Type}

/-- The computation gives this result and leaves the world alone. It may run out of fuel instead,
    but not when `enough` holds. -/
def Yields (enough : Prop) (x : Eval σ α) (a : α) : Prop :=
  ∀ w, x w = .ok a w ∨ (¬enough ∧ x w = .error .outOfFuel w)

theorem yields_pure (a : α) (enough : Prop) : Yields enough (pure a : Eval σ α) a :=
  fun _ => .inl rfl

theorem yields_outOfFuel (a : α) {enough : Prop} (h : ¬enough) :
    Yields enough (throw .outOfFuel : Eval σ α) a := fun _ => .inr ⟨h, rfl⟩

theorem Yields.mono {enough less : Prop} {x : Eval σ α} {a : α} (h : Yields less x a)
    (himp : enough → less) : Yields enough x a :=
  fun w => (h w).imp id fun hfuel => ⟨fun he => hfuel.1 (himp he), hfuel.2⟩

theorem Yields.bind {enough : Prop} {x : Eval σ α} {f : α → Eval σ β} {a : α} {b : β}
    (hx : Yields enough x a) (hf : Yields enough (f a) b) : Yields enough (x >>= f) b := by
  intro w
  rcases hx w with hok | ⟨hfuel, herror⟩
  · rw [bind_of_ok hok]
    exact hf w
  · exact .inr ⟨hfuel, bind_of_error herror⟩

namespace Machine

variable {m : Machine σ} {depth : Nat} {locals : Locals}

/-- Constants yield their values, at one amount of fuel. It is enough when the expression is small
    beside it: a step into an operand or on to the next field takes one unit of fuel, and each of
    them makes what is left at least one smaller. -/
structure ConstantAt (m : Machine σ) (depth : Nat) (locals : Locals) (fuel : Nat) : Prop where
  eval       : ∀ {e v}, constant? e = some v →
    Yields (sizeOf e < fuel) (m.eval depth locals fuel e) v
  evalFields : ∀ {fields vs}, constantFields? fields = some vs →
    Yields (sizeOf fields < fuel) (m.evalFields depth locals fuel fields) vs

namespace ConstantAt

variable {fuel : Nat}

theorem zero (m : Machine σ) (depth : Nat) (locals : Locals) : ConstantAt m depth locals 0 where
  eval _       := yields_outOfFuel _ (Nat.not_lt_zero _)
  evalFields _ := yields_outOfFuel _ (Nat.not_lt_zero _)

/-- An operator on a constant gives the constant that the two are. -/
theorem unary_succ (ih : ConstantAt m depth locals fuel) {span : Span} {op : UnaryOp} {arg : Expr}
    {v : Value} (h : constant? (.unary span op arg) = some v) :
    Yields (sizeOf (Expr.unary span op arg) < fuel + 1)
      (m.eval depth locals (fuel + 1) (.unary span op arg)) v := by
  unfold constant? at h
  have operand : ∀ {u : Value}, constant? arg = some u → applyUnary op u = .ok v →
      Yields (sizeOf (Expr.unary span op arg) < fuel + 1)
        (m.eval depth locals (fuel + 1) (.unary span op arg)) v := by
    intro u hu happly
    have hsize : sizeOf (Expr.unary span op arg) < fuel + 1 → sizeOf arg < fuel := by
      rw [Expr.unary.sizeOf_spec]
      omega
    refine ((ih.eval hu).mono hsize).bind ?_
    rw [happly]
    exact yields_pure v _
  split at h
  · next n hn =>
      cases h
      exact operand hn rfl
  · next x hx =>
      cases h
      exact operand hx rfl
  · next b hb =>
      cases h
      exact operand hb rfl
  · cases h

theorem eval_succ (ih : ConstantAt m depth locals fuel) {e : Expr} {v : Value}
    (h : constant? e = some v) :
    Yields (sizeOf e < fuel + 1) (m.eval depth locals (fuel + 1) e) v := by
  cases e with
  | int span n raw =>
      cases h
      exact yields_pure _ _
  | float span x raw =>
      cases h
      exact yields_pure _ _
  | bool span b =>
      cases h
      exact yields_pure _ _
  | string span t =>
      cases h
      exact yields_pure _ _
  | unary span op arg => exact ih.unary_succ h
  | struct span name fields =>
      rw [constant?] at h
      cases ht : Ty.ofText? name.name with
      | none =>
          rw [ht] at h
          cases h
      | some t =>
          rw [ht] at h
          obtain ⟨vs, hvs, hbuild⟩ := Option.bind_eq_some_iff.mp h
          have hsize : sizeOf (Expr.struct span name fields) < fuel + 1 → sizeOf fields < fuel := by
            rw [Expr.struct.sizeOf_spec]
            omega
          refine ((ih.evalFields hvs).mono hsize).bind ?_
          rw [ht, Option.bind_some, hbuild]
          exact yields_pure v _
  | _ => cases h

theorem evalFields_succ (ih : ConstantAt m depth locals fuel) {fields : List (Ident × Expr)}
    {vs : List (Text × Value)} (h : constantFields? fields = some vs) :
    Yields (sizeOf fields < fuel + 1) (m.evalFields depth locals (fuel + 1) fields) vs := by
  cases fields with
  | nil =>
      cases h
      exact yields_pure [] _
  | cons field rest =>
      obtain ⟨name, e⟩ := field
      have hsize : sizeOf ((name, e) :: rest) < fuel + 1 → sizeOf e < fuel ∧ sizeOf rest < fuel := by
        rw [List.cons.sizeOf_spec, Prod.mk.sizeOf_spec]
        omega
      rw [constantFields?] at h
      split at h
      · next v ws hv hws =>
          cases h
          refine ((ih.eval hv).mono fun hle => (hsize hle).1).bind ?_
          refine ((ih.evalFields hws).mono fun hle => (hsize hle).2).bind ?_
          exact yields_pure _ _
      · cases h

end ConstantAt

theorem constantAt (m : Machine σ) (depth : Nat) (locals : Locals) (fuel : Nat) :
    ConstantAt m depth locals fuel := by
  induction fuel with
  | zero => exact .zero m depth locals
  | succ fuel ih => exact ⟨ih.eval_succ, ih.evalFields_succ⟩

/-- A constant expression yields its value. -/
theorem eval_constant {e : Expr} {v : Value} (h : constant? e = some v) (m : Machine σ)
    (depth : Nat) (locals : Locals) (fuel : Nat) :
    Yields (sizeOf e < fuel) (m.eval depth locals fuel e) v :=
  (constantAt m depth locals fuel).eval h

end Machine

/-- What a constant of a type gives is brought to that type. -/
theorem coerceOrKeep_constant {e : Expr} {t : Ty} {v d : Value} (hv : constant? e = some v)
    (hd : constantAs? e t = some d) : v.coerceOrKeep t = d := by
  rw [constantAs?, hv, Option.bind_some] at hd
  rw [Value.coerceOrKeep, hd]
  rfl

end SceneScript
