import SceneScript.Eval
import SceneScript.Proofs.Typing.Rules

/-!
# Operations on values respect types

Each operation of the evaluator on values, given operands of the types that the rules ask for,
has a result of the type that the rules promise. The one operation on operands of the right
types that can go wrong is a division of integers.

* **`Value.coerceOrKeep_type`** — a value that fits becomes a value of the type.
* **`Value.getNamed?_typed`** / **`Value.setNamed?_typed`** — fields of values.
* **`Value.build?_typed`** — struct literals.
* **`Settles`** — the outcome of an operator: a value of a type, or a division by zero.
* **`applyUnary_cause`** / **`applyBinary_cause`** — what an operator stops for on any operands.
* **`Machine.binary_cases`** — only whether two nodes are the same is asked of the host.
-/

namespace SceneScript

/-! ## Coercion -/

theorem Value.coerceOrKeep_type {v : Value} {t : Ty} (h : v.type.Fits t) :
    (v.coerceOrKeep t).type = t := by
  unfold coerceOrKeep coerce?
  rcases h with h | ⟨hi, rfl⟩
  · rw [if_pos h]
    exact h
  · cases v <;> cases hi
    rfl

theorem Value.coerce?_type {v w : Value} {t : Ty} (h : v.coerce? t = some w) : w.type = t := by
  unfold coerce? at h
  by_cases ht : v.type = t
  · rw [if_pos ht] at h
    cases h
    exact ht
  · rw [if_neg ht] at h
    split at h
    · cases h
      rfl
    · cases h

/-! ## Fields -/

theorem Value.get?_typed {v : Value} {f : Field} {t : Ty} (hn : v.type ≠ .node)
    (h : v.type.field? f = some t) : ∃ w, v.get? f = some w ∧ w.type = t := by
  cases v <;> first | exact absurd rfl hn | skip
  all_goals cases f <;> cases h <;> exact ⟨_, rfl, rfl⟩

theorem Value.getNamed?_typed {v : Value} {name : Text} {t : Ty} (hn : v.type ≠ .node)
    (h : v.type.fieldNamed? name = some t) : ∃ w, v.getNamed? name = some w ∧ w.type = t := by
  obtain ⟨f, hf, ht⟩ := Option.bind_eq_some_iff.mp h
  obtain ⟨w, hw, hwt⟩ := get?_typed hn ht
  exact ⟨w, by rw [getNamed?, hf]; exact hw, hwt⟩

/-- No field of a value holds a node. -/
theorem Value.getNamed?_ne_node {v w : Value} {name : Text} (h : v.getNamed? name = some w) :
    w.type ≠ .node := by
  obtain ⟨f, -, hf⟩ := Option.bind_eq_some_iff.mp h
  unfold get? at hf
  split at hf <;> cases hf <;> exact Ty.noConfusion

theorem Value.number?_of_f32 {v : Value} (h : v.type.Fits .f32) : ∃ x, v.number? = some x := by
  rcases h with h | ⟨h, -⟩ <;> cases v <;> cases h <;> exact ⟨_, rfl⟩

theorem Value.point?_of_vector2 {v : Value} (h : v.type.Fits .vector2) :
    ∃ p, v.point? = some p := by
  rcases h with h | ⟨-, h⟩
  · cases v <;> cases h
    exact ⟨_, rfl⟩
  · cases h

theorem Value.set?_typed {v next : Value} {f : Field} {t : Ty} (hn : v.type ≠ .node)
    (h : v.type.field? f = some t) (ht : next.type = t) :
    ∃ w, v.set? f next = some w ∧ w.type = v.type := by
  cases v <;> first | exact absurd rfl hn | skip
  all_goals
    cases f <;> cases h <;> cases next <;> cases ht <;> exact ⟨_, rfl, rfl⟩

theorem Value.setNamed?_typed {v next : Value} {name : Text} {t : Ty} (hn : v.type ≠ .node)
    (h : v.type.fieldNamed? name = some t) (ht : next.type = t) :
    ∃ w, v.setNamed? name next = some w ∧ w.type = v.type := by
  obtain ⟨f, hf, hft⟩ := Option.bind_eq_some_iff.mp h
  obtain ⟨w, hw, hwt⟩ := set?_typed hn hft ht
  exact ⟨w, by rw [setNamed?, hf]; exact hw, hwt⟩

/-! ## Struct literals -/

/-- The values of the fields of a literal: each is a field of the type, and its value fits. -/
def MemberValues (t : Ty) (values : List (Text × Value)) : Prop :=
  ∀ e ∈ values, ∃ u, t.fieldNamed? e.1 = some u ∧ e.2.type.Fits u

theorem memberValues_nil (t : Ty) : MemberValues t [] := fun _ h => absurd h List.not_mem_nil

theorem Field.ofText?_word (f : Field) : Field.ofText? (Text.ofString f.word) = some f := by
  cases f <;> decide +kernel

/-- A field that occurs among the values has a last value, and it fits the field. -/
theorem Value.lastNamed?_fits {t : Ty} {values : List (Text × Value)} {f : Field} {u : Ty}
    (hm : MemberValues t values) (hf : t.field? f = some u)
    (hx : ∃ x ∈ values, x.1 = Text.ofString f.word) :
    ∃ v, lastNamed? f values = some v ∧ v.type.Fits u := by
  obtain ⟨x, hx, hxn⟩ := hx
  rw [lastNamed?]
  cases hfind : values.reverse.find? fun e => e.1 == Text.ofString f.word with
  | none =>
      have hnone := List.find?_eq_none.mp hfind x (List.mem_reverse.mpr hx)
      simp [hxn] at hnone
  | some e =>
      have hname : e.1 = Text.ofString f.word := by simpa using List.find?_some hfind
      obtain ⟨w, hw, hfit⟩ := hm e (List.mem_reverse.mp (List.mem_of_find?_eq_some hfind))
      have hwu : w = u := by
        rw [Ty.fieldNamed?, hname, Field.ofText?_word, Option.bind_some, hf] at hw
        exact (Option.some.inj hw).symm
      exact ⟨e.2, rfl, hwu ▸ hfit⟩

theorem Value.lastNumber {t : Ty} {values : List (Text × Value)} {f : Field}
    (hm : MemberValues t values) (hf : t.field? f = some .f32)
    (hx : ∃ x ∈ values, x.1 = Text.ofString f.word) :
    ∃ x, (lastNamed? f values).bind number? = some x := by
  obtain ⟨v, hv, hfit⟩ := lastNamed?_fits hm hf hx
  rw [hv]
  exact number?_of_f32 hfit

theorem Value.lastPoint {t : Ty} {values : List (Text × Value)} {f : Field}
    (hm : MemberValues t values) (hf : t.field? f = some .vector2)
    (hx : ∃ x ∈ values, x.1 = Text.ofString f.word) :
    ∃ p, (lastNamed? f values).bind point? = some p := by
  obtain ⟨v, hv, hfit⟩ := lastNamed?_fits hm hf hx
  rw [hv]
  exact point?_of_vector2 hfit

/-- A literal that names every field of its type has a value. -/
theorem Value.build?_typed {t : Ty} {values : List (Text × Value)} (hst : t.isStruct = true)
    (hm : MemberValues t values)
    (hall : ∀ e ∈ t.fields, ∃ x ∈ values, x.1 = Text.ofString e.1.word) :
    ∃ v, build? t values = some v ∧ v.type = t := by
  cases t <;> cases hst
  · obtain ⟨x, hx⟩ := lastNumber hm rfl (hall (.x, .f32) (by simp [Ty.fields]))
    obtain ⟨y, hy⟩ := lastNumber hm rfl (hall (.y, .f32) (by simp [Ty.fields]))
    exact ⟨.vector2 (.single x y), by simp [build?, hx, hy], rfl⟩
  · obtain ⟨r, hr⟩ := lastNumber hm rfl (hall (.r, .f32) (by simp [Ty.fields]))
    obtain ⟨g, hg⟩ := lastNumber hm rfl (hall (.g, .f32) (by simp [Ty.fields]))
    obtain ⟨b, hb⟩ := lastNumber hm rfl (hall (.b, .f32) (by simp [Ty.fields]))
    obtain ⟨a, ha⟩ := lastNumber hm rfl (hall (.a, .f32) (by simp [Ty.fields]))
    exact ⟨ofColor r g b a, by simp [build?, hr, hg, hb, ha], rfl⟩
  · obtain ⟨p, hp⟩ := lastPoint hm rfl (hall (.position, .vector2) (by simp [Ty.fields]))
    obtain ⟨s, hs⟩ := lastPoint hm rfl (hall (.size, .vector2) (by simp [Ty.fields]))
    exact ⟨.rect2 p s, by simp [build?, hp, hs], rfl⟩
  · obtain ⟨p, hp⟩ := lastPoint hm rfl (hall (.position, .vector2) (by simp [Ty.fields]))
    obtain ⟨a, ha⟩ := lastNumber hm rfl (hall (.rotation, .f32) (by simp [Ty.fields]))
    obtain ⟨s, hs⟩ := lastPoint hm rfl (hall (.scale, .vector2) (by simp [Ty.fields]))
    exact ⟨ofTransform p a s, by simp [build?, hp, ha, hs], rfl⟩

/-! ## Operators -/

/-- An operator gives a value of a type, or it divides by zero. -/
def Settles (r : Except FaultCause Value) (t : Ty) : Prop :=
  (∃ v, r = .ok v ∧ v.type = t) ∨ r = .error .divisionByZero

theorem settles_ok {v : Value} {t : Ty} (h : v.type = t) : Settles (.ok v) t := .inl ⟨v, rfl, h⟩

theorem applyUnary_neg_settles {v : Value} (h : v.type.isNumeric = true) :
    Settles (applyUnary .neg v) v.type := by
  cases v <;> cases h <;> exact settles_ok rfl

theorem applyUnary_not_settles {v : Value} (h : v.type = .bool) :
    Settles (applyUnary .not v) .bool := by
  cases v <;> cases h
  exact settles_ok rfl

theorem applyInts_settles {op : BinaryOp} {m n : Int32} (hop : op.IsArithmetic) :
    Settles (applyInts op m n) .i32 := by
  rcases hop with rfl | rfl | rfl | rfl
  · exact settles_ok rfl
  · exact settles_ok rfl
  · exact settles_ok rfl
  · by_cases hn : n = 0
    · right
      exact if_pos hn
    · left
      exact ⟨.int (m / n), if_neg hn, rfl⟩

theorem applyFloats_settles {op : BinaryOp} {l r : Ty} {x y : Binary64} (hop : op.IsArithmetic) :
    Settles (applyFloats op l r x y) .f32 := by
  rcases hop with rfl | rfl | rfl | rfl <;> exact settles_ok rfl

theorem applyBinary_arithmetic_settles {op : BinaryOp} {l r : Value} (hop : op.IsArithmetic)
    (hl : l.type.isNumeric = true) (hr : r.type.isNumeric = true) :
    Settles (applyBinary op l r) (l.type.numericResult r.type) := by
  -- Two integers stay integers; a float on either side makes the other one a float.
  have hints : ∀ m n, applyBinary op (.int m) (.int n) = applyInts op m n := by
    intro m n
    rcases hop with rfl | rfl | rfl | rfl <;> rfl
  have hright : ∀ m y, applyBinary op (.int m) (.float y) =
      applyFloats op .i32 .f32 (.ofInt32 m) y := by
    intro m y
    rcases hop with rfl | rfl | rfl | rfl <;> rfl
  have hleft : ∀ x n, applyBinary op (.float x) (.int n) =
      applyFloats op .f32 .i32 x (.ofInt32 n) := by
    intro x n
    rcases hop with rfl | rfl | rfl | rfl <;> rfl
  have hfloats : ∀ x y, applyBinary op (.float x) (.float y) =
      applyFloats op .f32 .f32 x y := by
    intro x y
    rcases hop with rfl | rfl | rfl | rfl <;> rfl
  cases l <;> cases hl <;> cases r <;> cases hr
  · rw [hints]
    exact applyInts_settles hop
  · rw [hright]
    exact applyFloats_settles hop
  · rw [hleft]
    exact applyFloats_settles hop
  · rw [hfloats]
    exact applyFloats_settles hop

theorem applyBinary_order_settles {op : BinaryOp} {l r : Value} (hop : op.IsOrder)
    (hl : l.type.isNumeric = true) (hr : r.type.isNumeric = true) :
    Settles (applyBinary op l r) .bool := by
  rcases hop with rfl | rfl | rfl | rfl <;>
    cases l <;> cases hl <;> cases r <;> cases hr <;> exact settles_ok rfl

theorem applyBinary_concat_settles {l r : Value} (hl : l.type = .string) (hr : r.type = .string) :
    Settles (applyBinary .add l r) .string := by
  cases l <;> cases hl
  cases r <;> cases hr
  exact settles_ok rfl

/-- What an operator can stop for, whatever its operands are. -/
def FaultCause.OfOperator : FaultCause → Prop
  | .divisionByZero       => True
  | .unaryOperand _ _     => True
  | .binaryOperands _ _ _ => True
  | _                     => False

theorem applyUnary_cause {op : UnaryOp} {v : Value} {cause : FaultCause}
    (h : applyUnary op v = .error cause) : cause.OfOperator := by
  unfold applyUnary at h
  split at h <;> cases h
  trivial

theorem applyInts_cause {op : BinaryOp} {m n : Int32} {cause : FaultCause}
    (h : applyInts op m n = .error cause) : cause.OfOperator := by
  unfold applyInts at h
  repeat' split at h
  all_goals cases h <;> trivial

theorem applyFloats_cause {op : BinaryOp} {l r : Ty} {x y : Binary64} {cause : FaultCause}
    (h : applyFloats op l r x y = .error cause) : cause.OfOperator := by
  unfold applyFloats at h
  split at h <;> cases h
  trivial

theorem applyBinary_cause {op : BinaryOp} {l r : Value} {cause : FaultCause}
    (h : applyBinary op l r = .error cause) : cause.OfOperator := by
  unfold applyBinary at h
  repeat' split at h
  all_goals first
    | exact applyInts_cause h
    | exact applyFloats_cause h
    | cases h <;> trivial

namespace Machine

/-- The host is asked about two nodes and about nothing else. -/
theorem equal_cases (l r : Value) :
    (∃ a b, ∀ {σ : Type} (m : Machine σ), m.equal l r = Eval.ofHost (m.host.sameNode a b)) ∨
      ∀ {σ : Type} (m : Machine σ), m.equal l r = pure (l.same r) := by
  cases l <;> cases r <;> first | exact .inl ⟨_, _, fun _ => rfl⟩ | exact .inr fun _ => rfl

/-- An operator other than `==` and `!=` settles on its operands alone. -/
theorem binary_of_not_equality {σ : Type} (m : Machine σ) {op : BinaryOp} (h : ¬op.IsEquality)
    (span : Span) (l r : Value) : m.binary span op l r = settle span (applyBinary op l r) := by
  cases op with
  | eq => exact absurd (.inl rfl) h
  | ne => exact absurd (.inr rfl) h
  | _ => rfl

/-- `==` and `!=` answer as the values are equal. -/
theorem binary_of_equality {op : BinaryOp} (h : op.IsEquality) :
    ∃ answer : Bool → Bool, ∀ {σ : Type} (m : Machine σ) (span : Span) (l r : Value),
      m.binary span op l r = do return .bool (answer (← m.equal l r)) := by
  rcases h with rfl | rfl
  · exact ⟨id, fun _ _ _ _ => rfl⟩
  · exact ⟨not, fun _ _ _ _ => rfl⟩

/-- An operator between two values asks the host whether two nodes are the same, or it settles
    without it. -/
theorem binary_cases (span : Span) (op : BinaryOp) (l r : Value) :
    (∃ (a b : NodeRef) (answer : Bool → Bool), ∀ {σ : Type} (m : Machine σ),
      m.binary span op l r =
        do return .bool (answer (← Eval.ofHost (m.host.sameNode a b)))) ∨
    ∃ result, (∀ cause, result = .error cause → cause.OfOperator) ∧
      (∀ v, result = .ok v → applyBinary op l r = .ok v ∨ ∃ b, v = .bool b) ∧
      ∀ {σ : Type} (m : Machine σ), m.binary span op l r = settle span result := by
  by_cases hop : op.IsEquality
  · obtain ⟨answer, hbinary⟩ := binary_of_equality hop
    rcases equal_cases l r with ⟨a, b, hask⟩ | hknown
    · exact .inl ⟨a, b, answer, fun m => by rw [hbinary, hask]⟩
    · refine .inr ⟨.ok (.bool (answer (l.same r))), nofun, fun v hv => ?_, fun m => ?_⟩
      · exact .inr ⟨_, (Except.ok.inj hv).symm⟩
      · rw [hbinary, hknown]
        rfl
  · exact .inr ⟨_, fun _ => applyBinary_cause, fun _ => .inl,
      fun m => m.binary_of_not_equality hop span l r⟩

/-- The operator of a combined assignment asks the host nothing. -/
theorem binary_arithmetic {σ : Type} (m : Machine σ) {op : AssignOp} {binary : BinaryOp}
    (h : op.arithmetic? = some binary) (span : Span) (l r : Value) :
    m.binary span binary l r = settle span (applyBinary binary l r) := by
  cases op <;> cases h <;> rfl

end Machine

/-! ## Node fields -/

/-- The type of a field of a node. -/
def NodeField.type : NodeField → Ty
  | .position => .vector2
  | .rotation => .f32
  | .scale    => .vector2
  | .name     => .string

theorem NodeField.ofText?_typed {name : Text} {t : Ty} (h : Ty.node.fieldNamed? name = some t) :
    ∃ f, NodeField.ofText? name = some f ∧ f.type = t := by
  obtain ⟨f, hf, ht⟩ := Option.bind_eq_some_iff.mp h
  rw [NodeField.ofText?]
  rw [hf]
  cases f <;> cases ht <;> exact ⟨_, rfl, rfl⟩

end SceneScript
