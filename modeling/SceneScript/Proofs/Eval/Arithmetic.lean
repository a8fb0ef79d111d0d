import SceneScript.Scene
import SceneScript.Proofs.Eval.Sound
import SceneScript.Proofs.Eval.Storing
import SceneScript.Proofs.Number.Wrapping

/-!
# Arithmetic on integers

An operator of arithmetic between two integers gives the exact result, reduced to 32 bits; only a
division by zero stops. The same holds of an assignment that combines a variable with a value.

* **`Arithmetic`** — the four operators, what they are exactly, and how they can be computed by way
  of floating-point numbers and unsigned words.
* **`Arithmetic.applyInts_eq`** — one operation on integers.
* **`Machine.int_arithmetic`** — expressions and assignments wherever they run.
-/

namespace SceneScript

/-! ## The operators -/

/-- An operator of arithmetic. -/
inductive Arithmetic where
  | add | sub | mul | div
deriving DecidableEq

namespace Arithmetic

/-- The operator between expressions. -/
def binary : Arithmetic → BinaryOp
  | .add => .add
  | .sub => .sub
  | .mul => .mul
  | .div => .div

/-- The operator of an assignment. -/
def assign : Arithmetic → AssignOp
  | .add => .add
  | .sub => .sub
  | .mul => .mul
  | .div => .div

/-- The exact result on integers. A quotient loses its fraction. -/
def exact : Arithmetic → Int → Int → Int
  | .add, p, q => p + q
  | .sub, p, q => p - q
  | .mul, p, q => p * q
  | .div, p, q => p.tdiv q

/-- The result by way of floating-point numbers, for products of unsigned words. -/
def routed : Arithmetic → Int32 → Int32 → Int32
  | .add, m, n => ((Binary64.ofInt32 m).add (.ofInt32 n)).toInt32
  | .sub, m, n => ((Binary64.ofInt32 m).sub (.ofInt32 n)).toInt32
  | .mul, m, n => wordProduct m n
  | .div, m, n => ((Binary64.ofInt32 m).div (.ofInt32 n)).toInt32

/-- A division by zero. -/
def DividesByZero (op : Arithmetic) (n : Int32) : Prop := op = .div ∧ n = 0

instance (op : Arithmetic) (n : Int32) : Decidable (op.DividesByZero n) :=
  inferInstanceAs (Decidable (_ ∧ _))

/-- `k` is the exact result, reduced to 32 bits, and the way by floating-point numbers leads to
    it. -/
structure Gives (op : Arithmetic) (m n k : Int32) : Prop where
  reduced : k.toInt = (op.exact m.toInt n.toInt).bmod (2 ^ 32)
  routed  : k = op.routed m n

variable {op : Arithmetic} {m n : Int32}

theorem ofInt_exact (h : ¬op.DividesByZero n) :
    Int32.ofInt (op.exact m.toInt n.toInt) = op.routed m n := by
  cases op with
  | add =>
      rw [exact, routed, Binary64.toInt32_add, Int32.ofInt_add, Int32.ofInt_toInt,
        Int32.ofInt_toInt]
  | sub =>
      rw [exact, routed, Binary64.toInt32_sub, Int32.ofInt_sub, Int32.ofInt_toInt,
        Int32.ofInt_toInt]
  | mul => rw [exact, routed, wordProduct_eq, Int32.ofInt_mul, Int32.ofInt_toInt, Int32.ofInt_toInt]
  | div => rw [exact, routed, Binary64.toInt32, Binary64.truncate_div m n fun hn => h ⟨rfl, hn⟩]

/-- Integers are combined as by way of floating-point numbers. -/
theorem applyInts_eq (h : ¬op.DividesByZero n) :
    applyInts op.binary m n = .ok (.int (op.routed m n)) := by
  cases op with
  | add => rw [routed, Binary64.toInt32_add]; rfl
  | sub => rw [routed, Binary64.toInt32_sub]; rfl
  | mul => rw [routed, wordProduct_eq]; rfl
  | div =>
      have hn : n ≠ 0 := fun hn => h ⟨rfl, hn⟩
      rw [routed, Binary64.toInt32_div m n hn]
      exact if_neg hn

theorem applyInts_zero (h : op.DividesByZero n) :
    applyInts op.binary m n = .error .divisionByZero := by
  obtain ⟨rfl, rfl⟩ := h
  rfl

theorem gives_routed (h : ¬op.DividesByZero n) : op.Gives m n (op.routed m n) where
  reduced := by
    rw [← ofInt_exact h, Int32.toInt_ofInt]
    rfl
  routed := rfl

theorem not_isLogic (op : Arithmetic) : ¬op.binary.IsLogic := by
  cases op <;> rintro (h | h) <;> cases h

theorem binary_ints {σ : Type} (m : Machine σ) (op : Arithmetic) (span : Span) (a b : Int32) :
    m.binary span op.binary (.int a) (.int b) = Machine.settle span (applyInts op.binary a b) := by
  cases op <;> rfl

theorem arithmetic?_assign (op : Arithmetic) : op.assign.arithmetic? = some op.binary := by
  cases op <;> rfl

end Arithmetic

namespace Machine

variable {σ : Type} {m : Machine σ} {w : World σ} {op : Arithmetic} {a b : Int32} {span : Span}

/-- An operation on two integers, whatever the nodes are. -/
def ofInts (op : Arithmetic) (span : Span) (a b : Int32) : Eval σ Value :=
  settle span (applyInts op.binary a b)

theorem ofInts_zero (a : Int32) (span : Span) (w : World σ) (h : op.DividesByZero b) :
    ofInts op span a b w = .error (.fault ⟨.divisionByZero, some span, []⟩) w := by
  rw [ofInts, Arithmetic.applyInts_zero h]
  rfl

theorem ofInts_run (a : Int32) (span : Span) (w : World σ) (h : ¬op.DividesByZero b) :
    ofInts op span a b w = .ok (.int (op.routed a b)) w := by
  rw [ofInts, Arithmetic.applyInts_eq h]
  rfl

/-- An integer combined with an integer is an integer, so there is nothing to coerce. -/
theorem combine_ints (m : Machine σ) (op : Arithmetic) (span : Span) (a b : Int32) (w : World σ) :
    m.combine (.int a) (.int b) op.assign span w = ofInts op span a b w := by
  rw [combine]
  simp only [op.arithmetic?_assign, Arithmetic.binary_ints]
  by_cases hzero : op.DividesByZero b
  · have hstop := ofInts_zero a span w hzero
    rw [hstop, ← ofInts, bind_of_error hstop]
  · have hrun := ofInts_run a span w hzero
    rw [hrun, ← ofInts, bind_of_ok hrun]
    rfl

theorem eval_ints (m : Machine σ) {depth fuel : Nat} {locals : Locals} (op : Arithmetic)
    {l r : Expr} {w₁ w₂ : World σ} (span : Span)
    (hl : m.eval depth locals fuel l w = .ok (.int a) w₁)
    (hr : m.eval depth locals fuel r w₁ = .ok (.int b) w₂) :
    m.eval depth locals (fuel + 1) (.binary span op.binary l r) w = ofInts op span a b w₂ := by
  rw [eval_operator op.not_isLogic, bind_of_ok hl, bind_of_ok hr, Arithmetic.binary_ints, ofInts]

/-- An assignment that combines an integer variable with an integer. -/
theorem exec_ints (m : Machine σ) {depth fuel : Nat} {locals : Locals} {op : Arithmetic}
    {value : Expr} {id : Ident} {w₁ : World σ} (span place : Span)
    (hvalue : m.eval depth locals fuel value w = .ok (.int b) w₁)
    (hid : Locals.find? (w₁.frames locals) id.name = some (.int a)) :
    m.exec depth (fuel + 1) locals (.assign span ⟨place, .name id, []⟩ op.assign value) w =
      (ofInts op span a b >>= fun next => do
        return .next (← store locals id.name next)) w₁ := by
  rw [World.find?_frames] at hid
  have hlookup : lookup locals id w₁ = .ok (.int a) w₁ := by
    rw [lookup, bind_of_ok (x := (get : Eval σ (World σ))) rfl, hid]
    rfl
  rw [exec, bind_of_ok hvalue, assign]
  simp only [List.map_nil, bind_assoc]
  rw [bind_of_ok hlookup]
  by_cases hzero : op.DividesByZero b
  · have hstop := ofInts_zero a span w₁ hzero
    rw [bind_of_error (hstop ▸ combine_ints m op span a b w₁), bind_of_error hstop]
  · have hrun := ofInts_run a span w₁ hzero
    rw [bind_of_ok (hrun ▸ combine_ints m op span a b w₁), bind_of_ok hrun]

/-- Arithmetic on integers is arithmetic modulo 2 ^ 32. An operator between two expressions with
    integer values, and an assignment that combines an integer variable with an integer, give the
    exact result reduced to 32 bits, the quotient without its fraction; this is what binary64
    numbers, cut off and reduced, and products of unsigned words lead to as well. They stop for a
    division by zero and for nothing else. A negation never stops. And the integers of a state are
    those that `Value.ofInteger` builds, by cutting off a fraction and reducing to 32 bits; that
    nothing else is one is what the type of `Value.int` says. -/
theorem int_arithmetic (m : Machine σ) (depth fuel : Nat) (locals : Locals) (span : Span)
    (w w₁ : World σ) :
    (∀ (op : Arithmetic) (l r : Expr) (a b : Int32) (w₂ : World σ),
      m.eval depth locals fuel l w = .ok (.int a) w₁ →
      m.eval depth locals fuel r w₁ = .ok (.int b) w₂ →
      if op.DividesByZero b then
        m.eval depth locals (fuel + 1) (.binary span op.binary l r) w =
          .error (.fault ⟨.divisionByZero, some span, []⟩) w₂
      else
        ∃ c, m.eval depth locals (fuel + 1) (.binary span op.binary l r) w = .ok (.int c) w₂ ∧
          op.Gives a b c) ∧
    (∀ (e : Expr) (a : Int32), m.eval depth locals fuel e w = .ok (.int a) w₁ →
      ∃ c : Int32, m.eval depth locals (fuel + 1) (.unary span .neg e) w = .ok (.int c) w₁ ∧
        c.toInt = (-a.toInt).bmod (2 ^ 32) ∧ c = (Binary64.ofInt32 a).neg.toInt32) ∧
    (∀ (op : Arithmetic) (place : Span) (id : Ident) (value : Expr) (a b : Int32),
      m.eval depth locals fuel value w = .ok (.int b) w₁ →
      Locals.find? (w₁.frames locals) id.name = some (.int a) →
      if op.DividesByZero b then
        m.exec depth (fuel + 1) locals (.assign span ⟨place, .name id, []⟩ op.assign value) w =
          .error (.fault ⟨.divisionByZero, some span, []⟩) w₁
      else
        ∃ c locals' w₂,
          m.exec depth (fuel + 1) locals (.assign span ⟨place, .name id, []⟩ op.assign value) w =
            .ok (.next locals') w₂ ∧ op.Gives a b c ∧ w₂.host = w₁.host ∧
          Rebinds id.name (.int a) (.int c) (w₁.frames locals) (w₂.frames locals')) ∧
    (∀ x : Binary64, ∃ n, Value.ofInteger x = .int n ∧ n.toInt = x.truncate.bmod (2 ^ 32)) ∧
    ∀ n : Int32, Value.int n = .ofInteger (.ofInt32 n) ∧
      -2147483648 ≤ n.toInt ∧ n.toInt ≤ 2147483647 := by
  refine ⟨fun op l r a b w₂ hl hr => ?_, fun e a he => ?_, fun op place id value a b hvalue hid => ?_,
    fun x => ⟨x.toInt32, rfl, Int32.toInt_ofInt⟩, fun n => ⟨?_, ?_⟩⟩
  · rw [eval_ints m op span hl hr]
    split
    · next hzero => exact ofInts_zero a span w₂ hzero
    · next hzero => exact ⟨_, ofInts_run a span w₂ hzero, Arithmetic.gives_routed hzero⟩
  · refine ⟨-a, ?_, ?_, (Binary64.toInt32_neg a).symm⟩
    · rw [eval, bind_of_ok he]
      rfl
    · exact Int32.toInt_neg a
  · rw [exec_ints m span place hvalue hid]
    split
    · next hzero => exact bind_of_error (ofInts_zero a span w₁ hzero)
    · next hzero =>
        obtain ⟨locals', w₂, hstore, hhost, hrebinds⟩ := store_rebinds (.int (op.routed a b)) hid
        refine ⟨_, locals', w₂, ?_, Arithmetic.gives_routed hzero, hhost, hrebinds⟩
        rw [bind_of_ok (ofInts_run a span w₁ hzero), bind_of_ok hstore]
        rfl
  · rw [Value.ofInteger, Binary64.toInt32_ofInt32]
  · exact ⟨Int32.le_toInt n, Int.le_of_lt_add_one (Int32.toInt_lt n)⟩

/-- A machine without functions, in a scene without nodes. -/
def idle : Machine Scene := ⟨Scene.host, [], [], .numbered 1, 64⟩

/-- A world with one variable, which has the least integer. -/
def leastWorld : World Scene := ⟨[("n", .int (-2147483648))], ⟨[], #[], #[]⟩⟩

/-- The least integer divided by an integer. -/
def leastDividedBy (n : Int) : Expr :=
  .binary .origin .div (.ident ⟨"n", .origin⟩) (.int .origin n "")

/-- The quotient of the least integer and minus one does not have 32 bits. -/
theorem int_arithmetic_least :
    (∃ c : Int32, idle.eval 0 [] 2 (leastDividedBy (-1)) leastWorld = .ok (.int c) leastWorld ∧
      c.toInt = -2147483648) ∧
    idle.eval 0 [] 2 (leastDividedBy 0) leastWorld =
      .error (.fault ⟨.divisionByZero, some .origin, []⟩) leastWorld ∧
    (∃ c : Int32, idle.eval 0 [] 2 (.unary .origin .neg (.ident ⟨"n", .origin⟩)) leastWorld =
      .ok (.int c) leastWorld ∧ c.toInt = -2147483648) ∧
    ∃ (c : Int32) (locals' : Locals) (w : World Scene),
      idle.exec 0 2 [] (.assign .origin ⟨.origin, .name ⟨"n", .origin⟩, []⟩ .div
        (.int .origin (-1) "")) leastWorld = .ok (.next locals') w ∧
      c.toInt = -2147483648 ∧
      Rebinds "n" (.int (-2147483648)) (.int c) (leastWorld.frames []) (w.frames locals') := by
  obtain ⟨hexpr, hneg, hassign, -⟩ :=
    int_arithmetic idle 0 1 [] .origin leastWorld leastWorld
  have hn : idle.eval 0 [] 1 (.ident ⟨"n", .origin⟩) leastWorld =
      .ok (.int (-2147483648)) leastWorld := rfl
  refine ⟨?_, ?_, ?_, ?_⟩
  · obtain ⟨c, hc, hgives⟩ := hexpr .div _ (.int .origin (-1) "") (-2147483648) (-1) leastWorld hn rfl
    exact ⟨c, hc, hgives.reduced.trans (by decide)⟩
  · exact hexpr .div _ (.int .origin 0 "") (-2147483648) 0 leastWorld hn rfl
  · obtain ⟨c, hc, hreduced, -⟩ := hneg _ (-2147483648) hn
    exact ⟨c, hc, hreduced.trans (by decide)⟩
  · obtain ⟨c, locals', w, hexec, hgives, -, hrebinds⟩ :=
      hassign .div .origin ⟨"n", .origin⟩ (.int .origin (-1) "") (-2147483648) (-1) rfl rfl
    exact ⟨c, locals', w, hexec, hgives.reduced.trans (by decide), hrebinds⟩

end Machine

end SceneScript
