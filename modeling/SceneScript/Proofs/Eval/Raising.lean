import SceneScript.Proofs.Eval.Steps

/-!
# The faults of single steps

Between the computations that the evaluator asks for it takes steps of its own: it looks a variable
up, applies an operator, reads and writes fields, asks the host. None of them calls a function. So a
fault that such a step raises names no function yet, and it is not one of the two that only a call
can raise: that calls are too deep, and that a function ended without its result.

* **`FaultCause.ofCall`** — the causes that only a call has.
* **`Plain`** — a computation all faults of which are like that; `Plain.bind`.
* **`Machine.plain_readField`**, **`Machine.plain_assign`**, … — one statement per step.
-/

namespace SceneScript

variable {σ α β : Type}

/-- Only the call of a function stops for this. -/
def FaultCause.ofCall : FaultCause → Bool
  | .tooDeep _ _  => true
  | .noReturn _ _ => true
  | _             => false

theorem FaultCause.OfOperator.not_ofCall {cause : FaultCause} (h : cause.OfOperator) :
    cause.ofCall = false := by
  cases cause <;> first | rfl | exact h.elim

theorem FaultCause.kind_ne_stackOverflow {cause : FaultCause} (h : cause.ofCall = false) :
    cause.kind ≠ .stackOverflow := by
  cases cause <;> first | exact FaultKind.noConfusion | cases h

/-- Every fault of the computation comes without functions, and from no call. -/
def Plain (x : Eval σ α) : Prop :=
  ∀ w f w', x w = .error (.fault f) w' → f.trace = [] ∧ f.cause.ofCall = false

theorem Plain.bind {x : Eval σ α} {k : α → Eval σ β} (hx : Plain x) (hk : ∀ a, Plain (k a)) :
    Plain (x >>= k) := by
  intro w f w'' hf
  cases hrun : x w with
  | ok a w' =>
      rw [bind_of_ok hrun] at hf
      exact hk a w' f w'' hf
  | error h w' =>
      cases (bind_of_error hrun).symm.trans hf
      exact hx w f w'' hrun

theorem plain_pure (a : α) : Plain (pure a : Eval σ α) := fun _ _ _ => nofun

theorem plain_get : Plain (get : Eval σ (World σ)) := fun _ _ _ => nofun

theorem plain_raise {cause : FaultCause} (h : cause.ofCall = false) (span : Option Span) :
    Plain (Eval.raise cause span : Eval σ α) := by
  intro w f w' hf
  cases hf
  exact ⟨rfl, h⟩

/-- A failure of the host is a fault of its own. -/
theorem plain_ofHost (call : HostCall σ α) : Plain (Eval.ofHost call) := by
  intro w f w' hf
  rw [Eval.ofHost] at hf
  split at hf
  · cases hf
  · cases hf
    exact ⟨rfl, rfl⟩

namespace Machine

variable {m : Machine σ}

theorem plain_settle (span : Span) {r : Except FaultCause Value}
    (h : ∀ cause, r = .error cause → cause.OfOperator) : Plain (settle span r : Eval σ Value) := by
  cases r with
  | ok v => exact plain_pure v
  | error cause => exact plain_raise (h cause rfl).not_ofCall _

theorem plain_unary (span : Span) (op : UnaryOp) (v : Value) :
    Plain (settle span (applyUnary op v) : Eval σ Value) :=
  plain_settle span fun _ => applyUnary_cause

theorem plain_binary (span : Span) (op : BinaryOp) (u v : Value) :
    Plain (m.binary span op u v) := by
  rcases binary_cases span op u v with ⟨a, b, answer, hask⟩ | ⟨result, hcause, -, hknown⟩
  · rw [hask]
    exact (plain_ofHost _).bind fun _ => plain_pure _
  · rw [hknown]
    exact plain_settle span hcause

theorem plain_checkAlive (ref : NodeRef) (span : Span) : Plain (m.checkAlive ref span) := by
  refine (plain_ofHost _).bind fun alive => ?_
  split
  · exact plain_raise rfl _
  · exact plain_pure _

theorem plain_found (span : Span) {cause : FaultCause} (h : cause.ofCall = false)
    (r : Option NodeRef) : Plain (found span cause r : Eval σ Value) := by
  cases r with
  | none => exact plain_raise h _
  | some ref => exact plain_pure _

/-- A question to the host about the node of the script, which has to be alive. -/
theorem plain_asked {call : HostCall σ α} {k : α → Eval σ β} (span : Span)
    (h : ∀ a, Plain (k a)) :
    Plain (m.checkAlive m.self span >>= fun _ => Eval.ofHost call >>= k) :=
  (plain_checkAlive m.self span).bind fun _ => (plain_ofHost _).bind h

theorem plain_lookup (locals : Locals) (id : Ident) : Plain (lookup locals id : Eval σ Value) := by
  refine plain_get.bind fun w => ?_
  split
  · exact plain_pure _
  · exact plain_raise rfl _

theorem plain_readField (base : Value) (span : Span) (field : Ident) :
    Plain (m.readField base span field) := by
  unfold readField
  split
  · split
    · exact plain_raise rfl _
    · exact (plain_checkAlive _ _).bind fun _ => plain_ofHost _
  · split
    · exact plain_pure _
    · exact plain_raise rfl _

theorem plain_combine (old rhs : Value) (op : AssignOp) (span : Span) :
    Plain (m.combine old rhs op span) := by
  unfold combine
  split
  · exact plain_pure _
  · exact (plain_binary _ _ _ _).bind fun _ => plain_pure _

theorem plain_writePath (rhs : Value) (op : AssignOp) (span : Span) (path : List Text) :
    ∀ base, Plain (m.writePath rhs op span base path) := by
  induction path with
  | nil =>
      intro base
      rw [writePath]
      exact plain_raise rfl _
  | cons name rest ih =>
      intro base
      have next : ∀ old, Plain (m.nextValue rhs op span old rest) := by
        intro old
        cases rest with
        | nil => exact plain_combine old rhs op span
        | cons name' rest' => exact ih old
      by_cases hn : base.type = .node
      · cases base <;> cases hn
        rename_i ref
        cases hf : NodeField.ofText? name with
        | none =>
            simp only [writePath, hf]
            exact plain_raise rfl _
        | some field =>
            rw [writePath_node hf]
            refine (plain_checkAlive ref span).bind fun _ => ?_
            refine (plain_ofHost _).bind fun old => (next old).bind fun v => ?_
            exact (plain_ofHost _).bind fun _ => plain_pure _
      · cases hold : base.getNamed? name with
        | none =>
            rw [writePath_missing hn hold]
            exact plain_raise rfl _
        | some old =>
            rw [writePath_value hn hold]
            refine (next old).bind fun v => ?_
            split
            · exact plain_pure _
            · exact plain_raise rfl _

theorem plain_store (locals : Locals) (name : Text) (value : Value) :
    Plain (store locals name value : Eval σ Locals) := by
  unfold store
  split
  · exact plain_pure _
  · exact fun _ _ _ => nofun

theorem plain_assign (locals : Locals) (span : Span) (target : AssignTarget) (op : AssignOp)
    (rhs : Value) : Plain (m.assign locals span target op rhs) := by
  unfold assign
  dsimp only
  generalize target.path.map Ident.name = path
  cases target.root with
  | self _ => exact (plain_writePath _ _ _ path _).bind fun _ => plain_pure _
  | name id =>
      refine (plain_lookup locals id).bind fun current => ?_
      cases path with
      | nil => exact (plain_combine _ _ _ _).bind fun next => plain_store locals id.name next
      | cons name rest =>
          refine (plain_writePath _ _ _ (name :: rest) _).bind fun next => ?_
          exact plain_store locals id.name next

theorem plain_textArgument (span : Span) (function : Text) (v : Value) :
    Plain (textArgument span function v : Eval σ Text) := by
  unfold textArgument
  split
  · exact plain_pure _
  · exact plain_raise rfl _

end Machine

end SceneScript
