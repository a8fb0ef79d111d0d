import Mathlib.Data.List.Forall2
import SceneScript.Proofs.Eval.Returns
import SceneScript.Proofs.Eval.Steps

/-!
# Well typed code runs without type errors

The evaluator never looks at a declared type before it acts; it takes values apart and faults
when they do not have the shape it needs. On code that obeys the typing rules this never
happens: an expression of type `t` has a value of type `t`, a statement leaves every variable a
value of its type, and a call has a value of the type that the function declares. What remains
are division by zero, dead nodes, nodes that are not found, and calls that are too deep.

* **`Machine.Ready`** — the host answers, and the functions that may be called obey the rules.
* **`Machine.SoundAt`** — soundness of every part of the evaluator at one amount of fuel.
* **`Machine.soundAt`** — it holds at every amount, by induction.
-/

namespace SceneScript

variable {σ : Type} {g : List Variable} {R : Changes σ} {w : World σ}

/-! ## Calls -/

/-- Values that may be bound to parameters. -/
abbrev ArgumentsFit : List Value → List TypedName → Prop :=
  List.Forall₂ fun v p => v.type.Fits p.type

/-- Every parameter gets a value of its type. -/
theorem Machine.parameterFrame_matches (params : List Param) :
    ∀ (types : List TypedName) (args : List Value) (frame : Bindings) (vars : List Variable),
      frame.Matches vars → params.length = types.length → ArgumentsFit args types →
      (params.map fun p => p.name.name).Nodup →
      (∀ p ∈ params, Scope.inFrame? p.name.name vars = none) →
      (parameterFrame params types args frame).Matches (vars ++ paramVariables params types) := by
  induction params with
  | nil =>
      intro types args frame vars hf hlen _ _ _
      cases types with
      | nil => simpa [parameterFrame, paramVariables] using hf
      | cons _ _ => cases hlen
  | cons p ps ih =>
      intro types args frame vars hf hlen hargs hnodup hfresh
      cases types with
      | nil => cases hlen
      | cons type types =>
          cases hargs with
          | cons hv hargs =>
              rename_i v vs
              rw [List.map_cons, List.nodup_cons] at hnodup
              have hset : (frame.set p.name.name (v.coerceOrKeep type.type)).Matches
                  (vars ++ [⟨p.name, .param, type.type, false⟩]) :=
                hf.declare (x := ⟨p.name, .param, type.type, false⟩) (hfresh p List.mem_cons_self)
                  (Value.coerceOrKeep_type hv)
              have hrest := ih types vs _ _ hset (Nat.succ.inj hlen) hargs hnodup.2 ?_
              · rw [List.append_assoc] at hrest
                exact hrest
              -- The later parameters are still new once `p` is bound.
              · intro q hq
                have hne : p.name.name ≠ q.name.name := fun h =>
                  hnodup.1 (h ▸ List.mem_map_of_mem hq)
                rw [Scope.inFrame?_append, hfresh q (List.mem_cons_of_mem p hq), if_neg hne]
                rfl

/-- The arguments of an emission have exactly the declared types. -/
theorem Machine.coerceArguments_types {params : List TypedName} {args : List Value}
    (h : ArgumentsFit args params) :
    (coerceArguments params args).map Value.type = params.map TypedName.type := by
  induction h with
  | nil => rfl
  | cons hv _ ih =>
      rw [coerceArguments, List.map_cons, List.map_cons, ih, Value.coerceOrKeep_type hv]

/-- What a statement leads to: locals of which `P` holds, or a value that fits the result. -/
def FlowOk (r : Ty) (P : Locals → Prop) : Flow → Prop
  | .next locals => P locals
  | .returned v  => r ≠ .void → v.type.Fits r

theorem FlowOk.mono {r : Ty} {P P' : Locals → Prop} (hP : ∀ l, P l → P' l) {flow : Flow}
    (h : FlowOk r P flow) : FlowOk r P' flow := by
  cases flow with
  | next locals => exact hP locals h
  | returned v => exact h

/-- A call ends with a value of the declared type, unless its body falls through although it has
    a result to return. -/
theorem Machine.runs_conclude {f : FunctionInfo} {flow : Flow} {P : Locals → Prop}
    (hg : w.globals.Matches g) (hflow : FlowOk f.signature.returns P flow)
    (hends : f.signature.returns = .void ∨ flow.fallsThrough = false) :
    Runs g R (conclude f flow) w (fun v _ => v.type = f.signature.returns) := by
  cases flow with
  | returned v =>
      rw [conclude]
      by_cases hv : f.signature.returns = .void
      · rw [if_pos hv]
        exact runs_pure hg hv.symm
      · rw [if_neg hv]
        exact runs_pure hg (Value.coerceOrKeep_type (hflow hv))
  | next locals =>
      -- The end of the body is reached only where there is nothing to return.
      have hv : f.signature.returns = .void := hends.resolve_right Bool.noConfusion
      rw [conclude, if_pos hv]
      exact runs_pure hg hv.symm

/-! ## The parts of the evaluator -/

namespace Machine

/-- What code of a machine refers to in a scope. -/
def around (m : Machine σ) (callable : Bool) (scope : Scope) : Surroundings :=
  ⟨m.functions.map FunctionInfo.signature, m.signals, !callable, scope⟩

/-- The host answers, and the functions obey the rules if they may be called. -/
structure Ready (m : Machine σ) (g : List Variable) (callable : Bool) (R : Changes σ) : Prop where
  host      : m.host.Keeps m.signals R
  functions : callable = true → ∀ f ∈ m.functions, f.WellTyped (m.around true [g])

theorem around_function? (m : Machine σ) (callable : Bool) (scope : Scope) (name : Text) :
    (m.around callable scope).function? name = (m.function? name).map FunctionInfo.signature := by
  simp only [Surroundings.function?, around, Machine.function?, List.find?_map]
  rfl

/-- An operator other than the two of logic evaluates both operands. -/
theorem eval_operator {m : Machine σ} {fuel depth : Nat} {locals : Locals} {span : Span}
    {op : BinaryOp} {left right : Expr} (hop : ¬op.IsLogic) :
    m.eval depth locals (fuel + 1) (.binary span op left right) = (do
      let u ← m.eval depth locals fuel left
      let v ← m.eval depth locals fuel right
      m.binary span op u v) := by
  rw [Machine.eval]
  · exact fun h => hop (.inl h)
  · exact fun h => hop (.inr h)

/-- Every part of the evaluator respects types at one amount of fuel. -/
structure SoundAt (m : Machine σ) (g : List Variable) (callable : Bool) (R : Changes σ)
    (fuel : Nat) : Prop where
  eval : ∀ {depth locals scope e t w}, HasType (m.around callable scope) e t →
    Locals.Sees g locals scope → w.globals.Matches g →
    Runs g R (m.eval depth locals fuel e) w (fun v _ => v.type = t)
  condition : ∀ {depth locals scope e w}, HasType (m.around callable scope) e .bool →
    Locals.Sees g locals scope → w.globals.Matches g →
    Runs g R (m.condition depth locals fuel e) w (fun _ _ => True)
  evalAll : ∀ {depth locals scope es params w}, Fitting (m.around callable scope) es params →
    Locals.Sees g locals scope → w.globals.Matches g →
    Runs g R (m.evalAll depth locals fuel es) w (fun vs _ => ArgumentsFit vs params)
  printed : ∀ {depth locals scope es w}, Printable (m.around callable scope) es →
    Locals.Sees g locals scope → w.globals.Matches g →
    Runs g R (m.evalAll depth locals fuel es) w (fun _ _ => True)
  evalFields : ∀ {depth locals scope type fields w},
    Members (m.around callable scope) type fields →
    Locals.Sees g locals scope → w.globals.Matches g →
    Runs g R (m.evalFields depth locals fuel fields) w (fun vs _ =>
      MemberValues type vs ∧ vs.map Prod.fst = fields.map fun x => x.1.name)
  callBuiltin : ∀ {depth locals scope span callee args t b w},
    HasType (m.around callable scope) (.call span callee args) t →
    Builtin.ofText? callee.name = some b →
    Locals.Sees g locals scope → w.globals.Matches g →
    Runs g R (m.callBuiltin depth locals fuel b span callee args) w (fun v _ => v.type = t)
  argumentText : ∀ {depth locals scope span callee e rest w},
    HasType (m.around callable scope) e .string →
    Locals.Sees g locals scope → w.globals.Matches g →
    Runs g R (m.argumentText depth locals fuel span callee (e :: rest)) w (fun _ _ => True)
  call : ∀ {depth name args span f w}, callable = true → m.function? name = some f →
    ArgumentsFit args f.signature.params → w.globals.Matches g →
    Runs g R (m.call depth fuel name args span) w (fun v _ => v.type = f.signature.returns)
  exec : ∀ {depth locals scope scope' st r w}, callable = true →
    StmtOk r (m.around callable scope) st scope' → Locals.Models g locals scope →
    w.globals.Matches g →
    Runs g R (m.exec depth fuel locals st) w
      (fun flow _ => FlowOk r (fun l => l.Models g scope') flow)
  execAll : ∀ {depth locals frame outer body r w}, callable = true →
    StmtsOk r (m.around callable (frame :: outer)) body →
    Locals.Models g locals (frame :: outer) → w.globals.Matches g →
    Runs g R (m.execAll depth fuel locals body) w
      (fun flow _ => FlowOk r (fun l => ∃ frame', l.Models g (frame' :: outer)) flow)
  execBlock : ∀ {depth locals scope b r w}, callable = true →
    BlockOk r (m.around callable scope) b → Locals.Models g locals scope → w.globals.Matches g →
    Runs g R (m.execBlock depth fuel locals b) w
      (fun flow _ => FlowOk r (fun l => l.Models g scope) flow)
  execCond : ∀ {depth locals scope c r w}, callable = true →
    CondOk r (m.around callable scope) c → Locals.Models g locals scope → w.globals.Matches g →
    Runs g R (m.execCond depth fuel locals c) w
      (fun flow _ => FlowOk r (fun l => l.Models g scope) flow)
  execLoop : ∀ {depth locals scope test body r w}, callable = true →
    HasType (m.around callable scope) test .bool → BlockOk r (m.around callable scope) body →
    Locals.Models g locals scope → w.globals.Matches g →
    Runs g R (m.execLoop depth fuel locals test body) w
      (fun flow _ => FlowOk r (fun l => l.Models g scope) flow)

namespace SoundAt

variable {m : Machine σ} {callable : Bool} {fuel depth : Nat} {locals : Locals} {scope : Scope}

theorem zero (m : Machine σ) (g : List Variable) (callable : Bool) (R : Changes σ) :
    SoundAt m g callable R 0 where
  eval _ _ hg         := runs_outOfFuel hg
  condition _ _ hg    := runs_outOfFuel hg
  evalAll _ _ hg      := runs_outOfFuel hg
  printed _ _ hg      := runs_outOfFuel hg
  evalFields _ _ hg   := runs_outOfFuel hg
  callBuiltin _ _ _ hg := runs_outOfFuel hg
  argumentText _ _ hg := runs_outOfFuel hg
  call _ _ _ hg       := runs_outOfFuel hg
  exec _ _ _ hg       := runs_outOfFuel hg
  execAll _ _ _ hg    := runs_outOfFuel hg
  execBlock _ _ _ hg  := runs_outOfFuel hg
  execCond _ _ _ hg   := runs_outOfFuel hg
  execLoop _ _ _ _ hg := runs_outOfFuel hg

/-! ## Expressions -/

/-- An operator that evaluates both operands runs as it runs on all values of their types. -/
theorem runs_operator (ih : SoundAt m g callable R fuel) {span : Span} {op : BinaryOp}
    {left right : Expr} {l r t : Ty} (hop : ¬op.IsLogic)
    (hl : HasType (m.around callable scope) left l)
    (hr : HasType (m.around callable scope) right r) (hs : locals.Sees g scope)
    (hg : w.globals.Matches g)
    (hruns : ∀ {u v : Value} {w : World σ}, u.type = l → v.type = r → w.globals.Matches g →
      Runs g R (m.binary span op u v) w (fun v _ => v.type = t)) :
    Runs g R (m.eval depth locals (fuel + 1) (.binary span op left right)) w
      (fun v _ => v.type = t) := by
  rw [eval_operator hop]
  refine (ih.eval hl hs hg).bind fun u w₁ hg₁ hu => ?_
  refine (ih.eval hr hs hg₁).bind fun v w₂ hg₂ hv => ?_
  exact hruns hu hv hg₂

/-- An expression has a value of its type, one case for every rule. -/
theorem eval_succ (ih : SoundAt m g callable R fuel) (hm : m.Ready g callable R) {e : Expr} {t : Ty}
    (he : HasType (m.around callable scope) e t) (hs : locals.Sees g scope)
    (hg : w.globals.Matches g) :
    Runs g R (m.eval depth locals (fuel + 1) e) w (fun v _ => v.type = t) := by
  cases he with
  | int _ _ _ => exact runs_pure hg rfl
  | float _ _ _ => exact runs_pure hg rfl
  | bool _ _ => exact runs_pure hg rfl
  | string _ _ => exact runs_pure hg rfl
  | self _ => exact runs_pure hg rfl
  | ident id x hx => exact (runs_lookup hs hg hx).mono fun _ _ h => h.2.1
  | field span object name t _ hobj hfield =>
      refine (ih.eval hobj hs hg).bind fun base w' hg' hbase => ?_
      exact runs_readField hm.host hg' (hbase ▸ hfield)
  | neg span arg _ harg hnum =>
      refine (ih.eval harg hs hg).bind fun v w' hg' hv => ?_
      subst hv
      exact (runs_settle hg' (applyUnary_neg_settles hnum)).mono fun _ _ h => h.2
  | not span arg harg =>
      refine (ih.eval harg hs hg).bind fun v w' hg' hv => ?_
      exact (runs_settle hg' (applyUnary_not_settles hv)).mono fun _ _ h => h.2
  | concat span left right hl hr =>
      refine ih.runs_operator (BinaryOp.IsArithmetic.not_isLogic (.inl rfl)) hl hr hs hg ?_
      exact fun hu hv hg' => runs_binary (BinaryOp.IsArithmetic.not_isEquality (.inl rfl)) hg'
        (applyBinary_concat_settles hu hv)
  | arithmetic span op left right l r hop hl hr hln hrn =>
      refine ih.runs_operator hop.not_isLogic hl hr hs hg ?_
      rintro u v w' rfl rfl hg'
      exact runs_binary hop.not_isEquality hg' (applyBinary_arithmetic_settles hop hln hrn)
  | order span op left right l r hop hl hr hln hrn =>
      refine ih.runs_operator hop.not_isLogic hl hr hs hg ?_
      rintro u v w' rfl rfl hg'
      exact runs_binary hop.not_isEquality hg' (applyBinary_order_settles hop hln hrn)
  | equality span op left right l r hop hl hr hcmp =>
      refine ih.runs_operator hop.not_isLogic hl hr hs hg ?_
      exact fun _ _ hg' => runs_equality hm.host hop hg'
  | logic span op left right hop hl hr =>
      -- The right operand runs only when the left one leaves the answer open.
      rcases hop with rfl | rfl
      · refine (ih.condition hl hs hg).bind fun b w₁ hg₁ _ => ?_
        cases b with
        | true =>
            refine (ih.condition hr hs hg₁).bind fun b' w₂ hg₂ _ => ?_
            exact runs_pure hg₂ rfl
        | false => exact runs_pure hg₁ rfl
      · refine (ih.condition hl hs hg).bind fun b w₁ hg₁ _ => ?_
        cases b with
        | true => exact runs_pure hg₁ rfl
        | false =>
            refine (ih.condition hr hs hg₁).bind fun b' w₂ hg₂ _ => ?_
            exact runs_pure hg₂ rfl
  | struct span name fields _ hname hst hfields hall =>
      refine (ih.evalFields hfields hs hg).bind fun values w' hg' hv => ?_
      -- Every field of the type was written, and every written field got a value.
      have hgiven : ∀ e ∈ t.fields, ∃ x ∈ values, x.1 = Text.ofString e.1.word := by
        intro e he
        obtain ⟨x, hx, hxn⟩ := hall e he
        have hmem : Text.ofString e.1.word ∈ values.map Prod.fst := by
          rw [hv.2, ← hxn]
          exact List.mem_map_of_mem hx
        simpa using hmem
      obtain ⟨v, hbuild, hvt⟩ := Value.build?_typed hst hv.1 hgiven
      rw [hname, Option.bind_some, hbuild]
      exact runs_pure hg' hvt
  | print span callee args hb hargs =>
      rw [Machine.eval, hb]
      exact ih.callBuiltin (.print span callee args hb hargs) hb hs hg
  | emit span callee nameSpan name args signal hb hsig hargs =>
      rw [Machine.eval, hb]
      exact ih.callBuiltin (.emit span callee nameSpan name args signal hb hsig hargs) hb hs hg
  | builtin span callee args b params hb hp hargs =>
      rw [Machine.eval, hb]
      exact ih.callBuiltin (.builtin span callee args b params hb hp hargs) hb hs hg
  | call span callee args f hb hf hinit hargs =>
      -- The rule allows no call while globals are initialized.
      have hcall : callable = true := by simpa [around] using hinit
      rw [around_function?] at hf
      obtain ⟨info, hinfo, rfl⟩ := Option.map_eq_some_iff.mp hf
      rw [Machine.eval, hb]
      refine (ih.evalAll hargs hs hg).bind fun values w' hg' hv => ?_
      exact ih.call hcall hinfo hv hg'

theorem condition_succ (ih : SoundAt m g callable R fuel) {e : Expr}
    (he : HasType (m.around callable scope) e .bool) (hs : locals.Sees g scope)
    (hg : w.globals.Matches g) :
    Runs g R (m.condition depth locals (fuel + 1) e) w (fun _ _ => True) := by
  refine (ih.eval he hs hg).bind fun v w' hg' hv => ?_
  cases v <;> cases hv
  exact runs_pure hg' trivial

theorem evalAll_succ (ih : SoundAt m g callable R fuel) {es : List Expr} {params : List TypedName}
    (hes : Fitting (m.around callable scope) es params) (hs : locals.Sees g scope)
    (hg : w.globals.Matches g) :
    Runs g R (m.evalAll depth locals (fuel + 1) es) w (fun vs _ => ArgumentsFit vs params) := by
  cases hes with
  | nil => exact runs_pure hg .nil
  | cons e es p ps t he hfit hes =>
      refine (ih.eval he hs hg).bind fun v w₁ hg₁ hv => ?_
      refine (ih.evalAll hes hs hg₁).bind fun vs w₂ hg₂ hvs => ?_
      exact runs_pure hg₂ (.cons (hv ▸ hfit) hvs)

theorem printed_succ (ih : SoundAt m g callable R fuel) {es : List Expr}
    (hes : Printable (m.around callable scope) es) (hs : locals.Sees g scope)
    (hg : w.globals.Matches g) :
    Runs g R (m.evalAll depth locals (fuel + 1) es) w (fun _ _ => True) := by
  cases hes with
  | nil => exact runs_pure hg trivial
  | cons e es t he _ hes =>
      refine (ih.eval he hs hg).bind fun v w₁ hg₁ _ => ?_
      refine (ih.printed hes hs hg₁).bind fun vs w₂ hg₂ _ => ?_
      exact runs_pure hg₂ trivial

theorem evalFields_succ (ih : SoundAt m g callable R fuel) {type : Ty}
    {fields : List (Ident × Expr)} (hf : Members (m.around callable scope) type fields)
    (hs : locals.Sees g scope) (hg : w.globals.Matches g) :
    Runs g R (m.evalFields depth locals (fuel + 1) fields) w (fun vs _ =>
      MemberValues type vs ∧ vs.map Prod.fst = fields.map fun x => x.1.name) := by
  cases hf with
  | nil => exact runs_pure hg ⟨memberValues_nil type, rfl⟩
  | cons _ name e rest t u he hu hfit hrest =>
      refine (ih.eval he hs hg).bind fun v w₁ hg₁ hv => ?_
      refine (ih.evalFields hrest hs hg₁).bind fun vs w₂ hg₂ hvs => ?_
      refine runs_pure hg₂ ⟨?_, by rw [List.map_cons, hvs.2, List.map_cons]⟩
      intro x hx
      rcases List.mem_cons.mp hx with rfl | hx
      · exact ⟨u, hu, hv ▸ hfit⟩
      · exact hvs.1 x hx

theorem argumentText_succ (ih : SoundAt m g callable R fuel) {span : Span} {callee : Ident}
    {e : Expr} {rest : List Expr} (he : HasType (m.around callable scope) e .string)
    (hs : locals.Sees g scope) (hg : w.globals.Matches g) :
    Runs g R (m.argumentText depth locals (fuel + 1) span callee (e :: rest)) w
      (fun _ _ => True) := by
  refine (ih.eval he hs hg).bind fun v w' hg' hv => ?_
  cases v <;> cases hv
  exact runs_pure hg' trivial

/-- A question about a place in the tree is asked behind the check that `self` is alive. -/
theorem runs_query {α β : Type} (hm : m.Ready g callable R) {span : Span} {call : HostCall σ α}
    {f : α → Eval σ β} {Q : β → World σ → Prop} (hcall : ∀ s, ∃ a, call s = .ok a s)
    (hg : w.globals.Matches g) (hf : ∀ a w', w'.globals.Matches g → Runs g R (f a) w' Q) :
    Runs g R (do
      m.checkAlive m.self span
      let a ← Eval.ofHost call
      f a) w Q := by
  refine (runs_checkAlive hm.host hg m.self span).bind fun _ w₁ hg₁ _ => ?_
  obtain ⟨a, ha⟩ := hcall w₁.host
  refine Runs.bind (Q := fun _ _ => True) (runs_ofHost hg₁ ha (R.refl _) trivial) ?_
  exact fun a w₂ hg₂ _ => hf a w₂ hg₂

/-- The only argument of a built-in function that takes a text. -/
theorem fitting_text {s : Surroundings} {args : List Expr} {name : Text}
    (h : Fitting s args [⟨name, .string⟩]) : ∃ e, args = [e] ∧ HasType s e .string := by
  cases h with
  | cons e es _ _ t he hfit hes =>
      cases hes
      rcases hfit with rfl | ⟨_, h⟩
      · exact ⟨e, rfl, he⟩
      · cases h

theorem callBuiltin_succ (ih : SoundAt m g callable R fuel) (hm : m.Ready g callable R)
    {span : Span} {callee : Ident} {args : List Expr} {t : Ty} {b : Builtin}
    (he : HasType (m.around callable scope) (.call span callee args) t)
    (hb : Builtin.ofText? callee.name = some b) (hs : locals.Sees g scope)
    (hg : w.globals.Matches g) :
    Runs g R (m.callBuiltin depth locals (fuel + 1) b span callee args) w
      (fun v _ => v.type = t) := by
  -- A node that is not found is the one fault that a question to the host adds.
  have node : FaultKind.IsOrdinary .nodeNotFound := .inr (.inr (.inr rfl))
  cases he with
  | print _ _ _ hb' hargs =>
      cases hb.symm.trans hb'
      refine (ih.printed hargs hs hg).bind fun vs w₁ hg₁ _ => ?_
      obtain ⟨s, hp, hR⟩ := hm.host.print (Text.join " " (vs.map Value.format)) w₁.host
      refine Runs.bind (Q := fun _ _ => True) (runs_ofHost hg₁ hp hR trivial) ?_
      exact fun _ w₂ hg₂ _ => runs_pure hg₂ rfl
  | emit _ _ nameSpan name args signal hb' hsig hargs =>
      cases hb.symm.trans hb'
      have hsig' : m.signal? name = some signal := hsig
      simp only [Machine.callBuiltin, hsig']
      refine (ih.evalAll hargs hs hg).bind fun vs w₁ hg₁ hvs => ?_
      refine (runs_checkAlive hm.host hg₁ m.self span).bind fun _ w₂ hg₂ _ => ?_
      obtain ⟨s, hemit, hR⟩ := hm.host.emit m.self signal (coerceArguments signal.params vs) w₂.host
        (List.mem_of_find?_eq_some hsig') (coerceArguments_types hvs)
      refine Runs.bind (Q := fun _ _ => True) (runs_ofHost hg₂ hemit hR trivial) ?_
      exact fun _ w₃ hg₃ _ => runs_pure hg₃ rfl
  | builtin _ _ _ _ params hb' hp hargs =>
      cases hb.symm.trans hb'
      cases b with
      | print => cases hp
      | emitSignal => cases hp
      | getParent =>
          refine runs_query hm (hm.host.getParent m.self) hg fun r w₁ hg₁ => ?_
          exact runs_found hg₁ node
      | getNode =>
          cases hp
          obtain ⟨e, rfl, he⟩ := fitting_text hargs
          refine (ih.argumentText he hs hg).bind fun path w₁ hg₁ _ => ?_
          refine runs_query hm (hm.host.getNode m.self path) hg₁ fun r w₂ hg₂ => ?_
          exact runs_found hg₂ node
      | hasNode =>
          cases hp
          obtain ⟨e, rfl, he⟩ := fitting_text hargs
          refine (ih.argumentText he hs hg).bind fun path w₁ hg₁ _ => ?_
          refine runs_query hm (hm.host.getNode m.self path) hg₁ fun r w₂ hg₂ => ?_
          exact runs_pure hg₂ rfl
      | findChild =>
          cases hp
          obtain ⟨e, rfl, he⟩ := fitting_text hargs
          refine (ih.argumentText he hs hg).bind fun name w₁ hg₁ _ => ?_
          refine runs_query hm (hm.host.findChild m.self name) hg₁ fun r w₂ hg₂ => ?_
          exact runs_found hg₂ node
  | call _ _ _ _ hb' _ _ _ => cases hb.symm.trans hb'

/-! ## Calls and statements -/

theorem call_succ (ih : SoundAt m g callable R fuel) (hm : m.Ready g callable R) {name : Text}
    {args : List Value} {span : Option Span} {f : FunctionInfo} (hc : callable = true)
    (hf : m.function? name = some f) (hargs : ArgumentsFit args f.signature.params)
    (hg : w.globals.Matches g) :
    Runs g R (m.call depth (fuel + 1) name args span) w
      (fun v _ => v.type = f.signature.returns) := by
  have hwt := hm.functions hc f (List.mem_of_find?_eq_some hf)
  rw [Machine.call, hf]
  by_cases hdeep : m.maxDepth ≤ depth
  · simp only [if_pos hdeep]
    exact runs_raise hg (.inr (.inr (.inl rfl)))
  · simp only [if_neg hdeep]
    have hframe := parameterFrame_matches f.decl.params f.signature.params args [] []
      Bindings.matches_nil hwt.arity hargs hwt.nodup fun _ _ => rfl
    subst hc
    have hbody : Runs g R (m.execAll (depth + 1) fuel
        [parameterFrame f.decl.params f.signature.params args []] f.decl.body.body) w _ :=
      ih.execAll rfl hwt.body (.body hframe) hg
    have hclosed := closed_execAll m (depth + 1) fuel
      [parameterFrame f.decl.params f.signature.params args []] f.decl.body.body w
    -- What the body leads to is known from its types and from its shape.
    have hflow : Runs g R (m.execAll (depth + 1) fuel
        [parameterFrame f.decl.params f.signature.params args []] f.decl.body.body) w
        (fun flow _ => FlowOk f.signature.returns (fun _ => True) flow ∧
          (f.signature.returns = .void ∨ flow.fallsThrough = false)) := by
      refine (Ends.and hbody hclosed).mono (fun flow w' h => ⟨h.1.1, ?_, ?_⟩) fun _ _ h => h.1
      · exact h.1.2.mono fun _ _ => trivial
      · refine hwt.ends.imp id fun hret => Bool.eq_false_iff.mpr fun hft => ?_
        have hoff := h.2 hft
        cases hb : f.decl.body with
        | mk s body =>
            rw [hb] at hret hoff
            cases hret.symm.trans hoff
    refine runs_inFunction (hflow.bind fun flow w' hg' h => ?_)
    exact runs_conclude hg' h.1 h.2

theorem exec_succ (ih : SoundAt m g callable R fuel) (hm : m.Ready g callable R) {st : Stmt Ty}
    {r : Ty} {scope' : Scope} (hc : callable = true)
    (hst : StmtOk r (m.around callable scope) st scope') (hl : locals.Models g scope)
    (hg : w.globals.Matches g) :
    Runs g R (m.exec depth (fuel + 1) locals st) w
      (fun flow _ => FlowOk r (fun l => l.Models g scope') flow) := by
  cases hst with
  | block _ b hb => exact ih.execBlock hc hb hl hg
  | bind _ span name mutable declared init t type _ hinit hfit _ hdef =>
      refine (ih.eval hinit hl.sees hg).bind fun v w' hg' hv => ?_
      exact runs_pure hg' (hl.declare hdef (Value.coerceOrKeep_type (hv ▸ hfit)))
  | assign _ span target op value t found htarget hvalue hcomb =>
      refine (ih.eval hvalue hl.sees hg).bind fun rhs w₁ hg₁ hrhs => ?_
      refine (runs_assign hm.host (s := m.around callable scope) hl hg₁ htarget
        (hrhs ▸ hcomb)).bind fun changed w₂ hg₂ hch => ?_
      exact runs_pure hg₂ hch
  | cond _ c hcond => exact ih.execCond hc hcond hl hg
  | loop _ span test body htest hbody => exact ih.execLoop hc htest hbody hl hg
  | leave _ span hr => exact runs_pure hg fun hne => absurd hr hne
  | ret _ span e t he _ hfit =>
      refine (ih.eval he hl.sees hg).bind fun v w' hg' hv => ?_
      exact runs_pure hg' fun _ => hv ▸ hfit
  | eval _ span e t he =>
      refine (ih.eval he hl.sees hg).bind fun v w' hg' _ => ?_
      exact runs_pure hg' hl

/-- A statement changes at most the innermost frame of its scope. -/
theorem scope_after {r : Ty} {s : Surroundings} {st : Stmt Ty} {frame : List Variable}
    {outer scope' : Scope} (hst : StmtOk r s st scope') (hs : s.scope = frame :: outer) :
    ∃ frame', scope' = frame' :: outer := by
  cases hst with
  | bind _ _ _ _ _ _ _ _ _ _ _ _ hdef =>
      rw [hs, Scope.define?] at hdef
      split at hdef
      · cases hdef
      · exact ⟨_, (Option.some.inj hdef).symm⟩
  | _ => exact ⟨frame, hs⟩

theorem execAll_succ (ih : SoundAt m g callable R fuel) {frame : List Variable} {outer : Scope}
    {body : List (Stmt Ty)} {r : Ty} (hc : callable = true)
    (hbody : StmtsOk r (m.around callable (frame :: outer)) body)
    (hl : locals.Models g (frame :: outer)) (hg : w.globals.Matches g) :
    Runs g R (m.execAll depth (fuel + 1) locals body) w
      (fun flow _ => FlowOk r (fun l => ∃ frame', l.Models g (frame' :: outer)) flow) := by
  cases hbody with
  | nil => exact runs_pure hg ⟨frame, hl⟩
  | cons _ st rest scope' hst hrest =>
      obtain ⟨frame', rfl⟩ := scope_after hst rfl
      refine (ih.exec hc hst hl hg).bind fun flow w' hg' hflow => ?_
      cases flow with
      | next locals' => exact ih.execAll hc hrest hflow hg'
      | returned v => exact runs_pure hg' hflow

theorem execBlock_succ (ih : SoundAt m g callable R fuel) {b : Block Ty} {r : Ty}
    (hc : callable = true) (hb : BlockOk r (m.around callable scope) b)
    (hl : locals.Models g scope) (hg : w.globals.Matches g) :
    Runs g R (m.execBlock depth (fuel + 1) locals b) w
      (fun flow _ => FlowOk r (fun l => l.Models g scope) flow) := by
  cases hb with
  | mk _ span body hbody =>
      -- The body runs in a frame of its own, which is dropped again behind it.
      refine (ih.execAll hc hbody (.inner Bindings.matches_nil hl) hg).bind
        fun flow w' hg' hflow => ?_
      cases flow with
      | next inner =>
          obtain ⟨frame', hinner⟩ := hflow
          exact runs_pure hg' (hinner.tail hl.ne_globals)
      | returned v => exact runs_pure hg' hflow

theorem execCond_succ (ih : SoundAt m g callable R fuel) {c : Cond Ty} {r : Ty}
    (hc : callable = true) (hcond : CondOk r (m.around callable scope) c)
    (hl : locals.Models g scope) (hg : w.globals.Matches g) :
    Runs g R (m.execCond depth (fuel + 1) locals c) w
      (fun flow _ => FlowOk r (fun l => l.Models g scope) flow) := by
  cases hcond with
  | mk _ span test consequent alternate htest hthen helse =>
      refine (ih.condition htest hl.sees hg).bind fun taken w' hg' _ => ?_
      cases taken with
      | true => exact ih.execBlock hc hthen hl hg'
      | false =>
          cases helse with
          | absent => exact runs_pure hg' hl
          | block _ b hb => exact ih.execBlock hc hb hl hg'
          | cond _ c hcond => exact ih.execCond hc hcond hl hg'

theorem execLoop_succ (ih : SoundAt m g callable R fuel) {test : Expr} {body : Block Ty} {r : Ty}
    (hc : callable = true) (htest : HasType (m.around callable scope) test .bool)
    (hbody : BlockOk r (m.around callable scope) body) (hl : locals.Models g scope)
    (hg : w.globals.Matches g) :
    Runs g R (m.execLoop depth (fuel + 1) locals test body) w
      (fun flow _ => FlowOk r (fun l => l.Models g scope) flow) := by
  refine (ih.condition htest hl.sees hg).bind fun again w₁ hg₁ _ => ?_
  cases again with
  | true =>
      refine (ih.execBlock hc hbody hl hg₁).bind fun flow w₂ hg₂ hflow => ?_
      cases flow with
      | next locals' => exact ih.execLoop hc htest hbody hflow hg₂
      | returned v => exact runs_pure hg₂ hflow
  | false => exact runs_pure hg₁ hl

end SoundAt

/-- The evaluator respects types, whatever the fuel. -/
theorem soundAt {m : Machine σ} {callable : Bool} (hm : m.Ready g callable R) (fuel : Nat) :
    SoundAt m g callable R fuel := by
  -- All parts call each other with one unit less, so they are carried through together.
  induction fuel with
  | zero => exact .zero m g callable R
  | succ fuel ih =>
      exact
        { eval         := ih.eval_succ hm
          condition    := ih.condition_succ
          evalAll      := ih.evalAll_succ
          printed      := ih.printed_succ
          evalFields   := ih.evalFields_succ
          callBuiltin  := ih.callBuiltin_succ hm
          argumentText := ih.argumentText_succ
          call         := ih.call_succ hm
          exec         := ih.exec_succ hm
          execAll      := ih.execAll_succ
          execBlock    := ih.execBlock_succ
          execCond     := ih.execCond_succ
          execLoop     := ih.execLoop_succ }

end Machine

end SceneScript
