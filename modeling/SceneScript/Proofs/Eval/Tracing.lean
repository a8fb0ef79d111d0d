import SceneScript.Proofs.Eval.Moments
import SceneScript.Proofs.Eval.Raising

/-!
# Where faults come from

A fault passes through all computations around the one that raised it, and every call that it passes
adds the name of its function. Nothing catches it. So a run stops with a fault exactly if the fault
arises at some moment of the run, and the names that it has gathered outside are those of the
functions that were active at that moment. Both directions are about a single step between moments
first, and then go along the way from the moment of the fault to the beginning of the run.

* **`Machine.halt?`** — what the computation that begins at a moment stops with.
* **`Machine.Active`** — the functions that are active at a moment of a run.
* **`Machine.Arises`** — a fault arises in a run, with some functions active.
* **`Machine.Source`** — where a fault of one moment is from; `Machine.source` for every moment.
* **`Machine.Begins.halts`** — a fault inside a moment is one of the moment.
* **`Machine.halts_iff_arises`** — a run stops with a fault if and only if it arises there, with the
  functions of its trace active.
-/

namespace SceneScript

variable {σ α β : Type}

/-! ## Faults on their way out -/

/-- The fault was raised by the host. -/
def Fault.IsHosts (f : Fault) : Prop := ∃ message, f.cause = .hostFailure message

/-- The fault as it is seen outside of more functions. -/
def Fault.under (f : Fault) (names : List Text) : Fault := { f with trace := f.trace ++ names }

theorem Fault.under_nil (f : Fault) : f.under [] = f := by rw [under, List.append_nil]

theorem Fault.under_under (f : Fault) (names outer : List Text) :
    (f.under names).under outer = f.under (names ++ outer) := by
  simp only [under, List.append_assoc]

theorem Fault.within_eq {f : Fault} (h : ¬f.IsHosts) (name : Text) :
    f.within name = f.under [name] := by
  rw [within]
  split
  · next message hcause => exact absurd ⟨message, hcause⟩ h
  · rfl

theorem Fault.isHosts_within (f : Fault) (name : Text) : (f.within name).IsHosts ↔ f.IsHosts := by
  rw [IsHosts, IsHosts, within_cause]

/-- What a computation has stopped with, if it has. -/
def Halt.of? : EStateM.Result Halt (World σ) α → Option Halt
  | .ok _ _    => none
  | .error h _ => some h

theorem Halt.of?_ok {r : EStateM.Result Halt (World σ) α} {a : α} {w : World σ}
    (h : r = .ok a w) : Halt.of? r = none := by rw [h, of?]

theorem Halt.of?_eq_some_iff {r : EStateM.Result Halt (World σ) α} {h : Halt} :
    Halt.of? r = some h ↔ ∃ w, r = .error h w := by
  cases r with
  | ok a w => exact ⟨nofun, nofun⟩
  | error h' w =>
      constructor
      · intro heq
        exact ⟨w, by rw [Option.some.inj heq]⟩
      · rintro ⟨_, heq⟩
        cases heq
        rfl

theorem Halt.of?_bind_error {c : Eval σ α} {k : α → Eval σ β} {w : World σ} {h : Halt}
    (hc : Halt.of? (c w) = some h) : Halt.of? ((c >>= k) w) = some h := by
  obtain ⟨w', hrun⟩ := of?_eq_some_iff.mp hc
  rw [bind_of_error hrun, of?]

theorem Halt.of?_bind_ok {c : Eval σ α} {k : α → Eval σ β} {w w' : World σ} {a : α} {h : Halt}
    (hc : c w = .ok a w') (hk : Halt.of? (k a w') = some h) : Halt.of? ((c >>= k) w) = some h := by
  rw [bind_of_ok hc, hk]

/-! ## Active functions -/

/-- The function whose body begins inside of the part. -/
def Task.opens : Task → List Text
  | .call name _ _ => [name]
  | _              => []

namespace Machine

/-- What the computation that begins at a moment stops with, if it does. -/
def halt? (m : Machine σ) : Moment σ → Option Halt
  | ⟨d, n, .eval l e, w⟩ => Halt.of? (m.eval d l n e w)
  | ⟨d, n, .condition l e, w⟩ => Halt.of? (m.condition d l n e w)
  | ⟨d, n, .evalAll l es, w⟩ => Halt.of? (m.evalAll d l n es w)
  | ⟨d, n, .evalFields l fields, w⟩ => Halt.of? (m.evalFields d l n fields w)
  | ⟨d, n, .callBuiltin l b span id args, w⟩ => Halt.of? (m.callBuiltin d l n b span id args w)
  | ⟨d, n, .argumentText l span id args, w⟩ => Halt.of? (m.argumentText d l n span id args w)
  | ⟨d, n, .call name args span, w⟩ => Halt.of? (m.call d n name args span w)
  | ⟨d, n, .exec l st, w⟩ => Halt.of? (m.exec d n l st w)
  | ⟨d, n, .execAll l body, w⟩ => Halt.of? (m.execAll d n l body w)
  | ⟨d, n, .execBlock l b, w⟩ => Halt.of? (m.execBlock d n l b w)
  | ⟨d, n, .execCond l c, w⟩ => Halt.of? (m.execCond d n l c w)
  | ⟨d, n, .execLoop l test body, w⟩ => Halt.of? (m.execLoop d n l test body w)

/-- In the run that begins at the moment `x`, the moment lies inside the bodies of the functions,
    innermost first. A function becomes active when its body begins. -/
inductive Active (m : Machine σ) (x : Moment σ) : List Text → Moment σ → Prop where
  | start : Active m x [] x
  | inside {names : List Text} {y z : Moment σ} :
      Active m x names y → m.Begins y z → Active m x (y.task.opens ++ names) z

/-- In the run that begins at the moment `x` a fault arises, while the functions are active. The
    computation of some moment stops with it though no computation inside stops; or a call stops
    with it though the body of its function, which is active still, has not stopped. -/
inductive Arises (m : Machine σ) (x : Moment σ) (cause : FaultCause) (span : Option Span) :
    List Text → Prop where
  | inside {names trace : List Text} {y : Moment σ} : m.Active x names y →
      m.halt? y = some (.fault ⟨cause, span, trace⟩) →
      (∀ z, m.Begins y z → z.depth = y.depth ∧ m.halt? z = none) → Arises m x cause span names
  | behind {names trace : List Text} {y z : Moment σ} : m.Active x names y → m.Begins y z →
      z.depth = y.depth + 1 → m.halt? y = some (.fault ⟨cause, span, trace⟩) →
      m.halt? z = none → Arises m x cause span (y.task.opens ++ names)

/-! ## The source of a fault -/

/-- Where the fault of a moment is from: the moment itself raised it, or a moment directly inside,
    or it is about a body that has ended. -/
inductive Source (m : Machine σ) (x : Moment σ) (f : Fault) : Prop where
  | own : f.trace = [] → (f.kind = .stackOverflow → m.maxDepth ≤ x.depth) →
      (∀ z, m.Begins x z → z.depth = x.depth ∧ m.halt? z = none) → Source m x f
  | inner {z : Moment σ} {g : Fault} : m.Begins x z → m.halt? z = some (.fault g) → ¬g.IsHosts →
      f = g.under x.task.opens → Source m x f
  | ended {z : Moment σ} : m.Begins x z → z.depth = x.depth + 1 → m.halt? z = none →
      f.trace = x.task.opens → f.kind ≠ .stackOverflow → Source m x f

/-- Every fault that the computation raises in the world, and not the host, has its source at the
    moment. -/
def Sourced (m : Machine σ) (x : Moment σ) (c : Eval σ α) (w : World σ) : Prop :=
  ∀ f w', c w = .error (.fault f) w' → ¬f.IsHosts → m.Source x f

namespace Sourced

variable {m : Machine σ} {x z : Moment σ} {c : Eval σ α} {k : α → Eval σ β} {w : World σ}

/-- What the moment itself does, when nothing inside it stopped. -/
theorem own (hc : Plain c) (hx : ∀ z, m.Begins x z → z.depth = x.depth ∧ m.halt? z = none) :
    m.Sourced x c w := by
  intro f w' hf _
  obtain ⟨htrace, hcall⟩ := hc w f w' hf
  exact .own htrace (fun hkind => absurd hkind (FaultCause.kind_ne_stackOverflow hcall)) hx

theorem pure (a : α) : m.Sourced x (Pure.pure a : Eval σ α) w := fun _ _ => nofun

/-- The computation is one that begins inside the moment. -/
theorem ask (hz : m.Begins x z) (hopens : x.task.opens = []) (hhalt : m.halt? z = Halt.of? (c w)) :
    m.Sourced x c w := by
  intro f w' hf hhost
  refine .inner hz (hhalt.trans (Halt.of?_eq_some_iff.mpr ⟨w', hf⟩)) hhost ?_
  rw [hopens, Fault.under_nil]

/-- First a computation that begins inside the moment. -/
theorem bind (hz : m.Begins x z) (hopens : x.task.opens = []) (hhalt : m.halt? z = Halt.of? (c w))
    (hk : ∀ a w', c w = .ok a w' → m.Sourced x (k a) w') : m.Sourced x (c >>= k) w := by
  intro f w'' hf hhost
  cases hrun : c w with
  | ok a w' =>
      rw [bind_of_ok hrun] at hf
      exact hk a w' hrun f w'' hf hhost
  | error h w' =>
      cases (bind_of_error hrun).symm.trans hf
      exact ask hz hopens hhalt f w'' hrun hhost

end Sourced

theorem Sourced.source {m : Machine σ} {x : Moment σ} {c : Eval σ α} {w : World σ} {f : Fault}
    (h : m.Sourced x c w) (hf : Halt.of? (c w) = some (.fault f)) (hhost : ¬f.IsHosts) :
    m.Source x f := by
  obtain ⟨w', hrun⟩ := Halt.of?_eq_some_iff.mp hf
  exact h f w' hrun hhost

variable {m : Machine σ}

section

variable (d n : Nat) (l : Locals) (w : World σ)

theorem sourced_binary (span : Span) (op : BinaryOp) (left right : Expr) :
    m.Sourced ⟨d, n + 1, .eval l (.binary span op left right), w⟩
      (m.eval d l (n + 1) (.binary span op left right)) w := by
  by_cases hop : op.IsLogic
  · rcases hop with rfl | rfl
    · refine .bind (.leftTest (.inl rfl)) rfl rfl fun b w' hleft => ?_
      cases b with
      | true => exact .bind (.andTest hleft) rfl rfl fun _ _ _ => .pure _
      | false => exact .pure _
    · refine .bind (.leftTest (.inr rfl)) rfl rfl fun b w' hleft => ?_
      cases b with
      | true => exact .pure _
      | false => exact .bind (.orTest hleft) rfl rfl fun _ _ _ => .pure _
  · rw [eval_operator hop]
    refine .bind (.left hop) rfl rfl fun u w' hleft => ?_
    refine .bind (.right hop hleft) rfl rfl fun v w'' hright => ?_
    refine .own (plain_binary span op u v) fun z hz => ?_
    cases hz with
    | left _ => exact ⟨rfl, Halt.of?_ok hleft⟩
    | right _ hleft' =>
        cases hleft.symm.trans hleft'
        exact ⟨rfl, Halt.of?_ok hright⟩
    | leftTest hlogic => exact absurd hlogic hop
    | andTest _ => exact absurd (.inl rfl) hop
    | orTest _ => exact absurd (.inr rfl) hop

theorem sourced_eval (e : Expr) :
    m.Sourced ⟨d, n + 1, .eval l e, w⟩ (m.eval d l (n + 1) e) w := by
  cases e with
  | int _ _ _ => exact .pure _
  | float _ _ _ => exact .pure _
  | bool _ _ => exact .pure _
  | string _ _ => exact .pure _
  | ident id => exact .own (plain_lookup l id) fun z hz => by cases hz
  | self _ => exact .pure _
  | field span object name =>
      refine .bind .object rfl rfl fun base w' hrun => ?_
      refine .own (plain_readField base span name) fun z hz => ?_
      cases hz with
      | object => exact ⟨rfl, Halt.of?_ok hrun⟩
  | unary span op arg =>
      refine .bind .operand rfl rfl fun v w' hrun => ?_
      refine .own (plain_unary span op v) fun z hz => ?_
      cases hz with
      | operand => exact ⟨rfl, Halt.of?_ok hrun⟩
  | binary span op left right => exact sourced_binary d n l w span op left right
  | struct span name fields =>
      refine .bind .fields rfl rfl fun values w' hrun => ?_
      split
      · exact .pure _
      · refine .own (plain_raise rfl _) fun z hz => ?_
        cases hz with
        | fields => exact ⟨rfl, Halt.of?_ok hrun⟩
  | call span callee args =>
      rw [eval]
      cases hb : Builtin.ofText? callee.name with
      | some b => exact .ask (.builtin hb) rfl rfl
      | none =>
          refine .bind (.arguments hb) rfl rfl fun values w' hrun => ?_
          exact .ask (.callee hb hrun) rfl rfl

theorem sourced_condition (e : Expr) :
    m.Sourced ⟨d, n + 1, .condition l e, w⟩ (m.condition d l (n + 1) e) w := by
  refine .bind .truth rfl rfl fun v w' hrun => ?_
  have hfails : ∀ cause, cause.ofCall = false → m.Sourced ⟨d, n + 1, .condition l e, w⟩
      (Eval.raise cause (some e.span) : Eval σ Bool) w' := fun cause hcause =>
    .own (plain_raise hcause _) fun z hz => by
      cases hz with
      | truth => exact ⟨rfl, Halt.of?_ok hrun⟩
  cases v with
  | bool b => exact .pure _
  | _ => exact hfails _ rfl

theorem sourced_evalAll (es : List Expr) :
    m.Sourced ⟨d, n + 1, .evalAll l es, w⟩ (m.evalAll d l (n + 1) es) w := by
  cases es with
  | nil => exact .pure _
  | cons e es =>
      refine .bind .firstValue rfl rfl fun v w' hrun => ?_
      exact .bind (.moreValues hrun) rfl rfl fun _ _ _ => .pure _

theorem sourced_evalFields (fields : List (Ident × Expr)) :
    m.Sourced ⟨d, n + 1, .evalFields l fields, w⟩ (m.evalFields d l (n + 1) fields) w := by
  cases fields with
  | nil => exact .pure _
  | cons field rest =>
      refine .bind .firstField rfl rfl fun v w' hrun => ?_
      exact .bind (.moreFields hrun) rfl rfl fun _ _ _ => .pure _

theorem sourced_argumentText (span : Span) (callee : Ident) (args : List Expr) :
    m.Sourced ⟨d, n + 1, .argumentText l span callee args, w⟩
      (m.argumentText d l (n + 1) span callee args) w := by
  cases args with
  | nil => exact .own (plain_raise rfl _) fun z hz => by cases hz
  | cons arg rest =>
      refine .bind .argument rfl rfl fun v w' hrun => ?_
      refine .own (plain_textArgument arg.span callee.name v) fun z hz => ?_
      cases hz with
      | argument => exact ⟨rfl, Halt.of?_ok hrun⟩

/-- A built-in function that reads a text and then asks the host. -/
theorem sourced_text {b : Builtin} {span : Span} {callee : Ident} {args : List Expr}
    (hb : b = .getNode ∨ b = .hasNode ∨ b = .findChild) {k : Text → Eval σ Value}
    (hk : ∀ t, Plain (k t)) :
    m.Sourced ⟨d, n + 1, .callBuiltin l b span callee args, w⟩
      (m.argumentText d l n span callee args >>= k) w := by
  refine .bind (.text hb) rfl rfl fun t w' hrun => .own (hk t) fun z hz => ?_
  cases hz with
  | text _ => exact ⟨rfl, Halt.of?_ok hrun⟩
  | printed => simp at hb
  | emitted _ => simp at hb

/-- The arguments of an emission are all that begins inside of it. -/
theorem begins_emitSignal {span : Span} {callee : Ident} {args : List Expr} {z : Moment σ}
    (h : m.Begins ⟨d, n + 1, .callBuiltin l .emitSignal span callee args, w⟩ z) :
    ∃ nameSpan name rest signal, args = .string nameSpan name :: rest ∧
      m.signal? name = some signal ∧ z = ⟨d, n, .evalAll l rest, w⟩ := by
  cases h with
  | emitted hsignal => exact ⟨_, _, _, _, rfl, hsignal, rfl⟩
  | text hb => simp at hb

theorem sourced_emitSignal (span : Span) (callee : Ident) (args : List Expr) :
    m.Sourced ⟨d, n + 1, .callBuiltin l .emitSignal span callee args, w⟩
      (m.callBuiltin d l (n + 1) .emitSignal span callee args) w := by
  cases args with
  | nil =>
      refine .own (plain_raise rfl _) fun z hz => ?_
      obtain ⟨_, _, _, _, hargs, -⟩ := begins_emitSignal d n l w hz
      cases hargs
  | cons first rest =>
      cases first with
      | string nameSpan name =>
          rw [callBuiltin]
          cases hsignal : m.signal? name with
          | none =>
              refine .own (plain_raise rfl _) fun z hz => ?_
              obtain ⟨_, _, _, _, hargs, hsignal', -⟩ := begins_emitSignal d n l w hz
              cases hargs
              cases hsignal.symm.trans hsignal'
          | some signal =>
              refine .bind (.emitted hsignal) rfl rfl fun values w' hrun => ?_
              refine .own (plain_asked span fun _ => plain_pure _) fun z hz => ?_
              obtain ⟨_, _, _, _, hargs, -, rfl⟩ := begins_emitSignal d n l w hz
              cases hargs
              exact ⟨rfl, Halt.of?_ok hrun⟩
      | _ =>
          refine .own (plain_raise rfl _) fun z hz => ?_
          obtain ⟨_, _, _, _, hargs, -⟩ := begins_emitSignal d n l w hz
          cases hargs

theorem sourced_callBuiltin (b : Builtin) (span : Span) (callee : Ident) (args : List Expr) :
    m.Sourced ⟨d, n + 1, .callBuiltin l b span callee args, w⟩
      (m.callBuiltin d l (n + 1) b span callee args) w := by
  cases b with
  | print =>
      refine .bind .printed rfl rfl fun values w' hrun => ?_
      refine .own ((plain_ofHost _).bind fun _ => plain_pure _) fun z hz => ?_
      cases hz with
      | printed => exact ⟨rfl, Halt.of?_ok hrun⟩
      | text hb => simp at hb
  | emitSignal => exact sourced_emitSignal d n l w span callee args
  | getParent =>
      refine .own (plain_asked span fun r => plain_found span rfl r) fun z hz => ?_
      cases hz with
      | text hb => simp at hb
  | getNode =>
      exact sourced_text d n l w (.inl rfl) fun t =>
        plain_asked span fun r => plain_found span rfl r
  | hasNode =>
      exact sourced_text d n l w (.inr (.inl rfl)) fun t => plain_asked span fun r => plain_pure _
  | findChild =>
      exact sourced_text d n l w (.inr (.inr rfl)) fun t =>
        plain_asked span fun r => plain_found span rfl r

/-- A body that has ended is reason for one fault only. -/
theorem conclude_error {f : FunctionInfo} {flow : Flow} {w w' : World σ} {g : Fault}
    (h : conclude f flow w = .error (.fault g) w') : g.trace = [] ∧ g.kind ≠ .stackOverflow := by
  cases flow with
  | returned v =>
      rw [conclude] at h
      split at h <;> cases h
  | next locals =>
      rw [conclude] at h
      split at h <;> cases h
      exact ⟨rfl, FaultKind.noConfusion⟩

theorem sourced_call (name : Text) (args : List Value) (span : Option Span) :
    m.Sourced ⟨d, n + 1, .call name args span, w⟩ (m.call d (n + 1) name args span) w := by
  rw [call]
  cases hf : m.function? name with
  | none =>
      refine .own (plain_raise rfl _) fun z hz => ?_
      cases hz with
      | body hf' _ => cases hf.symm.trans hf'
  | some f =>
      by_cases hdeep : m.maxDepth ≤ d
      · simp only [if_pos hdeep]
        intro fault w' hfault _
        cases hfault
        refine .own rfl (fun _ => hdeep) fun z hz => ?_
        cases hz with
        | body _ hroom => exact absurd hdeep hroom
      · simp only [if_neg hdeep]
        intro fault w' hfault hhost
        obtain ⟨g, hg, rfl⟩ := Eval.inFunction_error hfault
        rw [Fault.isHosts_within] at hhost
        rw [Fault.within_eq hhost]
        have hbody : m.Begins ⟨d, n + 1, .call name args span, w⟩ _ := .body hf hdeep
        cases hrun : m.execAll (d + 1) n
            [parameterFrame f.decl.params f.signature.params args []] f.decl.body.body w with
        | ok flow w'' =>
            -- The body has ended, and the function is still there to be named.
            rw [bind_of_ok hrun] at hg
            obtain ⟨htrace, hkind⟩ := conclude_error hg
            refine .ended hbody rfl (Halt.of?_ok hrun) ?_ hkind
            rw [Fault.under, htrace]
            rfl
        | error halt w'' =>
            cases (bind_of_error hrun).symm.trans hg
            exact .inner hbody (Halt.of?_eq_some_iff.mpr ⟨_, hrun⟩) hhost rfl

theorem sourced_exec (st : Stmt Ty) :
    m.Sourced ⟨d, n + 1, .exec l st, w⟩ (m.exec d (n + 1) l st) w := by
  cases st with
  | block b => exact .ask .block rfl rfl
  | bind span name mutable declared init type =>
      exact .bind .init rfl rfl fun _ _ _ => .pure _
  | assign span target op value =>
      refine .bind .value rfl rfl fun rhs w' hrun => ?_
      refine .own ((plain_assign l span target op rhs).bind fun _ => plain_pure _) fun z hz => ?_
      cases hz with
      | value => exact ⟨rfl, Halt.of?_ok hrun⟩
  | cond c => exact .ask .cond rfl rfl
  | loop span test body => exact .ask .loop rfl rfl
  | ret span value =>
      cases value with
      | none => exact .pure _
      | some e => exact .bind .result rfl rfl fun _ _ _ => .pure _
  | eval span e => exact .bind .effect rfl rfl fun _ _ _ => .pure _

theorem sourced_execAll (body : List (Stmt Ty)) :
    m.Sourced ⟨d, n + 1, .execAll l body, w⟩ (m.execAll d (n + 1) l body) w := by
  cases body with
  | nil => exact .pure _
  | cons st rest =>
      refine .bind .first rfl rfl fun flow w' hrun => ?_
      cases flow with
      | next l' => exact .ask (.next hrun) rfl rfl
      | returned v => exact .pure _

theorem sourced_execBlock (b : Block Ty) :
    m.Sourced ⟨d, n + 1, .execBlock l b, w⟩ (m.execBlock d (n + 1) l b) w := by
  cases b with
  | mk span body =>
      refine .bind .inner rfl rfl fun flow w' hrun => ?_
      cases flow <;> exact .pure _

theorem sourced_execCond (c : Cond Ty) :
    m.Sourced ⟨d, n + 1, .execCond l c, w⟩ (m.execCond d (n + 1) l c) w := by
  cases c with
  | mk span test consequent alternate =>
      refine .bind .test rfl rfl fun taken w' hrun => ?_
      cases taken with
      | true => exact .ask (.consequent hrun) rfl rfl
      | false =>
          cases alternate with
          | absent => exact .pure _
          | block b => exact .ask (.otherwise hrun) rfl rfl
          | cond c => exact .ask (.otherwiseIf hrun) rfl rfl

theorem sourced_execLoop (test : Expr) (body : Block Ty) :
    m.Sourced ⟨d, n + 1, .execLoop l test body, w⟩ (m.execLoop d (n + 1) l test body) w := by
  refine .bind .again rfl rfl fun goes w' hrun => ?_
  cases goes with
  | true =>
      refine .bind (.round hrun) rfl rfl fun flow w'' hround => ?_
      cases flow with
      | next l' => exact .ask (.repeated hrun hround) rfl rfl
      | returned v => exact .pure _
  | false => exact .pure _

end

/-- Every fault of the evaluator has a source at each moment that it passes. -/
theorem source {x : Moment σ} {f : Fault} (h : m.halt? x = some (.fault f)) (hhost : ¬f.IsHosts) :
    m.Source x f := by
  obtain ⟨d, n, task, w⟩ := x
  cases n with
  | zero => cases task <;> cases h
  | succ n =>
      cases task with
      | eval l e => exact (sourced_eval d n l w e).source h hhost
      | condition l e => exact (sourced_condition d n l w e).source h hhost
      | evalAll l es => exact (sourced_evalAll d n l w es).source h hhost
      | evalFields l fields => exact (sourced_evalFields d n l w fields).source h hhost
      | callBuiltin l b span callee args =>
          exact (sourced_callBuiltin d n l w b span callee args).source h hhost
      | argumentText l span callee args =>
          exact (sourced_argumentText d n l w span callee args).source h hhost
      | call name args span => exact (sourced_call d n w name args span).source h hhost
      | exec l st => exact (sourced_exec d n l w st).source h hhost
      | execAll l body => exact (sourced_execAll d n l w body).source h hhost
      | execBlock l b => exact (sourced_execBlock d n l w b).source h hhost
      | execCond l c => exact (sourced_execCond d n l w c).source h hhost
      | execLoop l test body => exact (sourced_execLoop d n l w test body).source h hhost

/-! ## On the way out -/

/-- What a computation inside stops with stops the one around it, unless this is a call, which adds
    the name of its function. -/
theorem Begins.halts {x z : Moment σ} (h : m.Begins x z) (hopens : x.task.opens = []) {halt : Halt}
    (hz : m.halt? z = some halt) : m.halt? x = some halt := by
  cases h with
  | object => exact Halt.of?_bind_error hz
  | operand => exact Halt.of?_bind_error hz
  | left hop =>
      rw [halt?, eval_operator hop]
      exact Halt.of?_bind_error hz
  | right hop hleft =>
      rw [halt?, eval_operator hop]
      exact Halt.of?_bind_ok hleft (Halt.of?_bind_error hz)
  | leftTest hlogic => rcases hlogic with rfl | rfl <;> exact Halt.of?_bind_error hz
  | andTest hleft => exact Halt.of?_bind_ok hleft (Halt.of?_bind_error hz)
  | orTest hleft => exact Halt.of?_bind_ok hleft (Halt.of?_bind_error hz)
  | fields => exact Halt.of?_bind_error hz
  | builtin hb =>
      rw [halt?, eval, hb]
      exact hz
  | arguments hb =>
      rw [halt?, eval, hb]
      exact Halt.of?_bind_error hz
  | callee hb hrun =>
      rw [halt?, eval, hb]
      exact Halt.of?_bind_ok hrun hz
  | truth => exact Halt.of?_bind_error hz
  | firstValue => exact Halt.of?_bind_error hz
  | moreValues hrun => exact Halt.of?_bind_ok hrun (Halt.of?_bind_error hz)
  | firstField => exact Halt.of?_bind_error hz
  | moreFields hrun => exact Halt.of?_bind_ok hrun (Halt.of?_bind_error hz)
  | printed => exact Halt.of?_bind_error hz
  | emitted hsignal =>
      rw [halt?, callBuiltin, hsignal]
      exact Halt.of?_bind_error hz
  | text hb => rcases hb with rfl | rfl | rfl <;> exact Halt.of?_bind_error hz
  | argument => exact Halt.of?_bind_error hz
  | body _ _ => cases hopens
  | block => exact hz
  | init => exact Halt.of?_bind_error hz
  | value => exact Halt.of?_bind_error hz
  | cond => exact hz
  | loop => exact hz
  | result => exact Halt.of?_bind_error hz
  | effect => exact Halt.of?_bind_error hz
  | first => exact Halt.of?_bind_error hz
  | next hrun => exact Halt.of?_bind_ok hrun hz
  | inner => exact Halt.of?_bind_error hz
  | test => exact Halt.of?_bind_error hz
  | consequent hrun => exact Halt.of?_bind_ok hrun hz
  | otherwise hrun => exact Halt.of?_bind_ok hrun hz
  | otherwiseIf hrun => exact Halt.of?_bind_ok hrun hz
  | again => exact Halt.of?_bind_error hz
  | round hrun => exact Halt.of?_bind_ok hrun (Halt.of?_bind_error hz)
  | repeated hrun hround => exact Halt.of?_bind_ok hrun (Halt.of?_bind_ok hround hz)

/-- A fault inside of a moment is one of the moment, and has one name more outside of a call. -/
theorem Begins.faults {x z : Moment σ} (h : m.Begins x z) {f : Fault} (hhost : ¬f.IsHosts)
    (hz : m.halt? z = some (.fault f)) :
    m.halt? x = some (.fault (f.under x.task.opens)) := by
  by_cases hopens : x.task.opens = []
  · rw [hopens, Fault.under_nil]
    exact h.halts hopens hz
  · cases h with
    | @body d n w name args span g hg hroom =>
        obtain ⟨w', hrun⟩ := Halt.of?_eq_some_iff.mp hz
        rw [halt?, call]
        simp only [hg, if_neg hroom]
        rw [Eval.inFunction, bind_of_error hrun]
        exact congrArg (fun f => some (Halt.fault f)) (Fault.within_eq hhost name)
    | _ => exact absurd rfl hopens

/-- What a moment of a run stops with, the run stops with, under the names of all functions that are
    active. -/
theorem Active.faults {x y : Moment σ} {names : List Text} (h : m.Active x names y) :
    ∀ {f : Fault}, ¬f.IsHosts → m.halt? y = some (.fault f) →
      m.halt? x = some (.fault (f.under names)) := by
  induction h with
  | start =>
      intro f _ hf
      rwa [Fault.under_nil]
  | @inside names y z _ hz ih =>
      intro f hhost hf
      have hhost' : ¬(f.under y.task.opens).IsHosts := hhost
      have hy := ih hhost' (hz.faults hhost hf)
      rwa [Fault.under_under] at hy

/-! ## Whole runs -/

theorem Begins.fuel {x z : Moment σ} (h : m.Begins x z) : x.fuel = z.fuel + 1 := by
  cases h <;> rfl

/-- Every function that becomes active makes the depth greater by one. -/
theorem Begins.depth {x z : Moment σ} (h : m.Begins x z) :
    z.depth = x.depth + x.task.opens.length := by
  cases h <;> rfl

theorem Active.depth {x y : Moment σ} {names : List Text} (h : m.Active x names y) :
    y.depth = x.depth + names.length := by
  induction h with
  | start => rfl
  | inside _ hz ih =>
      rw [hz.depth, ih, List.length_append]
      omega

/-- A body begins only where there is room for it. -/
theorem Active.depth_le {x y : Moment σ} {names : List Text} (h : m.Active x names y)
    (hne : names ≠ []) : (y.depth : Int) ≤ m.maxDepth := by
  induction h with
  | start => exact absurd rfl hne
  | @inside names y z _ hz ih =>
      cases hz with
      | body _ hroom =>
          push_cast
          omega
      | _ => exact ih hne

/-- A call has no more than one body. -/
theorem Begins.eq_body {x z z' : Moment σ} (h : m.Begins x z) (hdepth : z.depth = x.depth + 1)
    (h' : m.Begins x z') : z' = z := by
  cases h with
  | body hf _ =>
      cases h' with
      | body hf' _ =>
          cases hf.symm.trans hf'
          rfl
  | _ => exact absurd hdepth.symm (Nat.succ_ne_self _)

/-- A fault that a moment of a run stops with arises in the run, while the functions of its trace
    and those around the moment are active. From one source to the next there is less fuel. -/
theorem Active.arises {x : Moment σ} (n : Nat) :
    ∀ {y : Moment σ} {names : List Text} {f : Fault}, m.Active x names y → y.fuel = n →
      m.halt? y = some (.fault f) → ¬f.IsHosts →
      m.Arises x f.cause f.span (f.trace ++ names) ∧
        (f.kind = .stackOverflow → m.maxDepth ≤ (x.depth + (f.trace ++ names).length : Nat)) := by
  induction n with
  | zero =>
      intro y names f _ hn hf hhost
      obtain ⟨d, n, task, w⟩ := y
      cases hn
      cases task <;> cases hf
  | succ n ih =>
      intro y names f hy hn hf hhost
      cases source hf hhost with
      | own htrace hkind hquiet =>
          rw [htrace]
          refine ⟨.inside hy hf hquiet, fun hover => ?_⟩
          have hdepth := hy.depth
          have hmax := hkind hover
          simp only [List.nil_append]
          omega
      | @inner z g hz hg hghost hfg =>
          subst hfg
          have hfuel : z.fuel = n := by
            have := hz.fuel
            omega
          have hinner := ih (hy.inside hz) hfuel hg hghost
          rw [← List.append_assoc] at hinner
          exact hinner
      | @ended z hz hdepth hnone htrace hkind =>
          rw [htrace]
          exact ⟨.behind hy hz hdepth hf hnone, fun hover => absurd hover hkind⟩

/-- A run stops with a fault of the evaluator if and only if the fault arises in the run, and then
    the functions that are active are those of its trace. -/
theorem halts_iff_arises {x : Moment σ} {f : Fault} (hhost : ¬f.IsHosts) :
    m.halt? x = some (.fault f) ↔ m.Arises x f.cause f.span f.trace := by
  constructor
  · intro h
    have harises := (Active.arises x.fuel .start rfl h hhost).1
    rwa [List.append_nil] at harises
  · obtain ⟨cause, span, names⟩ := f
    have hhosts : ∀ trace, ¬(Fault.mk cause span trace).IsHosts := fun trace => hhost
    intro h
    cases h with
    | inside hy hf hquiet =>
        cases source hf (hhosts _) with
        | own htrace _ _ =>
            cases htrace
            exact hy.faults (hhosts _) hf
        | inner hz hg _ _ => cases (hquiet _ hz).2.symm.trans hg
        | ended hz hdepth _ _ _ =>
            exact absurd (hdepth.symm.trans (hquiet _ hz).1) (Nat.succ_ne_self _)
    | behind hy hz hdepth hf hnone =>
        cases source hf (hhosts _) with
        | own _ _ hquiet =>
            exact absurd (hdepth.symm.trans (hquiet _ hz).1) (Nat.succ_ne_self _)
        | inner hz' hg _ _ =>
            cases hz.eq_body hdepth hz'
            cases hnone.symm.trans hg
        | ended _ _ _ htrace _ =>
            cases htrace
            exact hy.faults (hhosts _) hf

end Machine

end SceneScript
