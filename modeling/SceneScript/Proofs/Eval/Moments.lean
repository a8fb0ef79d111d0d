import Mathlib.Logic.Relation
import SceneScript.Proofs.Eval.Sound

/-!
# The moments of a run

The evaluator is one function that calls itself. What it passes through on the way, the statements
that it executes and the worlds in which it does so, is not in its result. Here these are the
moments at which a computation of the evaluator begins, each inside another one: the first operand
of an operator begins in the world in which the operator begins, the second one in the world that
the first one leaves.

* **`Task`** / **`Moment`** — a part of the program and what it starts from.
* **`Machine.Begins`** — one moment directly inside another; **`Machine.Reaches`** — inside it at
  any depth.
* **`Task.Ok`** / **`Moment.Ok`** — the part obeys the rules, and every variable has a value of its
  type.
* **`Machine.Begins.ok`**, **`Machine.Reaches.ok`** — what is reached from there is such a moment.
-/

namespace SceneScript

variable {σ : Type}

/-! ## Moments -/

/-- A part of a program, with the local variables or the arguments that it begins with. -/
inductive Task where
  | eval (locals : Locals) (e : Expr)
  | condition (locals : Locals) (e : Expr)
  | evalAll (locals : Locals) (es : List Expr)
  | evalFields (locals : Locals) (fields : List (Ident × Expr))
  | callBuiltin (locals : Locals) (b : Builtin) (span : Span) (callee : Ident) (args : List Expr)
  | argumentText (locals : Locals) (span : Span) (callee : Ident) (args : List Expr)
  | call (name : Text) (args : List Value) (span : Option Span)
  | exec (locals : Locals) (st : Stmt Ty)
  | execAll (locals : Locals) (body : List (Stmt Ty))
  | execBlock (locals : Locals) (b : Block Ty)
  | execCond (locals : Locals) (c : Cond Ty)
  | execLoop (locals : Locals) (test : Expr) (body : Block Ty)

/-- The beginning of a computation: at a call depth, with fuel, in a world. -/
structure Moment (σ : Type) where
  depth : Nat
  fuel  : Nat
  task  : Task
  world : World σ

namespace Machine

/-- The second moment lies directly inside the first: the computation that begins at the first one
    asks for the one that begins at the second. -/
inductive Begins (m : Machine σ) : Moment σ → Moment σ → Prop where
  -- expressions
  | object {d n l w span object name} :
      Begins m ⟨d, n + 1, .eval l (.field span object name), w⟩ ⟨d, n, .eval l object, w⟩
  | operand {d n l w span op arg} :
      Begins m ⟨d, n + 1, .eval l (.unary span op arg), w⟩ ⟨d, n, .eval l arg, w⟩
  | left {d n l w span op left right} : ¬op.IsLogic →
      Begins m ⟨d, n + 1, .eval l (.binary span op left right), w⟩ ⟨d, n, .eval l left, w⟩
  | right {d n l w span op left right u w'} : ¬op.IsLogic → m.eval d l n left w = .ok u w' →
      Begins m ⟨d, n + 1, .eval l (.binary span op left right), w⟩ ⟨d, n, .eval l right, w'⟩
  | leftTest {d n l w span op left right} : op.IsLogic →
      Begins m ⟨d, n + 1, .eval l (.binary span op left right), w⟩ ⟨d, n, .condition l left, w⟩
  | andTest {d n l w span left right w'} : m.condition d l n left w = .ok true w' →
      Begins m ⟨d, n + 1, .eval l (.binary span .and left right), w⟩ ⟨d, n, .condition l right, w'⟩
  | orTest {d n l w span left right w'} : m.condition d l n left w = .ok false w' →
      Begins m ⟨d, n + 1, .eval l (.binary span .or left right), w⟩ ⟨d, n, .condition l right, w'⟩
  | fields {d n l w span name fields} :
      Begins m ⟨d, n + 1, .eval l (.struct span name fields), w⟩ ⟨d, n, .evalFields l fields, w⟩
  | builtin {d n l w span callee args b} : Builtin.ofText? callee.name = some b →
      Begins m ⟨d, n + 1, .eval l (.call span callee args), w⟩
        ⟨d, n, .callBuiltin l b span callee args, w⟩
  | arguments {d n l w span callee args} : Builtin.ofText? callee.name = none →
      Begins m ⟨d, n + 1, .eval l (.call span callee args), w⟩ ⟨d, n, .evalAll l args, w⟩
  | callee {d n l w span callee args values w'} : Builtin.ofText? callee.name = none →
      m.evalAll d l n args w = .ok values w' →
      Begins m ⟨d, n + 1, .eval l (.call span callee args), w⟩
        ⟨d, n, .call callee.name values (some span), w'⟩
  | truth {d n l w e} : Begins m ⟨d, n + 1, .condition l e, w⟩ ⟨d, n, .eval l e, w⟩
  | firstValue {d n l w e es} : Begins m ⟨d, n + 1, .evalAll l (e :: es), w⟩ ⟨d, n, .eval l e, w⟩
  | moreValues {d n l w e es v w'} : m.eval d l n e w = .ok v w' →
      Begins m ⟨d, n + 1, .evalAll l (e :: es), w⟩ ⟨d, n, .evalAll l es, w'⟩
  | firstField {d n l w name e rest} :
      Begins m ⟨d, n + 1, .evalFields l ((name, e) :: rest), w⟩ ⟨d, n, .eval l e, w⟩
  | moreFields {d n l w name e rest v w'} : m.eval d l n e w = .ok v w' →
      Begins m ⟨d, n + 1, .evalFields l ((name, e) :: rest), w⟩ ⟨d, n, .evalFields l rest, w'⟩
  -- calls
  | printed {d n l w span callee args} :
      Begins m ⟨d, n + 1, .callBuiltin l .print span callee args, w⟩ ⟨d, n, .evalAll l args, w⟩
  | emitted {d n l w span callee nameSpan name rest signal} : m.signal? name = some signal →
      Begins m ⟨d, n + 1, .callBuiltin l .emitSignal span callee (.string nameSpan name :: rest), w⟩
        ⟨d, n, .evalAll l rest, w⟩
  | text {d n l w b span callee args} : b = .getNode ∨ b = .hasNode ∨ b = .findChild →
      Begins m ⟨d, n + 1, .callBuiltin l b span callee args, w⟩
        ⟨d, n, .argumentText l span callee args, w⟩
  | argument {d n l w span callee e rest} :
      Begins m ⟨d, n + 1, .argumentText l span callee (e :: rest), w⟩ ⟨d, n, .eval l e, w⟩
  | body {d : Nat} {n w name args span f} : m.function? name = some f → ¬m.maxDepth ≤ d →
      Begins m ⟨d, n + 1, .call name args span, w⟩
        ⟨d + 1, n, .execAll [parameterFrame f.decl.params f.signature.params args []]
          f.decl.body.body, w⟩
  -- statements
  | block {d n l w b} : Begins m ⟨d, n + 1, .exec l (.block b), w⟩ ⟨d, n, .execBlock l b, w⟩
  | init {d n l w span name mutable declared init type} :
      Begins m ⟨d, n + 1, .exec l (.bind span name mutable declared init type), w⟩
        ⟨d, n, .eval l init, w⟩
  | value {d n l w span target op value} :
      Begins m ⟨d, n + 1, .exec l (.assign span target op value), w⟩ ⟨d, n, .eval l value, w⟩
  | cond {d n l w c} : Begins m ⟨d, n + 1, .exec l (.cond c), w⟩ ⟨d, n, .execCond l c, w⟩
  | loop {d n l w span test body} :
      Begins m ⟨d, n + 1, .exec l (.loop span test body), w⟩ ⟨d, n, .execLoop l test body, w⟩
  | result {d n l w span e} :
      Begins m ⟨d, n + 1, .exec l (.ret span (some e)), w⟩ ⟨d, n, .eval l e, w⟩
  | effect {d n l w span e} :
      Begins m ⟨d, n + 1, .exec l (.eval span e), w⟩ ⟨d, n, .eval l e, w⟩
  | first {d n l w st rest} :
      Begins m ⟨d, n + 1, .execAll l (st :: rest), w⟩ ⟨d, n, .exec l st, w⟩
  | next {d n l w st rest l' w'} : m.exec d n l st w = .ok (.next l') w' →
      Begins m ⟨d, n + 1, .execAll l (st :: rest), w⟩ ⟨d, n, .execAll l' rest, w'⟩
  | inner {d n l w span body} :
      Begins m ⟨d, n + 1, .execBlock l (.mk span body), w⟩ ⟨d, n, .execAll ([] :: l) body, w⟩
  | test {d n l w span test consequent alternate} :
      Begins m ⟨d, n + 1, .execCond l (.mk span test consequent alternate), w⟩
        ⟨d, n, .condition l test, w⟩
  | consequent {d n l w span test consequent alternate w'} :
      m.condition d l n test w = .ok true w' →
      Begins m ⟨d, n + 1, .execCond l (.mk span test consequent alternate), w⟩
        ⟨d, n, .execBlock l consequent, w'⟩
  | otherwise {d n l w span test consequent b w'} : m.condition d l n test w = .ok false w' →
      Begins m ⟨d, n + 1, .execCond l (.mk span test consequent (.block b)), w⟩
        ⟨d, n, .execBlock l b, w'⟩
  | otherwiseIf {d n l w span test consequent c w'} : m.condition d l n test w = .ok false w' →
      Begins m ⟨d, n + 1, .execCond l (.mk span test consequent (.cond c)), w⟩
        ⟨d, n, .execCond l c, w'⟩
  | again {d n l w test body} :
      Begins m ⟨d, n + 1, .execLoop l test body, w⟩ ⟨d, n, .condition l test, w⟩
  | round {d n l w test body w'} : m.condition d l n test w = .ok true w' →
      Begins m ⟨d, n + 1, .execLoop l test body, w⟩ ⟨d, n, .execBlock l body, w'⟩
  | repeated {d n l w test body w₁ l' w'} : m.condition d l n test w = .ok true w₁ →
      m.execBlock d n l body w₁ = .ok (.next l') w' →
      Begins m ⟨d, n + 1, .execLoop l test body, w⟩ ⟨d, n, .execLoop l' test body, w'⟩

/-- The second moment lies inside the first, or is the first. -/
abbrev Reaches (m : Machine σ) : Moment σ → Moment σ → Prop := Relation.ReflTransGen m.Begins

end Machine

/-! ## Rules and types -/

section

variable (m : Machine σ) (g : List Variable)

/-- An expression has a type among the local variables, which have values of their types. -/
def Locals.Types (locals : Locals) (e : Expr) : Prop :=
  ∃ scope t, locals.Sees g scope ∧ HasType (m.around true scope) e t

/-- The part obeys the rules, and what it begins with has the types that it expects. -/
def Task.Ok : Task → Prop
  | .eval l e                      => l.Types m g e
  | .condition l e                 =>
      ∃ scope, l.Sees g scope ∧ HasType (m.around true scope) e .bool
  | .evalAll l es                  => ∀ e ∈ es, l.Types m g e
  | .evalFields l fields           => ∀ x ∈ fields, l.Types m g x.2
  | .callBuiltin l b span callee args =>
      Builtin.ofText? callee.name = some b ∧ l.Types m g (.call span callee args)
  | .argumentText l _ _ args       => ∀ e ∈ args, l.Types m g e
  | .call name args _              =>
      ∃ f, m.function? name = some f ∧ ArgumentsFit args f.signature.params
  | .exec l st                     =>
      ∃ r scope scope', l.Models g scope ∧ StmtOk r (m.around true scope) st scope'
  | .execAll l body                =>
      ∃ r frame outer, l.Models g (frame :: outer) ∧ StmtsOk r (m.around true (frame :: outer)) body
  | .execBlock l b                 => ∃ r scope, l.Models g scope ∧ BlockOk r (m.around true scope) b
  | .execCond l c                  => ∃ r scope, l.Models g scope ∧ CondOk r (m.around true scope) c
  | .execLoop l test body          =>
      ∃ r scope, l.Models g scope ∧ HasType (m.around true scope) test .bool ∧
        BlockOk r (m.around true scope) body

/-- The part obeys the rules, and every variable has a value of its type. -/
structure Moment.Ok (x : Moment σ) : Prop where
  task  : x.task.Ok m g
  world : x.world.globals.Matches g

end

variable {m : Machine σ} {g : List Variable} {R : Changes σ}

/-- The arguments of a call have types. -/
theorem HasType.arguments {s : Surroundings} {span : Span} {callee : Ident} {args : List Expr}
    {t : Ty} (h : HasType s (.call span callee args) t) : ∀ e ∈ args, ∃ u, HasType s e u := by
  cases h with
  | print _ _ _ _ hargs => exact hargs.typed
  | emit _ _ nameSpan name rest _ _ _ hargs =>
      exact List.forall_mem_cons.mpr ⟨⟨_, .string nameSpan name⟩, hargs.typed⟩
  | builtin _ _ _ _ _ _ _ hargs => exact hargs.typed
  | call _ _ _ _ _ _ _ hargs => exact hargs.typed

/-- The operands of an operator that evaluates both have types. -/
theorem HasType.operands {s : Surroundings} {span : Span} {op : BinaryOp} {left right : Expr}
    {t : Ty} (h : HasType s (.binary span op left right) t) :
    ∃ l r, HasType s left l ∧ HasType s right r ∧ (op.IsLogic → l = .bool ∧ r = .bool) := by
  cases h with
  | concat _ _ _ hl hr =>
      exact ⟨_, _, hl, hr, fun h => absurd h (BinaryOp.IsArithmetic.not_isLogic (.inl rfl))⟩
  | arithmetic _ _ _ _ l r hop hl hr => exact ⟨l, r, hl, hr, fun h => absurd h hop.not_isLogic⟩
  | order _ _ _ _ l r hop hl hr => exact ⟨l, r, hl, hr, fun h => absurd h hop.not_isLogic⟩
  | equality _ _ _ _ l r hop hl hr => exact ⟨l, r, hl, hr, fun h => absurd h hop.not_isLogic⟩
  | logic _ _ _ _ _ hl hr => exact ⟨_, _, hl, hr, fun _ => ⟨rfl, rfl⟩⟩

namespace Machine

/-- A moment directly inside one that obeys the rules obeys them, one case for every way to begin.
    What runs before it leaves a world in which every variable has a value of its type. -/
theorem Begins.ok (hm : m.Ready g true R) {x y : Moment σ} (h : m.Begins x y) (hx : x.Ok m g) :
    y.Ok m g := by
  obtain ⟨htask, hg⟩ := hx
  cases h with
  | object =>
      obtain ⟨scope, t, hs, he⟩ := htask
      cases he with
      | field _ _ _ u _ hobject _ => exact ⟨⟨scope, u, hs, hobject⟩, hg⟩
  | operand =>
      obtain ⟨scope, t, hs, he⟩ := htask
      cases he with
      | neg _ _ _ harg _ => exact ⟨⟨scope, _, hs, harg⟩, hg⟩
      | not _ _ harg => exact ⟨⟨scope, _, hs, harg⟩, hg⟩
  | left _ =>
      obtain ⟨scope, t, hs, he⟩ := htask
      obtain ⟨u, -, hleft, -, -⟩ := he.operands
      exact ⟨⟨scope, u, hs, hleft⟩, hg⟩
  | right _ hrun =>
      obtain ⟨scope, t, hs, he⟩ := htask
      obtain ⟨u, v, hleft, hright, -⟩ := he.operands
      exact ⟨⟨scope, v, hs, hright⟩, (((soundAt hm _).eval hleft hs hg).of_ok hrun).1⟩
  | leftTest hop =>
      obtain ⟨scope, t, hs, he⟩ := htask
      obtain ⟨u, v, hleft, -, hbool⟩ := he.operands
      exact ⟨⟨scope, hs, (hbool hop).1 ▸ hleft⟩, hg⟩
  | andTest hrun =>
      obtain ⟨scope, t, hs, he⟩ := htask
      obtain ⟨u, v, hleft, hright, hbool⟩ := he.operands
      obtain ⟨rfl, rfl⟩ := hbool (.inl rfl)
      exact ⟨⟨scope, hs, hright⟩, (((soundAt hm _).condition hleft hs hg).of_ok hrun).1⟩
  | orTest hrun =>
      obtain ⟨scope, t, hs, he⟩ := htask
      obtain ⟨u, v, hleft, hright, hbool⟩ := he.operands
      obtain ⟨rfl, rfl⟩ := hbool (.inr rfl)
      exact ⟨⟨scope, hs, hright⟩, (((soundAt hm _).condition hleft hs hg).of_ok hrun).1⟩
  | fields =>
      obtain ⟨scope, t, hs, he⟩ := htask
      cases he with
      | struct _ _ _ _ _ _ hfields _ =>
          refine ⟨fun y hy => ?_, hg⟩
          obtain ⟨u, hu⟩ := hfields.typed y hy
          exact ⟨scope, u, hs, hu⟩
  | builtin hb => exact ⟨⟨hb, htask⟩, hg⟩
  | arguments _ =>
      obtain ⟨scope, t, hs, he⟩ := htask
      refine ⟨fun e hmem => ?_, hg⟩
      obtain ⟨u, hu⟩ := he.arguments e hmem
      exact ⟨scope, u, hs, hu⟩
  | callee hb hrun =>
      obtain ⟨scope, t, hs, he⟩ := htask
      cases he with
      | print _ _ _ hb' _ => cases hb.symm.trans hb'
      | emit _ _ _ _ _ _ hb' _ _ => cases hb.symm.trans hb'
      | builtin _ _ _ _ _ hb' _ _ => cases hb.symm.trans hb'
      | call _ _ _ f _ hf _ hargs =>
          rw [around_function?] at hf
          obtain ⟨info, hinfo, rfl⟩ := Option.map_eq_some_iff.mp hf
          obtain ⟨hg', hfit⟩ := ((soundAt hm _).evalAll hargs hs hg).of_ok hrun
          exact ⟨⟨info, hinfo, hfit⟩, hg'⟩
  | truth =>
      obtain ⟨scope, hs, he⟩ := htask
      exact ⟨⟨scope, .bool, hs, he⟩, hg⟩
  | firstValue => exact ⟨htask _ List.mem_cons_self, hg⟩
  | moreValues hrun =>
      obtain ⟨scope, t, hs, he⟩ := htask _ List.mem_cons_self
      exact ⟨fun e hmem => htask e (List.mem_cons_of_mem _ hmem),
        (((soundAt hm _).eval he hs hg).of_ok hrun).1⟩
  | firstField => exact ⟨htask _ List.mem_cons_self, hg⟩
  | moreFields hrun =>
      obtain ⟨scope, t, hs, he⟩ := htask _ List.mem_cons_self
      exact ⟨fun e hmem => htask e (List.mem_cons_of_mem _ hmem),
        (((soundAt hm _).eval he hs hg).of_ok hrun).1⟩
  | printed =>
      obtain ⟨-, scope, t, hs, he⟩ := htask
      refine ⟨fun e hmem => ?_, hg⟩
      obtain ⟨u, hu⟩ := he.arguments e hmem
      exact ⟨scope, u, hs, hu⟩
  | emitted _ =>
      obtain ⟨-, scope, t, hs, he⟩ := htask
      refine ⟨fun e hmem => ?_, hg⟩
      obtain ⟨u, hu⟩ := he.arguments e (List.mem_cons_of_mem _ hmem)
      exact ⟨scope, u, hs, hu⟩
  | text _ =>
      obtain ⟨-, scope, t, hs, he⟩ := htask
      refine ⟨fun e hmem => ?_, hg⟩
      obtain ⟨u, hu⟩ := he.arguments e hmem
      exact ⟨scope, u, hs, hu⟩
  | argument => exact ⟨htask _ List.mem_cons_self, hg⟩
  | body hf _ =>
      obtain ⟨f', hf', hfit⟩ := htask
      cases hf.symm.trans hf'
      have hwt := hm.functions rfl _ (List.mem_of_find?_eq_some hf)
      have hframe := parameterFrame_matches _ _ _ [] [] Bindings.matches_nil hwt.arity hfit
        hwt.nodup fun _ _ => rfl
      exact ⟨⟨_, _, _, .body hframe, hwt.body⟩, hg⟩
  | block =>
      obtain ⟨r, scope, scope', hl, hst⟩ := htask
      cases hst with
      | block _ _ hb => exact ⟨⟨r, scope, hl, hb⟩, hg⟩
  | init =>
      obtain ⟨r, scope, scope', hl, hst⟩ := htask
      cases hst with
      | bind _ _ _ _ _ _ t _ _ hinit => exact ⟨⟨scope, t, hl.sees, hinit⟩, hg⟩
  | value =>
      obtain ⟨r, scope, scope', hl, hst⟩ := htask
      cases hst with
      | assign _ _ _ _ _ _ found _ hvalue => exact ⟨⟨scope, found, hl.sees, hvalue⟩, hg⟩
  | cond =>
      obtain ⟨r, scope, scope', hl, hst⟩ := htask
      cases hst with
      | cond _ _ hc => exact ⟨⟨r, scope, hl, hc⟩, hg⟩
  | loop =>
      obtain ⟨r, scope, scope', hl, hst⟩ := htask
      cases hst with
      | loop _ _ _ _ htest hbody => exact ⟨⟨r, scope, hl, htest, hbody⟩, hg⟩
  | result =>
      obtain ⟨r, scope, scope', hl, hst⟩ := htask
      cases hst with
      | ret _ _ _ t he => exact ⟨⟨scope, t, hl.sees, he⟩, hg⟩
  | effect =>
      obtain ⟨r, scope, scope', hl, hst⟩ := htask
      cases hst with
      | eval _ _ _ t he => exact ⟨⟨scope, t, hl.sees, he⟩, hg⟩
  | first =>
      obtain ⟨r, frame, outer, hl, hbody⟩ := htask
      cases hbody with
      | cons _ _ _ scope' hst _ => exact ⟨⟨r, _, scope', hl, hst⟩, hg⟩
  | next hrun =>
      obtain ⟨r, frame, outer, hl, hbody⟩ := htask
      cases hbody with
      | cons _ _ _ scope' hst hrest =>
          obtain ⟨frame', rfl⟩ := SoundAt.scope_after hst rfl
          obtain ⟨hg', hflow⟩ := ((soundAt hm _).exec rfl hst hl hg).of_ok hrun
          exact ⟨⟨r, frame', outer, hflow, hrest⟩, hg'⟩
  | inner =>
      obtain ⟨r, scope, hl, hb⟩ := htask
      cases hb with
      | mk _ _ _ hbody => exact ⟨⟨r, [], scope, .inner Bindings.matches_nil hl, hbody⟩, hg⟩
  | test =>
      obtain ⟨r, scope, hl, hc⟩ := htask
      cases hc with
      | mk _ _ _ _ _ htest _ _ => exact ⟨⟨scope, hl.sees, htest⟩, hg⟩
  | consequent hrun =>
      obtain ⟨r, scope, hl, hc⟩ := htask
      cases hc with
      | mk _ _ _ _ _ htest hthen _ =>
          exact ⟨⟨r, scope, hl, hthen⟩, (((soundAt hm _).condition htest hl.sees hg).of_ok hrun).1⟩
  | otherwise hrun =>
      obtain ⟨r, scope, hl, hc⟩ := htask
      cases hc with
      | mk _ _ _ _ _ htest _ helse =>
          cases helse with
          | block _ _ hb =>
              exact ⟨⟨r, scope, hl, hb⟩, (((soundAt hm _).condition htest hl.sees hg).of_ok hrun).1⟩
  | otherwiseIf hrun =>
      obtain ⟨r, scope, hl, hc⟩ := htask
      cases hc with
      | mk _ _ _ _ _ htest _ helse =>
          cases helse with
          | cond _ _ hcond =>
              exact ⟨⟨r, scope, hl, hcond⟩,
                (((soundAt hm _).condition htest hl.sees hg).of_ok hrun).1⟩
  | again =>
      obtain ⟨r, scope, hl, htest, -⟩ := htask
      exact ⟨⟨scope, hl.sees, htest⟩, hg⟩
  | round hrun =>
      obtain ⟨r, scope, hl, htest, hbody⟩ := htask
      exact ⟨⟨r, scope, hl, hbody⟩, (((soundAt hm _).condition htest hl.sees hg).of_ok hrun).1⟩
  | repeated htrue hrun =>
      obtain ⟨r, scope, hl, htest, hbody⟩ := htask
      have hg₁ := (((soundAt hm _).condition htest hl.sees hg).of_ok htrue).1
      obtain ⟨hg', hflow⟩ := ((soundAt hm _).execBlock rfl hbody hl hg₁).of_ok hrun
      exact ⟨⟨r, scope, hflow, htest, hbody⟩, hg'⟩

/-- Every moment of a run that begins by the rules obeys them. -/
theorem Reaches.ok (hm : m.Ready g true R) {x y : Moment σ} (h : m.Reaches x y) (hx : x.Ok m g) :
    y.Ok m g := by
  induction h with
  | refl => exact hx
  | tail _ hstep ih => exact hstep.ok hm ih

end Machine

end SceneScript
