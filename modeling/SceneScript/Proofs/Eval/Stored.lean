import SceneScript.Proofs.Eval.Moments
import SceneScript.Proofs.Eval.Paths
import SceneScript.Proofs.Eval.Storing

/-!
# Floats have single precision

Every operation that makes a float rounds it to single precision, and reading a field of a value or
of a node rounds it as well. So a float in a variable, an argument or a result has single precision,
as long as the values that come from outside have: to keep it in a field changes nothing.

* **`Value.IsStored`** — a value that a field keeps as it is.
* **`Stores`** — a computation that keeps floats in single precision.
* **`Machine.StoresAt`**, **`Machine.storesAt`** — every part of the evaluator, by induction.
* **`Machine.Reaches.stored`** — every moment of a run.
-/

namespace SceneScript

variable {σ α β : Type}

/-! ## Values -/

/-- A field keeps the value as it is. -/
def Value.IsStored (v : Value) : Prop := v.stored = v

namespace Value

theorem isStored_ofFloat (x : Binary64) : (ofFloat x).IsStored :=
  congrArg Value.float (Binary64.toSingle_toSingle x)

theorem isStored_of_type {v : Value} (h : v.type ≠ .f32) : v.IsStored := by
  cases v <;> first | rfl | exact absurd rfl h

theorem IsStored.coerce? {v u : Value} {t : Ty} (h : v.IsStored) (hc : v.coerce? t = some u) :
    u.IsStored := by
  unfold Value.coerce? at hc
  split at hc
  · cases hc
    exact h
  · split at hc
    · cases hc
      exact isStored_ofFloat _
    · cases hc

theorem IsStored.coerceOrKeep {v : Value} (h : v.IsStored) (t : Ty) :
    (v.coerceOrKeep t).IsStored := by
  rw [Value.coerceOrKeep]
  cases hc : v.coerce? t with
  | some u => exact h.coerce? hc
  | none => exact h

/-- Whatever is read from a field is as a field keeps it. -/
theorem isStored_get? {v u : Value} {f : Field} (h : v.get? f = some u) : u.IsStored := by
  unfold get? at h
  split at h <;> cases h <;> first | rfl | exact isStored_ofFloat _

theorem isStored_getNamed? {v u : Value} {name : Text} (h : v.getNamed? name = some u) :
    u.IsStored := by
  obtain ⟨f, -, hf⟩ := Option.bind_eq_some_iff.mp h
  exact isStored_get? hf

/-- No float has fields. -/
theorem isStored_setNamed? {v next u : Value} {name : Text} (h : v.setNamed? name next = some u) :
    u.IsStored := by
  obtain ⟨f, -, hf⟩ := Option.bind_eq_some_iff.mp h
  refine isStored_of_type fun ht => ?_
  unfold set? at hf
  split at hf
  all_goals
    first
    | cases hf
    | obtain ⟨x, -, rfl⟩ := Option.map_eq_some_iff.mp hf
      cases ht
    | split at hf <;> cases hf
      cases ht

theorem isStored_build? {t : Ty} {fields : List (Text × Value)} {v : Value}
    (h : build? t fields = some v) : v.IsStored := by
  refine isStored_of_type fun ht => ?_
  cases t <;> simp only [build?, Option.bind_eq_bind, Option.bind_eq_some_iff] at h
  all_goals
    first
    | obtain ⟨_, -, _, -, _, -, _, -, h⟩ := h
      cases h
      cases ht
    | obtain ⟨_, -, _, -, _, -, h⟩ := h
      cases h
      cases ht
    | obtain ⟨_, -, _, -, h⟩ := h
      cases h
      cases ht
    | cases h

end Value

theorem isStored_applyUnary {op : UnaryOp} {v u : Value} (h : applyUnary op v = .ok u) :
    u.IsStored := by
  unfold applyUnary at h
  split at h <;> cases h <;> first | rfl | exact Value.isStored_ofFloat _

theorem isStored_applyBinary {op : BinaryOp} {l r u : Value} (h : applyBinary op l r = .ok u) :
    u.IsStored := by
  have hints : ∀ {m n : Int32}, applyInts op m n = .ok u → u.IsStored := by
    intro m n h
    unfold applyInts at h
    split at h
    all_goals
      first
      | cases h
        rfl
      | split at h <;> cases h
        rfl
      | cases h
  have hfloats : ∀ {x y : Binary64} {s t : Ty}, applyFloats op s t x y = .ok u → u.IsStored := by
    intro x y s t h
    unfold applyFloats at h
    split at h <;> cases h <;> first | rfl | exact Value.isStored_ofFloat _
  unfold applyBinary at h
  split at h
  · exact hints h
  · split at h <;> cases h
    rfl
  · split at h
    · exact hfloats h
    · cases h

/-! ## Variables -/

/-- A field keeps every value of the frame as it is. -/
def Bindings.Stored (b : Bindings) : Prop := ∀ name v, b.find? name = some v → v.IsStored

/-- A field keeps every value of the frames as it is. -/
def Locals.Stored (locals : Locals) : Prop := ∀ b ∈ locals, b.Stored

theorem Bindings.stored_nil : Bindings.Stored [] := fun _ _ h => by cases h

theorem Bindings.Stored.set {b : Bindings} (h : b.Stored) (name : Text) {v : Value}
    (hv : v.IsStored) : (b.set name v).Stored := by
  intro n u hu
  rw [find?_set] at hu
  split at hu
  · cases hu
    exact hv
  · exact h n u hu

namespace Locals.Stored

variable {locals : Locals} {b : Bindings}

theorem cons (hb : b.Stored) (h : locals.Stored) : Stored (b :: locals) := by
  intro x hx
  rcases List.mem_cons.mp hx with rfl | hx
  · exact hb
  · exact h x hx

theorem tail (h : locals.Stored) : Locals.Stored locals.tail :=
  fun b hb => h b (List.mem_of_mem_tail hb)

theorem declare (h : locals.Stored) (name : Text) {v : Value} (hv : v.IsStored) :
    (locals.declare name v).Stored := by
  cases locals with
  | nil => exact cons (Bindings.stored_nil.set name hv) h
  | cons b locals =>
      exact cons ((h b List.mem_cons_self).set name hv) fun x hx => h x (List.mem_cons_of_mem b hx)

theorem find? (h : locals.Stored) {name : Text} {v : Value} (hv : locals.find? name = some v) :
    v.IsStored := by
  obtain ⟨b, hb, hbv⟩ := List.exists_of_findSome?_eq_some hv
  exact h b hb name v hbv

theorem assign? {name : Text} {v : Value} (hv : v.IsStored) :
    ∀ {locals changed : Locals}, locals.Stored → locals.assign? name v = some changed →
      changed.Stored
  | [], _, _, h => by cases h
  | b :: locals, _, hl, h => by
      have hb := hl b List.mem_cons_self
      have hrest : Stored locals := fun x hx => hl x (List.mem_cons_of_mem b hx)
      rw [Locals.assign?] at h
      split at h
      · cases h
        exact cons (hb.set name hv) hrest
      · obtain ⟨changed, hchanged, rfl⟩ := Option.map_eq_some_iff.mp h
        exact cons hb (assign? hv hrest hchanged)

end Locals.Stored

theorem stored_parameterFrame (params : List Param) :
    ∀ (types : List TypedName) (args : List Value) (frame : Bindings),
      (∀ v ∈ args, v.IsStored) → frame.Stored →
      (Machine.parameterFrame params types args frame).Stored := by
  induction params with
  | nil => exact fun _ _ _ _ hframe => hframe
  | cons p params ih =>
      intro types args frame hargs hframe
      refine ih _ _ _ (fun v hv => hargs v (List.mem_of_mem_tail hv)) (hframe.set _ ?_)
      cases args with
      | nil => exact Value.IsStored.coerceOrKeep (v := .void) rfl _
      | cons v args => exact (hargs v List.mem_cons_self).coerceOrKeep _

/-! ## Computations -/

/-- The globals stay as fields keep them, and a result satisfies `Q`. -/
def Stores (x : Eval σ α) (Q : α → Prop) : Prop := ∀ w, w.globals.Stored →
  Ends x w (fun a w' => w'.globals.Stored ∧ Q a) (fun _ w' => w'.globals.Stored)

theorem Stores.of_ok {x : Eval σ α} {Q : α → Prop} (h : Stores x Q) {w w' : World σ} {a : α}
    (hw : w.globals.Stored) (hx : x w = .ok a w') : w'.globals.Stored ∧ Q a :=
  (ends_of_ok hx).mp (h w hw)

theorem Stores.mono {x : Eval σ α} {Q Q' : α → Prop} (h : Stores x Q) (hQ : ∀ a, Q a → Q' a) :
    Stores x Q' := fun w hw => (h w hw).mono (fun a _ ha => ⟨ha.1, hQ a ha.2⟩) fun _ _ he => he

theorem Stores.bind {x : Eval σ α} {f : α → Eval σ β} {Q : α → Prop} {Q' : β → Prop}
    (hx : Stores x Q) (hf : ∀ a, Q a → Stores (f a) Q') : Stores (x >>= f) Q' := fun w hw =>
  ends_bind.mpr ((hx w hw).mono (fun a w' ha => hf a ha.2 w' ha.1) fun _ _ he => he)

theorem stores_pure {a : α} {Q : α → Prop} (h : Q a) : Stores (pure a : Eval σ α) Q :=
  fun _ hw => ⟨hw, h⟩

theorem stores_raise {cause : FaultCause} {span : Option Span} {Q : α → Prop} :
    Stores (Eval.raise cause span : Eval σ α) Q := fun _ hw => hw

theorem stores_outOfFuel {Q : α → Prop} : Stores (throw .outOfFuel : Eval σ α) Q := fun _ hw => hw

theorem stores_ofHost {call : HostCall σ α} {Q : α → Prop}
    (h : ∀ s a s', call s = .ok a s' → Q a) : Stores (Eval.ofHost call) Q := by
  intro w hw
  rw [Ends, Eval.ofHost]
  cases hcall : call w.host with
  | ok a s => exact ⟨hw, h _ _ _ hcall⟩
  | error e s => exact hw

theorem stores_inFunction {name : Text} {x : Eval σ α} {Q : α → Prop} (h : Stores x Q) :
    Stores (Eval.inFunction name x) Q := by
  intro w hw
  have hx := h w hw
  rw [Ends, Eval.inFunction] at *
  cases hrun : x w with
  | ok a w' => simpa [hrun] using hx
  | error e w' =>
      rw [hrun] at hx
      cases e <;> exact hx

/-- Fields of nodes are read as fields keep them. -/
def Host.ReadsStored (host : Host σ) : Prop :=
  ∀ ref field s v s', host.getProperty ref field s = .ok v s' → v.IsStored

/-- What a statement leads to: locals, or a value that is returned. -/
def Flow.Stored : Flow → Prop
  | .next locals => locals.Stored
  | .returned v  => v.IsStored

namespace Machine

variable {m : Machine σ} {locals : Locals}

theorem stores_settle {span : Span} {r : Except FaultCause Value}
    (h : ∀ v, r = .ok v → v.IsStored) : Stores (settle span r : Eval σ Value) Value.IsStored := by
  cases r with
  | ok v => exact stores_pure (h v rfl)
  | error cause => exact stores_raise

theorem stores_checkAlive (m : Machine σ) (ref : NodeRef) (span : Span) :
    Stores (m.checkAlive ref span) fun _ => True := by
  refine Stores.bind (Q := fun _ => True) (stores_ofHost fun _ _ _ _ => trivial) fun b _ => ?_
  cases b
  · exact stores_raise
  · exact stores_pure trivial

theorem stores_found {span : Span} {cause : FaultCause} (r : Option NodeRef) :
    Stores (found span cause r : Eval σ Value) Value.IsStored := by
  cases r with
  | none => exact stores_raise
  | some ref => exact stores_pure rfl

theorem stores_lookup (hl : locals.Stored) (id : Ident) :
    Stores (lookup locals id : Eval σ Value) Value.IsStored := by
  intro w hw
  rw [lookup, ends_bind, ends_get]
  cases hv : (locals.find? id.name).or (w.globals.find? id.name) with
  | none => exact hw
  | some v =>
      refine ⟨hw, ?_⟩
      rcases Option.or_eq_some_iff.mp hv with h | ⟨-, h⟩
      · exact hl.find? h
      · exact hw _ _ h

theorem stores_readField (hm : m.host.ReadsStored) (base : Value) (span : Span) (field : Ident) :
    Stores (m.readField base span field) Value.IsStored := by
  unfold readField
  split
  · split
    · exact stores_raise
    · refine (stores_checkAlive m _ span).bind fun _ _ => stores_ofHost ?_
      exact fun s v s' h => hm _ _ _ _ _ h
  · split
    · next hget => exact stores_pure (Value.isStored_getNamed? hget)
    · exact stores_raise

variable {rhs : Value} {op : AssignOp} {span : Span}

theorem stores_binary (span : Span) (op : BinaryOp) (l r : Value) :
    Stores (m.binary span op l r) Value.IsStored := by
  rcases binary_cases span op l r with ⟨a, b, answer, hask⟩ | ⟨result, -, hvalue, hknown⟩
  · rw [hask]
    refine Stores.bind (Q := fun _ => True) (stores_ofHost fun _ _ _ _ => trivial) fun _ _ => ?_
    exact stores_pure rfl
  · rw [hknown]
    refine stores_settle fun v hv => ?_
    rcases hvalue v hv with h | ⟨b, rfl⟩
    · exact isStored_applyBinary h
    · rfl

theorem stores_combine (hr : rhs.IsStored) (old : Value) :
    Stores (m.combine old rhs op span) Value.IsStored := by
  unfold combine
  split
  · exact stores_pure (hr.coerceOrKeep _)
  · refine (stores_binary span _ old rhs).bind fun v hv => ?_
    exact stores_pure (hv.coerceOrKeep _)

theorem stores_writePath (hr : rhs.IsStored) (path : List Text) :
    ∀ base : Value, Stores (m.writePath rhs op span base path) Value.IsStored := by
  induction path with
  | nil =>
      intro base
      unfold writePath
      exact stores_raise
  | cons name rest ih =>
      intro base
      have hnext : ∀ old, Stores (m.nextValue rhs op span old rest) Value.IsStored := by
        intro old
        cases rest with
        | nil => exact stores_combine hr old
        | cons _ _ => exact ih old
      by_cases hn : base.type = .node
      · cases base <;> cases hn
        rename_i ref
        cases hf : NodeField.ofText? name with
        | none =>
            unfold writePath
            simp only [hf]
            exact stores_raise
        | some field =>
            rw [writePath_node hf]
            refine (stores_checkAlive m ref span).bind fun _ _ => ?_
            refine Stores.bind (Q := fun _ => True) (stores_ofHost fun _ _ _ _ => trivial) ?_
            refine fun old _ => (hnext old).bind fun next _ => ?_
            refine Stores.bind (Q := fun _ => True) (stores_ofHost fun _ _ _ _ => trivial) ?_
            exact fun _ _ => stores_pure rfl
      · cases hold : base.getNamed? name with
        | none =>
            rw [writePath_missing hn hold]
            exact stores_raise
        | some old =>
            rw [writePath_value hn hold]
            refine (hnext old).bind fun next _ => ?_
            split
            · next hset => exact stores_pure (Value.isStored_setNamed? hset)
            · exact stores_raise

theorem stores_store (hl : locals.Stored) (name : Text) {v : Value} (hv : v.IsStored) :
    Stores (store locals name v : Eval σ Locals) Locals.Stored := by
  intro w hw
  rw [Ends, store_run]
  cases hassign : locals.assign? name v with
  | some changed => exact ⟨hw, Locals.Stored.assign? hv hl hassign⟩
  | none => exact ⟨hw.set name hv, hl⟩

theorem stores_assign (hl : locals.Stored) (hr : rhs.IsStored) (target : AssignTarget) :
    Stores (m.assign locals span target op rhs) Locals.Stored := by
  obtain ⟨place, root, path⟩ := target
  cases root with
  | self _ => exact (stores_writePath hr _ _).bind fun _ _ => stores_pure hl
  | name id =>
      refine (stores_lookup hl id).bind fun current _ => ?_
      cases path with
      | nil => exact (stores_combine hr current).bind fun next hnext => stores_store hl _ hnext
      | cons name rest =>
          exact (stores_writePath hr _ current).bind fun next hnext => stores_store hl _ hnext

theorem stores_conclude (f : FunctionInfo) {flow : Flow} (h : flow.Stored) :
    Stores (conclude f flow : Eval σ Value) Value.IsStored := by
  cases flow with
  | returned v =>
      rw [conclude]
      split
      · exact stores_pure rfl
      · exact stores_pure (Value.IsStored.coerceOrKeep h _)
  | next locals =>
      rw [conclude]
      split
      · exact stores_pure rfl
      · exact stores_raise

/-! ## The evaluator -/

/-- Every part of the evaluator keeps floats in single precision, at one amount of fuel. -/
structure StoresAt (m : Machine σ) (fuel : Nat) : Prop where
  eval : ∀ depth {locals : Locals} e, locals.Stored →
    Stores (m.eval depth locals fuel e) Value.IsStored
  condition : ∀ depth {locals : Locals} e, locals.Stored →
    Stores (m.condition depth locals fuel e) fun _ => True
  evalAll : ∀ depth {locals : Locals} es, locals.Stored →
    Stores (m.evalAll depth locals fuel es) fun vs => ∀ v ∈ vs, v.IsStored
  evalFields : ∀ depth {locals : Locals} fields, locals.Stored →
    Stores (m.evalFields depth locals fuel fields) fun _ => True
  callBuiltin : ∀ depth {locals : Locals} b span callee args, locals.Stored →
    Stores (m.callBuiltin depth locals fuel b span callee args) Value.IsStored
  argumentText : ∀ depth {locals : Locals} span callee args, locals.Stored →
    Stores (m.argumentText depth locals fuel span callee args) fun _ => True
  call : ∀ depth name args span, (∀ v ∈ args, v.IsStored) →
    Stores (m.call depth fuel name args span) Value.IsStored
  exec : ∀ depth {locals : Locals} st, locals.Stored →
    Stores (m.exec depth fuel locals st) Flow.Stored
  execAll : ∀ depth {locals : Locals} body, locals.Stored →
    Stores (m.execAll depth fuel locals body) Flow.Stored
  execBlock : ∀ depth {locals : Locals} b, locals.Stored →
    Stores (m.execBlock depth fuel locals b) Flow.Stored
  execCond : ∀ depth {locals : Locals} c, locals.Stored →
    Stores (m.execCond depth fuel locals c) Flow.Stored
  execLoop : ∀ depth {locals : Locals} test body, locals.Stored →
    Stores (m.execLoop depth fuel locals test body) Flow.Stored

namespace StoresAt

variable {fuel : Nat}

theorem zero (m : Machine σ) : StoresAt m 0 where
  eval _ _ _ _             := stores_outOfFuel
  condition _ _ _ _        := stores_outOfFuel
  evalAll _ _ _ _          := stores_outOfFuel
  evalFields _ _ _ _       := stores_outOfFuel
  callBuiltin _ _ _ _ _ _ _ := stores_outOfFuel
  argumentText _ _ _ _ _ _ := stores_outOfFuel
  call _ _ _ _ _           := stores_outOfFuel
  exec _ _ _ _             := stores_outOfFuel
  execAll _ _ _ _          := stores_outOfFuel
  execBlock _ _ _ _        := stores_outOfFuel
  execCond _ _ _ _         := stores_outOfFuel
  execLoop _ _ _ _ _       := stores_outOfFuel

variable (ih : StoresAt m fuel) (depth : Nat) (hl : locals.Stored)

include ih

section Expressions

include hl

theorem binary_succ (span : Span) (op : BinaryOp) (left right : Expr) :
    Stores (m.eval depth locals (fuel + 1) (.binary span op left right)) Value.IsStored := by
  by_cases hop : op.IsLogic
  · rcases hop with rfl | rfl
    all_goals
      refine (ih.condition depth left hl).bind fun b _ => ?_
      cases b
    · exact stores_pure rfl
    · exact (ih.condition depth right hl).bind fun _ _ => stores_pure rfl
    · exact (ih.condition depth right hl).bind fun _ _ => stores_pure rfl
    · exact stores_pure rfl
  · rw [eval_operator hop]
    refine (ih.eval depth left hl).bind fun l _ => (ih.eval depth right hl).bind fun r _ => ?_
    exact stores_binary span op l r

theorem eval_succ (hm : m.host.ReadsStored) (e : Expr) :
    Stores (m.eval depth locals (fuel + 1) e) Value.IsStored := by
  cases e with
  | int _ _ _ => exact stores_pure rfl
  | float _ x _ => exact stores_pure (Value.isStored_ofFloat x)
  | bool _ _ => exact stores_pure rfl
  | string _ _ => exact stores_pure rfl
  | ident id => exact stores_lookup hl id
  | self _ => exact stores_pure rfl
  | field span object name =>
      exact (ih.eval depth object hl).bind fun base _ => stores_readField hm base span name
  | unary span op arg =>
      exact (ih.eval depth arg hl).bind fun v _ => stores_settle fun u hu => isStored_applyUnary hu
  | binary span op left right => exact ih.binary_succ depth hl span op left right
  | struct span name fields =>
      refine (ih.evalFields depth fields hl).bind fun values _ => ?_
      split
      · next hbuild =>
          obtain ⟨t, -, ht⟩ := Option.bind_eq_some_iff.mp hbuild
          exact stores_pure (Value.isStored_build? ht)
      · exact stores_raise
  | call span callee args =>
      rw [Machine.eval]
      split
      · exact ih.callBuiltin depth _ span callee args hl
      · refine (ih.evalAll depth args hl).bind fun values hvalues => ?_
        exact ih.call depth callee.name values (some span) hvalues

theorem condition_succ (e : Expr) :
    Stores (m.condition depth locals (fuel + 1) e) fun _ => True := by
  refine (ih.eval depth e hl).bind fun v _ => ?_
  split
  · exact stores_pure trivial
  · exact stores_raise

theorem evalAll_succ (es : List Expr) :
    Stores (m.evalAll depth locals (fuel + 1) es) fun vs => ∀ v ∈ vs, v.IsStored := by
  cases es with
  | nil => exact stores_pure fun _ h => absurd h List.not_mem_nil
  | cons e es =>
      refine (ih.eval depth e hl).bind fun v hv => (ih.evalAll depth es hl).bind fun vs hvs => ?_
      refine stores_pure fun u hu => ?_
      rcases List.mem_cons.mp hu with rfl | hu
      · exact hv
      · exact hvs u hu

theorem evalFields_succ (fields : List (Ident × Expr)) :
    Stores (m.evalFields depth locals (fuel + 1) fields) fun _ => True := by
  cases fields with
  | nil => exact stores_pure trivial
  | cons x rest =>
      refine (ih.eval depth x.2 hl).bind fun v _ => (ih.evalFields depth rest hl).bind fun vs _ => ?_
      exact stores_pure trivial

theorem argumentText_succ (span : Span) (callee : Ident) (args : List Expr) :
    Stores (m.argumentText depth locals (fuel + 1) span callee args) fun _ => True := by
  cases args with
  | nil => exact stores_raise
  | cons e rest =>
      refine (ih.eval depth e hl).bind fun v _ => ?_
      cases v <;> first | exact stores_pure trivial | exact stores_raise

theorem callBuiltin_succ (b : Builtin) (span : Span) (callee : Ident) (args : List Expr) :
    Stores (m.callBuiltin depth locals (fuel + 1) b span callee args) Value.IsStored := by
  -- What the host is asked does not matter, since no float comes back.
  have asks : ∀ {γ : Type} {call : HostCall σ γ} {f : γ → Eval σ Value},
      (∀ a, Stores (f a) Value.IsStored) → Stores (do
        m.checkAlive m.self span
        let a ← Eval.ofHost call
        f a) Value.IsStored := by
    intro γ call f hf
    refine (stores_checkAlive m m.self span).bind fun _ _ => ?_
    exact Stores.bind (Q := fun _ => True) (stores_ofHost fun _ _ _ _ => trivial) fun a _ => hf a
  cases b with
  | print =>
      refine (ih.evalAll depth args hl).bind fun vs _ => ?_
      refine Stores.bind (Q := fun _ => True) (stores_ofHost fun _ _ _ _ => trivial) fun _ _ => ?_
      exact stores_pure rfl
  | emitSignal =>
      simp only [Machine.callBuiltin]
      split
      · split
        · exact stores_raise
        · refine (ih.evalAll depth _ hl).bind fun vs _ => asks fun _ => stores_pure rfl
      · exact stores_raise
  | getParent => exact asks stores_found
  | getNode => exact (ih.argumentText depth span callee args hl).bind fun _ _ => asks stores_found
  | hasNode =>
      refine (ih.argumentText depth span callee args hl).bind fun _ _ => ?_
      exact asks fun _ => stores_pure rfl
  | findChild => exact (ih.argumentText depth span callee args hl).bind fun _ _ => asks stores_found

end Expressions

theorem call_succ (name : Text) (args : List Value) (span : Option Span)
    (hargs : ∀ v ∈ args, v.IsStored) :
    Stores (m.call depth (fuel + 1) name args span) Value.IsStored := by
  rw [Machine.call]
  split
  · exact stores_raise
  · split
    · exact stores_raise
    · refine stores_inFunction ((ih.execAll (depth + 1) _ ?_).bind fun flow hflow => ?_)
      · refine .cons ?_ fun _ h => absurd h List.not_mem_nil
        exact stored_parameterFrame _ _ _ _ hargs Bindings.stored_nil
      · exact stores_conclude _ hflow

include hl

theorem exec_succ (st : Stmt Ty) : Stores (m.exec depth (fuel + 1) locals st) Flow.Stored := by
  cases st with
  | block b => exact ih.execBlock depth b hl
  | bind span name mutable declared init type =>
      refine (ih.eval depth init hl).bind fun v hv => stores_pure ?_
      exact hl.declare name.name (hv.coerceOrKeep type)
  | assign span target op value =>
      refine (ih.eval depth value hl).bind fun rhs hrhs => ?_
      exact (stores_assign hl hrhs target).bind fun locals' hl' => stores_pure hl'
  | cond c => exact ih.execCond depth c hl
  | loop span test body => exact ih.execLoop depth test body hl
  | ret span value =>
      cases value with
      | none => exact stores_pure rfl
      | some e => exact (ih.eval depth e hl).bind fun v hv => stores_pure hv
  | eval span e => exact (ih.eval depth e hl).bind fun v _ => stores_pure hl

theorem execAll_succ (body : List (Stmt Ty)) :
    Stores (m.execAll depth (fuel + 1) locals body) Flow.Stored := by
  cases body with
  | nil => exact stores_pure hl
  | cons st rest =>
      refine (ih.exec depth st hl).bind fun flow hflow => ?_
      cases flow with
      | next locals' => exact ih.execAll depth rest hflow
      | returned v => exact stores_pure hflow

theorem execBlock_succ (b : Block Ty) :
    Stores (m.execBlock depth (fuel + 1) locals b) Flow.Stored := by
  cases b with
  | mk span body =>
      refine (ih.execAll depth body (.cons Bindings.stored_nil hl)).bind fun flow hflow => ?_
      cases flow with
      | next inner => exact stores_pure (Locals.Stored.tail hflow)
      | returned v => exact stores_pure hflow

theorem execCond_succ (c : Cond Ty) :
    Stores (m.execCond depth (fuel + 1) locals c) Flow.Stored := by
  cases c with
  | mk span test consequent alternate =>
      refine (ih.condition depth test hl).bind fun taken _ => ?_
      cases taken with
      | true => exact ih.execBlock depth consequent hl
      | false =>
          cases alternate with
          | absent => exact stores_pure hl
          | block b => exact ih.execBlock depth b hl
          | cond c => exact ih.execCond depth c hl

theorem execLoop_succ (test : Expr) (body : Block Ty) :
    Stores (m.execLoop depth (fuel + 1) locals test body) Flow.Stored := by
  refine (ih.condition depth test hl).bind fun again _ => ?_
  cases again with
  | true =>
      refine (ih.execBlock depth body hl).bind fun flow hflow => ?_
      cases flow with
      | next locals' => exact ih.execLoop depth test body hflow
      | returned v => exact stores_pure hflow
  | false => exact stores_pure hl

end StoresAt

/-- The evaluator keeps floats in single precision, whatever the fuel. -/
theorem storesAt (hm : m.host.ReadsStored) (fuel : Nat) : StoresAt m fuel := by
  induction fuel with
  | zero => exact .zero m
  | succ fuel ih =>
      exact
        { eval         := fun depth _ e hl => ih.eval_succ depth hl hm e
          condition    := fun depth _ e hl => ih.condition_succ depth hl e
          evalAll      := fun depth _ es hl => ih.evalAll_succ depth hl es
          evalFields   := fun depth _ fields hl => ih.evalFields_succ depth hl fields
          callBuiltin  := fun depth _ b span callee args hl =>
            ih.callBuiltin_succ depth hl b span callee args
          argumentText := fun depth _ span callee args hl =>
            ih.argumentText_succ depth hl span callee args
          call         := fun depth name args span hargs => ih.call_succ depth name args span hargs
          exec         := fun depth _ st hl => ih.exec_succ depth hl st
          execAll      := fun depth _ body hl => ih.execAll_succ depth hl body
          execBlock    := fun depth _ b hl => ih.execBlock_succ depth hl b
          execCond     := fun depth _ c hl => ih.execCond_succ depth hl c
          execLoop     := fun depth _ test body hl => ih.execLoop_succ depth hl test body }

end Machine

/-! ## Moments -/

/-- The local variables or the arguments of a part are as fields keep them. -/
def Task.Stored : Task → Prop
  | .eval l _               => l.Stored
  | .condition l _          => l.Stored
  | .evalAll l _            => l.Stored
  | .evalFields l _         => l.Stored
  | .callBuiltin l _ _ _ _  => l.Stored
  | .argumentText l _ _ _   => l.Stored
  | .call _ args _          => ∀ v ∈ args, v.IsStored
  | .exec l _               => l.Stored
  | .execAll l _            => l.Stored
  | .execBlock l _          => l.Stored
  | .execCond l _           => l.Stored
  | .execLoop l _ _         => l.Stored

/-- All values of a moment are as fields keep them. -/
structure Moment.Stored (x : Moment σ) : Prop where
  task  : x.task.Stored
  world : x.world.globals.Stored

namespace Machine

variable {m : Machine σ}

/-- A moment directly inside one with floats of single precision is such a moment. -/
theorem Begins.stored (hm : m.host.ReadsStored) {x y : Moment σ} (h : m.Begins x y)
    (hx : x.Stored) : y.Stored := by
  obtain ⟨htask, hw⟩ := hx
  have hall := storesAt (m := m) hm
  cases h with
  | right _ hrun => exact ⟨htask, (((hall _).eval _ _ htask).of_ok hw hrun).1⟩
  | andTest hrun => exact ⟨htask, (((hall _).condition _ _ htask).of_ok hw hrun).1⟩
  | orTest hrun => exact ⟨htask, (((hall _).condition _ _ htask).of_ok hw hrun).1⟩
  | callee _ hrun =>
      obtain ⟨hw', hvalues⟩ := ((hall _).evalAll _ _ htask).of_ok hw hrun
      exact ⟨hvalues, hw'⟩
  | moreValues hrun => exact ⟨htask, (((hall _).eval _ _ htask).of_ok hw hrun).1⟩
  | moreFields hrun => exact ⟨htask, (((hall _).eval _ _ htask).of_ok hw hrun).1⟩
  | body _ _ =>
      refine ⟨.cons ?_ fun _ h => absurd h List.not_mem_nil, hw⟩
      exact stored_parameterFrame _ _ _ _ htask Bindings.stored_nil
  | next hrun =>
      obtain ⟨hw', hflow⟩ := ((hall _).exec _ _ htask).of_ok hw hrun
      exact ⟨hflow, hw'⟩
  | inner => exact ⟨.cons Bindings.stored_nil htask, hw⟩
  | consequent hrun => exact ⟨htask, (((hall _).condition _ _ htask).of_ok hw hrun).1⟩
  | otherwise hrun => exact ⟨htask, (((hall _).condition _ _ htask).of_ok hw hrun).1⟩
  | otherwiseIf hrun => exact ⟨htask, (((hall _).condition _ _ htask).of_ok hw hrun).1⟩
  | round hrun => exact ⟨htask, (((hall _).condition _ _ htask).of_ok hw hrun).1⟩
  | repeated htrue hrun =>
      have hw₁ := (((hall _).condition _ _ htask).of_ok hw htrue).1
      obtain ⟨hw', hflow⟩ := ((hall _).execBlock _ _ htask).of_ok hw₁ hrun
      exact ⟨hflow, hw'⟩
  -- The others begin where the outer one begins, with the same local variables.
  | _ => exact ⟨htask, hw⟩

/-- Every moment of a run that begins with floats of single precision has them. -/
theorem Reaches.stored (hm : m.host.ReadsStored) {x y : Moment σ} (h : m.Reaches x y)
    (hx : x.Stored) : y.Stored := by
  induction h with
  | refl => exact hx
  | tail _ hstep ih => exact hstep.stored hm ih

end Machine

end SceneScript
