import SceneScript.Proofs.Typing.Rules

/-!
# A check without problems obeys the typing rules

Checking a script never fails: it reports problems and goes on with the type `unknown`. This
file shows that when nothing was reported, every part of the script obeys the rules of
`Proofs.Typing.Rules`.

* **`Check.Clean`** — nothing was reported on the way to a value.
* **`Known`** — no name of the surroundings has type `unknown`. In known surroundings a clean
  check gives a type that is known too, so the tolerance for `unknown` is never used.
* **`Exports`**, **`checkExport_exports`** — the property that an export makes.
* **`checkProgram_wellTyped`** — the main statement.
-/

namespace SceneScript

/-! ## Clean checks -/

namespace Check

variable {α β : Type}

/-- No problem was reported on the way to a value. -/
def Clean (x : Check α) : Prop := ∀ p span, Finding.problem p span ∉ x.findings

@[simp] theorem value_pure (a : α) : (pure a : Check α).value = a := rfl

@[simp] theorem value_bind (x : Check α) (f : α → Check β) :
    (x >>= f).value = (f x.value).value := rfl

@[simp] theorem clean_pure (a : α) : (pure a : Check α).Clean := by
  intro p span h
  cases h

@[simp] theorem clean_bind (x : Check α) (f : α → Check β) :
    (x >>= f).Clean ↔ x.Clean ∧ (f x.value).Clean := by
  have hf : (x >>= f).findings = x.findings ++ (f x.value).findings := rfl
  unfold Clean
  rw [hf]
  simp only [List.mem_append, not_or, forall_and]

@[simp] theorem not_clean_report (span : Span) (p : Problem) : ¬ (report span p).Clean := by
  intro h
  exact h p span (List.mem_singleton.mpr rfl)

@[simp] theorem clean_reportIf (c : Bool) (span : Span) (p : Problem) :
    (reportIf c span p).Clean ↔ c = false := by
  cases c with
  | false => exact ⟨fun _ => rfl, fun _ => clean_pure ()⟩
  | true => exact ⟨fun h => absurd h (not_clean_report span p), Bool.noConfusion⟩

@[simp] theorem clean_note_read (id : Ident) : (note (.read id)).Clean := by
  intro p span h
  cases List.mem_singleton.mp h

@[simp] theorem clean_note_written (id : Ident) : (note (.written id)).Clean := by
  intro p span h
  cases List.mem_singleton.mp h

@[simp] theorem clean_note_declared (v : Variable) : (note (.declared v)).Clean := by
  intro p span h
  cases List.mem_singleton.mp h

@[simp] theorem clean_note_bound (b : Binding) : (note (.bound b)).Clean := by
  intro p span h
  cases List.mem_singleton.mp h

end Check

/-! ## Known surroundings -/

/-- Every name of the surroundings has a type that is known. -/
structure Known (s : Surroundings) : Prop where
  visible   : ∀ name v, s.scope.find? name = some v → v.type.Storable
  functions : ∀ name f, s.function? name = some f →
    f.returns ≠ .unknown ∧ ∀ p ∈ f.params, p.type.Storable
  signals   : ∀ name signal, s.signal? name = some signal → ∀ p ∈ signal.params, p.type.Storable

/-- Between known types, what may be assigned fits. -/
theorem Ty.Fits.of_assignable {t u : Ty} (ht : t ≠ .unknown) (hu : u ≠ .unknown)
    (h : t.assignable u = true) : t.Fits u := by
  simp only [Ty.assignable, Bool.or_eq_true, Bool.and_eq_true, beq_iff_eq] at h
  rcases h with ((h | h) | h) | h
  · exact absurd h ht
  · exact absurd h hu
  · exact .inl h
  · exact .inr h

theorem Builtin.returns_ne_unknown (b : Builtin) : b.returns ≠ .unknown := by
  cases b <;> decide

/-! ## The rules of operators, calls and literals -/

theorem lookupVariable_clean {scope : Scope} {id : Ident} (h : (lookupVariable scope id).Clean) :
    ∃ v, scope.find? id.name = some v ∧ (lookupVariable scope id).value = some v := by
  rw [lookupVariable] at h ⊢
  cases hv : scope.find? id.name with
  | none => simp [hv] at h
  | some v => exact ⟨v, rfl, rfl⟩

theorem fieldType_clean {t : Ty} {field : Ident} (ht : t ≠ .unknown)
    (h : (fieldType t field).Clean) : t.fieldNamed? field.name = some (fieldType t field).value := by
  rw [fieldType] at h ⊢
  rw [if_neg ht] at h ⊢
  by_cases he : t.fields.isEmpty = true
  · simp [he] at h
  · rw [if_neg he] at h ⊢
    cases hu : t.fieldNamed? field.name with
    | none => simp [hu] at h
    | some u => rfl

theorem Ty.numericResult_known {l r : Ty} (hl : l.isNumeric = true) (hr : r.isNumeric = true) :
    l.numericResult r ≠ .unknown := by
  cases l <;> cases hl <;> cases r <;> cases hr <;> decide

/-- In known surroundings no expression has type `unknown`. -/
theorem HasType.known {s : Surroundings} {e : Expr} {t : Ty} (hs : Known s) (h : HasType s e t) :
    t ≠ .unknown := by
  cases h with
  | ident id v hv => exact (hs.visible id.name v hv).1
  | field span object name t u _ hu => exact (Ty.fieldNamed?_storable hu).1.1
  | neg span arg t _ hn => intro ht; rw [ht] at hn; cases hn
  | arithmetic span op left right l r _ _ _ hl hr => exact Ty.numericResult_known hl hr
  | struct span name fields t _ hst => intro ht; rw [ht] at hst; cases hst
  | builtin span callee args b => exact b.returns_ne_unknown
  | call span callee args f _ hf => exact (hs.functions callee.name f hf).1
  | _ => decide

theorem unaryType_clean {s : Surroundings} {op : UnaryOp} {t : Ty} {span : Span} {arg : Expr}
    (ha : HasType s arg t) (ht : t ≠ .unknown) (h : (unaryType op t span).Clean) :
    HasType s (.unary span op arg) (unaryType op t span).value := by
  rw [unaryType] at h ⊢
  rw [if_neg ht] at h ⊢
  cases op with
  | neg =>
      by_cases hn : t.isNumeric = true
      · simp only [hn, if_true, Check.value_pure]
        exact .neg span arg t ha hn
      · simp [hn] at h
  | not =>
      by_cases hb : t = .bool
      · subst hb
        exact .not span arg ha
      · simp [hb] at h

theorem binaryType_clean {s : Surroundings} {op : BinaryOp} {l r : Ty} {span : Span}
    {left right : Expr} (hl : HasType s left l) (hr : HasType s right r) (hlk : l ≠ .unknown)
    (hrk : r ≠ .unknown) (h : (binaryType op l r span).Clean) :
    HasType s (.binary span op left right) (binaryType op l r span).value := by
  -- Every operator tolerates `unknown` in a test of its own; none of these tests is passed here.
  have hvague : ¬ (l = .unknown ∨ r = .unknown) := fun hv => hv.elim hlk hrk
  have numeric : (l.isNumeric && r.isNumeric) = true → l.isNumeric = true ∧ r.isNumeric = true :=
    Bool.and_eq_true_iff.mp
  unfold binaryType at h ⊢
  cases op with
  | add =>
      by_cases hs : l = .string ∧ r = .string
      · obtain ⟨rfl, rfl⟩ := hs
        exact .concat span left right hl hr
      · by_cases hn : (l.isNumeric && r.isNumeric) = true
        · simp only [hs, hvague, hn, if_false, if_true, Check.value_pure]
          exact .arithmetic span .add left right l r (.inl rfl) hl hr (numeric hn).1 (numeric hn).2
        · simp [hs, hvague, hn] at h
  | sub | mul | div =>
      by_cases hn : (l.isNumeric && r.isNumeric) = true
      · simp only [hvague, hn, if_false, if_true, Check.value_pure]
        exact .arithmetic span _ left right l r (by simp [BinaryOp.IsArithmetic]) hl hr
          (numeric hn).1 (numeric hn).2
      · simp [hvague, hn] at h
  | lt | le | gt | ge =>
      by_cases hn : (l.isNumeric && r.isNumeric) = true
      · simp only [hn, or_true, if_true, Check.value_pure]
        exact .order span _ left right l r (by simp [BinaryOp.IsOrder]) hl hr
          (numeric hn).1 (numeric hn).2
      · simp [hvague, hn] at h
  | eq | ne =>
      have hc : l.comparable r = true := by simpa using h
      exact .equality span _ left right l r (by simp [BinaryOp.IsEquality]) hl hr hc
  | and | or =>
      have hb : l = .bool ∧ r = .bool := by simpa [hlk, hrk] using h
      obtain ⟨rfl, rfl⟩ := hb
      exact .logic span _ left right (by simp [BinaryOp.IsLogic]) hl hr

/-! ## Expressions -/

theorem checkArguments_clean {function : Text} {params : List TypedName} {span : Span}
    {args : List (Span × Ty)} (h : (checkArguments function params span args).Clean) :
    args.length = params.length ∧
      (checkFits (fun p t => .argumentType p.name function p.type t) params args).Clean := by
  unfold checkArguments at h
  by_cases hn : args.length = params.length
  · simp only [hn, ne_eq, not_true_eq_false, if_false] at h
    exact ⟨hn, h⟩
  · simp [hn] at h

theorem checkEmission_clean {s : Surroundings} {span nameSpan : Span} {name : Text}
    {args : List (Span × Ty)} (h : (checkEmission s span nameSpan name args).Clean) :
    ∃ signal, s.signal? name = some signal ∧ args.length = signal.params.length ∧
      (checkFits (fun p t => .signalArgumentType p.name name p.type t) signal.params args).Clean := by
  unfold checkEmission at h
  cases hs : s.signal? name with
  | none => simp [hs] at h
  | some signal =>
      by_cases hn : args.length = signal.params.length
      · simp only [hs, hn, ne_eq, not_true_eq_false, if_false] at h
        exact ⟨signal, rfl, hn, h⟩
      · simp [hs, hn] at h

/-- The names of struct fields are kept beside their types. -/
theorem fieldTypes_names (s : Surroundings) (fields : List (Ident × Expr)) :
    (fieldTypes s fields).value.map Prod.fst = fields.map Prod.fst := by
  induction fields with
  | nil => rfl
  | cons x rest ih =>
      obtain ⟨name, e⟩ := x
      rw [fieldTypes]
      simp only [Check.value_bind, Check.value_pure, List.map_cons, ih]

/-- A struct literal without problems names all fields of a struct type. -/
theorem structType_clean {span : Span} {name : Ident} {fields : List (Ident × Span × Ty)}
    (h : (structType span name fields).Clean) :
    ∃ t, Ty.ofText? name.name = some t ∧ (structType span name fields).value = t ∧
      t.isStruct = true ∧ (checkFields t [] fields).Clean ∧
      ∀ e ∈ t.fields, ∃ x ∈ fields.map Prod.fst, x.name = Text.ofString e.1.word := by
  rw [structType] at h ⊢
  cases ht : Ty.ofText? name.name with
  | none => simp [ht] at h
  | some t =>
      by_cases hst : t.isStruct = true
      · simp only [ht, hst, Bool.not_true, Bool.false_eq_true, if_false, Check.clean_bind,
          Check.clean_reportIf] at h
        refine ⟨t, rfl, by simp [hst], hst, h.1, ?_⟩
        intro e he
        -- The list of missing fields was empty, so every field of the type was found.
        have hmissing := h.2.1
        simp only [Bool.not_eq_false', List.isEmpty_iff, List.filter_eq_nil_iff] at hmissing
        have hname := hmissing (Text.ofString e.1.word) (List.mem_map.mpr ⟨e, he, rfl⟩)
        simp only [Bool.not_eq_true', Bool.not_eq_false, List.any_eq_true, beq_iff_eq] at hname
        obtain ⟨x, hx, hxe⟩ := hname
        exact ⟨x.1, List.mem_map.mpr ⟨x, hx, rfl⟩, hxe⟩
      · simp [ht, hst] at h

/-- The step of a struct literal: a field whose value has a known type. -/
theorem checkFields_cons_clean {type found : Ty} {seen : List Text} {field : Ident} {span : Span}
    {rest : List (Ident × Span × Ty)} (hk : found ≠ .unknown)
    (h : (checkFields type seen ((field, span, found) :: rest)).Clean) :
    ∃ u, type.fieldNamed? field.name = some u ∧ found.Fits u ∧
      (checkFields type (field.name :: seen) rest).Clean := by
  rw [checkFields] at h
  by_cases hseen : field.name ∈ seen
  · simp [hseen] at h
  · cases hu : type.fieldNamed? field.name with
    | none => simp [hseen, hu] at h
    | some u =>
        simp only [hseen, if_false, hu, Check.clean_bind, Check.clean_reportIf,
          Bool.not_eq_false'] at h
        exact ⟨u, rfl, .of_assignable hk (Ty.fieldNamed?_storable hu).1.1 h.1, h.2⟩

mutual

/-- **Expressions.** An expression without problems has the type that was computed. -/
theorem typeOf_clean {s : Surroundings} (hs : Known s) :
    ∀ e, (typeOf s e).Clean → HasType s e (typeOf s e).value
  | .int span n raw, _   => .int span n raw
  | .float span x raw, _ => .float span x raw
  | .bool span b, _      => .bool span b
  | .string span t, _    => .string span t
  | .self span, _        => .self span
  | .ident id, h         => by
      rw [typeOf] at h ⊢
      obtain ⟨v, hv, hval⟩ := lookupVariable_clean ((Check.clean_bind _ _).mp h).1
      simp only [Check.value_bind, hval, Check.value_pure]
      exact .ident id v hv
  | .field span object name, h => by
      rw [typeOf] at h ⊢
      obtain ⟨ho, hf⟩ := (Check.clean_bind _ _).mp h
      have hobj := typeOf_clean hs object ho
      exact .field span object name _ _ hobj (fieldType_clean (hobj.known hs) hf)
  | .unary span op arg, h => by
      rw [typeOf] at h ⊢
      obtain ⟨ha, hop⟩ := (Check.clean_bind _ _).mp h
      have harg := typeOf_clean hs arg ha
      exact unaryType_clean harg (harg.known hs) hop
  | .binary span op left right, h => by
      rw [typeOf] at h ⊢
      simp only [Check.clean_bind] at h
      have hl := typeOf_clean hs left h.1
      have hr := typeOf_clean hs right h.2.1
      exact binaryType_clean hl hr (hl.known hs) (hr.known hs) h.2.2
  | .struct span name fields, h => by
      rw [typeOf] at h ⊢
      obtain ⟨hf, hst⟩ := (Check.clean_bind _ _).mp h
      obtain ⟨t, ht, hval, hstruct, hfields, hall⟩ := structType_clean hst
      rw [Check.value_bind, hval]
      refine .struct span name fields t ht hstruct (fieldTypes_clean hs fields hf t [] hfields) ?_
      -- The names were checked beside the types; the rule asks for them beside the expressions.
      rw [fieldTypes_names] at hall
      intro e he
      obtain ⟨x, hx, hxe⟩ := hall e he
      obtain ⟨y, hy, rfl⟩ := List.mem_map.mp hx
      exact ⟨y, hy, hxe⟩
  | .call span callee args, h => by
      rw [typeOf] at h ⊢
      cases hb : Builtin.ofText? callee.name with
      | none =>
          simp only [hb] at h ⊢
          -- A name that is no builtin is a function of the script, known to the surroundings.
          cases hf : s.function? callee.name with
          | none => simp [hf] at h
          | some f =>
              simp only [hf, Check.clean_bind, Check.clean_reportIf] at h ⊢
              obtain ⟨hinit, hargs, hfits, -⟩ := h
              obtain ⟨hn, hfit⟩ := checkArguments_clean hfits
              exact .call span callee args f hb hf hinit
                (typesOf_clean hs args hargs _ _ (hs.functions _ f hf).2 hn hfit)
      | some b =>
          cases b with
          | print =>
              simp only [hb, Check.clean_bind] at h
              exact .print span callee args hb (printTypes_clean hs args h.1)
          | emitSignal =>
              simp only [hb] at h ⊢
              match args, h with
              | [], h => simp at h
              | first :: rest, h =>
                  simp only [Check.clean_bind] at h
                  obtain ⟨hargs, hrest⟩ := h
                  -- The name of the signal is written out: any other first argument was reported.
                  match first, hrest with
                  | .string nameSpan name, hrest =>
                      simp only [Check.clean_bind] at hrest
                      obtain ⟨signal, hsig, hn, hfit⟩ := checkEmission_clean hrest.1
                      exact .emit span callee nameSpan name rest signal hb hsig
                        (typesOf_clean hs rest hargs _ _ (hs.signals _ signal hsig) hn hfit)
                  | .int _ _ _, hrest | .float _ _ _, hrest | .bool _ _, hrest | .self _, hrest
                  | .ident _, hrest | .field _ _ _, hrest | .call _ _ _, hrest
                  | .unary _ _ _, hrest | .binary _ _ _ _, hrest | .struct _ _ _, hrest =>
                      simp at hrest
          | getNode | getParent | hasNode | findChild =>
              simp only [hb, Builtin.params?, Check.clean_bind] at h ⊢
              obtain ⟨hn, hfit⟩ := checkArguments_clean h.2.1
              exact .builtin span callee args _ _ hb rfl
                (typesOf_clean hs args h.1 _ _ (by simp [Ty.Storable]) hn hfit)

/-- Arguments without problems fit the parameters that they were checked against. -/
theorem typesOf_clean {s : Surroundings} (hs : Known s) :
    ∀ es, (typesOf s es).Clean → ∀ (problem : TypedName → Ty → Problem) (params : List TypedName),
      (∀ p ∈ params, p.type.Storable) → (typesOf s es).value.length = params.length →
      (checkFits problem params (typesOf s es).value).Clean → Fitting s es params
  | [], _, _, [], _, _, _ => .nil
  | [], _, _, _ :: _, _, hn, _ => by
      rw [typesOf] at hn
      cases hn
  | e :: es, h, problem, params, hp, hn, hfit => by
      rw [typesOf] at h hn hfit
      simp only [Check.clean_bind, Check.value_bind, Check.value_pure] at h hn hfit
      cases params with
      | nil => cases hn
      | cons p ps =>
          rw [checkFits] at hfit
          simp only [Check.clean_bind, Check.clean_reportIf, Bool.not_eq_false'] at hfit
          have he := typeOf_clean hs e h.1
          have hpt := hp p List.mem_cons_self
          exact .cons e es p ps _ he (.of_assignable (he.known hs) hpt.1 hfit.1)
            (typesOf_clean hs es h.2.1 problem ps (fun q hq => hp q (List.mem_cons_of_mem p hq))
              (Nat.succ.inj hn) hfit.2)

/-- The fields of a struct literal without problems belong to its type and fit. -/
theorem fieldTypes_clean {s : Surroundings} (hs : Known s) :
    ∀ fields, (fieldTypes s fields).Clean → ∀ (type : Ty) (seen : List Text),
      (checkFields type seen (fieldTypes s fields).value).Clean → Members s type fields
  | [], _, type, _, _ => .nil type
  | (name, e) :: rest, h, type, seen, hfields => by
      rw [fieldTypes] at h hfields
      simp only [Check.clean_bind, Check.value_bind, Check.value_pure] at h hfields
      have he := typeOf_clean hs e h.1
      obtain ⟨u, hu, hfit, hrest⟩ := checkFields_cons_clean (he.known hs) hfields
      exact .cons type name e rest _ u he hu hfit (fieldTypes_clean hs rest h.2.1 type _ hrest)

/-- What is printed without problems can be shown. -/
theorem printTypes_clean {s : Surroundings} (hs : Known s) :
    ∀ es, (printTypes s es).Clean → Printable s es
  | [], _      => .nil
  | e :: es, h => by
      rw [printTypes] at h
      simp only [Check.clean_bind, Check.clean_reportIf, beq_eq_false_iff_ne] at h
      exact .cons e es _ (typeOf_clean hs e h.1) h.2.1 (printTypes_clean hs es h.2.2)

end

/-! ## Scopes -/

/-- A new block brings no new names. -/
theorem Known.block {s : Surroundings} (hs : Known s) :
    Known { s with scope := [] :: s.scope } := ⟨hs.visible, hs.functions, hs.signals⟩

/-- What a name means after a definition. -/
theorem Scope.find?_define? {scope extended : Scope} {v : Variable}
    (h : scope.define? v = some extended) (name : Text) :
    extended.find? name = if v.id.name = name then some v else scope.find? name := by
  cases scope with
  | nil =>
      cases h
      by_cases hn : v.id.name = name <;> simp [find?, inFrame?, hn]
  | cons frame frames =>
      simp only [define?] at h
      by_cases hd : (inFrame? v.id.name frame).isSome = true
      · simp [hd] at h
      · rw [if_neg hd] at h
        cases h
        have hnone : inFrame? v.id.name frame = none := by simpa using hd
        -- The new variable stands last in its frame, but no other one there has its name.
        simp only [find?, List.findSome?_cons, inFrame?_append]
        by_cases hn : v.id.name = name
        · subst hn
          simp [hnone]
        · simp [hn]

/-- Surroundings stay known when a variable with a known type is declared. -/
theorem Known.define {s : Surroundings} {v : Variable} {scope : Scope} (hs : Known s)
    (hv : v.type.Storable) (h : s.scope.define? v = some scope) :
    Known { s with scope := scope } := by
  refine ⟨?_, hs.functions, hs.signals⟩
  intro name u hu
  rw [Scope.find?_define? h] at hu
  by_cases hn : v.id.name = name
  · rw [if_pos hn] at hu
    cases hu
    exact hv
  · rw [if_neg hn] at hu
    exact hs.visible name u hu

/-- Surroundings stay known along statements. -/
theorem StmtOk.known {r : Ty} {s : Surroundings} {st : Stmt Ty} {scope : Scope}
    (h : StmtOk r s st scope) (hs : Known s) : Known { s with scope := scope } := by
  cases h with
  | bind _ _ _ _ _ _ _ _ _ _ _ htype hdef => exact hs.define htype hdef
  | _ => exact hs

/-! ## Statements -/

/-- The type that a clean check reads is a type that the script may write there. -/
theorem resolveType_clean {ref : TypeRef} {allowVoid : Bool} (h : (resolveType ref allowVoid).Clean) :
    (resolveType ref allowVoid).value = writtenType ref ∧ writtenType ref ≠ .unknown ∧
      (allowVoid = false → (writtenType ref).Storable) := by
  rw [resolveType] at h ⊢
  by_cases hu : writtenType ref = .unknown
  · simp [hu] at h
  · simp only [hu, if_false] at h ⊢
    by_cases hv : writtenType ref = .void ∧ (!allowVoid) = true
    · simp [hv] at h
    · simp only [hv, if_false]
      exact ⟨rfl, hu, fun ha => ⟨hu, fun hvoid => hv ⟨hvoid, by rw [ha]; rfl⟩⟩⟩

/-- A binding without problems has an initializer that fits. -/
theorem bindingType_clean {s : Surroundings} (hs : Known s) {declared : Option TypeRef}
    {init : Expr} {name : Text} (h : (bindingType s declared init name).Clean) :
    ∃ t, HasType s init t ∧ t.Fits (bindingType s declared init name).value ∧
      (bindingType s declared init name).value.Storable := by
  rw [bindingType] at h ⊢
  obtain ⟨hi, hrest⟩ := (Check.clean_bind _ _).mp h
  have hinit := typeOf_clean hs init hi
  refine ⟨_, hinit, ?_⟩
  cases declared with
  | some ref =>
      simp only [Check.clean_bind, Check.clean_reportIf, Bool.not_eq_false'] at hrest
      obtain ⟨href, hfit, -⟩ := hrest
      obtain ⟨hval, hk, hst⟩ := resolveType_clean href
      simp only [Check.value_bind, Check.value_pure, hval] at hfit ⊢
      exact ⟨.of_assignable (hinit.known hs) hk hfit, hst rfl⟩
  | none =>
      by_cases hv : (typeOf s init).value = .void
      · simp [hv] at hrest
      · simp only [Check.value_bind, hv, if_false, Check.value_pure]
        exact ⟨.inl rfl, hinit.known hs, hv⟩

theorem declare_clean {scope : Scope} {v : Variable} {duplicate : Problem}
    (h : (declare scope v duplicate).Clean) :
    scope.define? v = some (declare scope v duplicate).value := by
  rw [declare] at h ⊢
  cases hd : scope.define? v with
  | none => simp [hd] at h
  | some extended => rfl

/-- A path without problems leads to the type that was computed, and it passes through a node
    only when it starts at one. -/
theorem pathType_clean {path : List Ident} {t : Ty} {through : Bool} (ht : t ≠ .unknown)
    (h : (pathType t through path).Clean) :
    t.along? (path.map Ident.name) = some (pathType t through path).value.1 ∧
      (pathType t through path).value.1 ≠ .unknown ∧
      ((pathType t through path).value.2 = true →
        through = true ∨ (t = .node ∧ path ≠ [])) := by
  induction path generalizing t through with
  | nil => exact ⟨rfl, ht, fun hb => .inl hb⟩
  | cons seg rest ih =>
      rw [pathType] at h ⊢
      obtain ⟨hf, hrest⟩ := (Check.clean_bind _ _).mp h
      have hu := fieldType_clean ht hf
      obtain ⟨hst, hnode⟩ := Ty.fieldNamed?_storable hu
      obtain ⟨halong, hk, hthrough⟩ := ih hst.1 hrest
      refine ⟨?_, hk, ?_⟩
      · show (t.fieldNamed? seg.name).bind _ = _
        rw [hu]
        exact halong
      -- No field holds a node, so only the start of the path can be one.
      · intro hb
        rcases hthrough hb with hb' | ⟨hn, -⟩
        · rcases Bool.or_eq_true_iff.mp hb' with hb'' | hb''
          · exact .inl hb''
          · exact .inr ⟨beq_iff_eq.mp hb'', List.cons_ne_nil seg rest⟩
        · exact absurd hn hnode

/-- An assignment between known types without problems is one that the rules allow. -/
theorem checkAssigned_clean {span : Span} {target : AssignTarget} {op : AssignOp} {value : Expr}
    {expected found : Ty} (he : expected ≠ .unknown) (hf : found ≠ .unknown)
    (h : (checkAssigned span target op value expected found).Clean) :
    Combines op expected found := by
  unfold checkAssigned at h
  rw [if_neg (fun hv => hv.elim he hf)] at h
  by_cases hop : op = .set
  · subst hop
    have hfit : found.assignable expected = true := by simpa using h
    exact .set expected found (.of_assignable hf he hfit)
  · rw [if_neg hop] at h
    by_cases hs : op = .add ∧ expected = .string ∧ found = .string
    · obtain ⟨rfl, rfl, rfl⟩ := hs
      exact .concat
    · rw [if_neg hs] at h
      cases hne : expected.isNumeric with
      | false => simp [hne] at h
      | true =>
          cases hnf : found.isNumeric with
          | false => simp [hne, hnf] at h
          | true =>
              simp only [hne, hnf, Bool.not_true, Bool.or_self, Bool.false_eq_true, if_false,
                Check.clean_reportIf, Bool.not_eq_false'] at h
              refine .arithmetic op expected found hop hne hnf ?_
              cases expected <;> cases hne <;> cases found <;> cases hnf <;> cases h <;> rfl

theorem checkAssign_clean {s : Surroundings} (hs : Known s) {span : Span} {target : AssignTarget}
    {op : AssignOp} {value : Expr} (h : (checkAssign s span target op value).Clean) :
    ∃ t found, TargetOk s target t ∧ HasType s value found ∧ Combines op t found := by
  obtain ⟨tspan, root, path⟩ := target
  unfold checkAssign at h
  cases root with
  | self root =>
      by_cases hp : path = []
      · simp [hp] at h
      · simp only [List.isEmpty_iff, hp, if_false, Check.clean_bind] at h
        obtain ⟨hpath, hv, hassign⟩ := h
        obtain ⟨halong, hk, -⟩ := pathType_clean (by decide) hpath
        have hval := typeOf_clean hs value hv
        exact ⟨_, _, .self tspan root path _ hp halong, hval,
          checkAssigned_clean hk (hval.known hs) hassign⟩
  | name id =>
      obtain ⟨hlook, hrest⟩ := (Check.clean_bind _ _).mp h
      obtain ⟨v, hfind, hval⟩ := lookupVariable_clean hlook
      rw [hval] at hrest
      simp only [Check.clean_bind, Check.clean_reportIf] at hrest
      obtain ⟨-, hpath, hmut, hv, hassign⟩ := hrest
      obtain ⟨halong, hk, hthrough⟩ := pathType_clean (hs.visible _ v hfind).1 hpath
      have hvalue := typeOf_clean hs value hv
      refine ⟨_, _, .name tspan id path v _ hfind halong ?_, hvalue,
        checkAssigned_clean hk (hvalue.known hs) hassign⟩
      -- A variable that is not `mut` was let through only because the path starts at a node.
      cases hm : v.mutable with
      | true => exact .inl rfl
      | false =>
          rw [hm] at hmut
          have hthrough' : (pathType v.type false path).value.2 = true := by simpa using hmut
          rcases hthrough hthrough' with hf | hn
          · cases hf
          · exact .inr hn

theorem checkCondition_clean {s : Surroundings} (hs : Known s) {test : Expr} {w : Conditional}
    (h : (checkCondition s test w).Clean) : HasType s test .bool := by
  unfold checkCondition at h
  obtain ⟨ht, hrep⟩ := (Check.clean_bind _ _).mp h
  have htest := typeOf_clean hs test ht
  have hb : (typeOf s test).value = .bool := by
    simpa [htest.known hs] using hrep
  rw [hb] at htest
  exact htest

mutual

/-- **Statements.** A statement without problems may run, and leaves the computed scope. -/
theorem checkStmt_clean {s : Surroundings} (hs : Known s) {owner : Signature}
    (ho : owner.returns ≠ .unknown) : ∀ st, (checkStmt s owner st).Clean →
      StmtOk owner.returns s (checkStmt s owner st).value.1 (checkStmt s owner st).value.2
  | .block b, h => by
      rw [checkStmt] at h ⊢
      exact .block s _ (checkBlock_clean hs ho b ((Check.clean_bind _ _).mp h).1)
  | .bind span name mutable declared init binding, h => by
      rw [checkStmt] at h ⊢
      simp only [Check.clean_bind] at h
      obtain ⟨hbind, -, hdecl, -⟩ := h
      obtain ⟨t, hinit, hfit, hst⟩ := bindingType_clean hs hbind
      exact .bind s span name mutable declared init t _ _ hinit hfit hst (declare_clean hdecl)
  | .assign span target op value, h => by
      rw [checkStmt] at h ⊢
      obtain ⟨t, found, htarget, hvalue, hcomb⟩ :=
        checkAssign_clean hs ((Check.clean_bind _ _).mp h).1
      exact .assign s span target op value t found htarget hvalue hcomb
  | .cond c, h => by
      rw [checkStmt] at h ⊢
      exact .cond s _ (checkCond_clean hs ho c ((Check.clean_bind _ _).mp h).1)
  | .loop span test body, h => by
      rw [checkStmt] at h ⊢
      simp only [Check.clean_bind] at h
      exact .loop s span test _ (checkCondition_clean hs h.1) (checkBlock_clean hs ho body h.2.1)
  | .ret span none, h => by
      rw [checkStmt] at h ⊢
      have hr : (checkReturn s owner span none).Clean := ((Check.clean_bind _ _).mp h).1
      unfold checkReturn at hr
      exact .leave s span (by simpa [ho] using hr)
  | .ret span (some e), h => by
      rw [checkStmt] at h ⊢
      have hr : (checkReturn s owner span (some e)).Clean := ((Check.clean_bind _ _).mp h).1
      unfold checkReturn at hr
      obtain ⟨he, hrest⟩ := (Check.clean_bind _ _).mp hr
      have hval := typeOf_clean hs e he
      by_cases hv : owner.returns = .void
      · simp [hv] at hrest
      · rw [if_neg hv] at hrest
        have hfit : (typeOf s e).value.assignable owner.returns = true := by simpa using hrest
        exact .ret s span e _ hval hv (.of_assignable (hval.known hs) ho hfit)
  | .eval span e, h => by
      rw [checkStmt] at h ⊢
      exact .eval s span e _ (typeOf_clean hs e ((Check.clean_bind _ _).mp h).1)

theorem checkBlock_clean {s : Surroundings} (hs : Known s) {owner : Signature}
    (ho : owner.returns ≠ .unknown) : ∀ b, (checkBlock s owner b).Clean →
      BlockOk owner.returns s (checkBlock s owner b).value
  | .mk span body, h => by
      rw [checkBlock] at h ⊢
      exact .mk s span _ (checkStmts_clean hs.block ho body ((Check.clean_bind _ _).mp h).1)

theorem checkCond_clean {s : Surroundings} (hs : Known s) {owner : Signature}
    (ho : owner.returns ≠ .unknown) : ∀ c, (checkCond s owner c).Clean →
      CondOk owner.returns s (checkCond s owner c).value
  | .mk span test consequent alternate, h => by
      rw [checkCond] at h ⊢
      simp only [Check.clean_bind] at h
      exact .mk s span test _ _ (checkCondition_clean hs h.1)
        (checkBlock_clean hs ho consequent h.2.1) (checkElse_clean hs ho alternate h.2.2.1)

theorem checkElse_clean {s : Surroundings} (hs : Known s) {owner : Signature}
    (ho : owner.returns ≠ .unknown) : ∀ a, (checkElse s owner a).Clean →
      ElseOk owner.returns s (checkElse s owner a).value
  | .absent, _ => by
      rw [checkElse]
      exact .absent s
  | .block b, h => by
      rw [checkElse] at h ⊢
      exact .block s _ (checkBlock_clean hs ho b ((Check.clean_bind _ _).mp h).1)
  | .cond c, h => by
      rw [checkElse] at h ⊢
      exact .cond s _ (checkCond_clean hs ho c ((Check.clean_bind _ _).mp h).1)

theorem checkStmts_clean {s : Surroundings} (hs : Known s) {owner : Signature}
    (ho : owner.returns ≠ .unknown) : ∀ ss, (checkStmts s owner ss).Clean →
      StmtsOk owner.returns s (checkStmts s owner ss).value
  | [], _ => by
      rw [checkStmts]
      exact .nil s
  | st :: rest, h => by
      rw [checkStmts] at h ⊢
      simp only [Check.clean_bind] at h
      have hst := checkStmt_clean hs ho st h.1
      exact .cons s _ _ _ hst (checkStmts_clean (hst.known hs) ho rest h.2.1)

end

mutual

/-- Writing types into a statement does not change whether it always returns. -/
theorem checkStmt_alwaysReturns (s : Surroundings) (owner : Signature) : ∀ st : Stmt Unit,
    (checkStmt s owner st).value.1.alwaysReturns = st.alwaysReturns
  | .block b => by
      rw [checkStmt, Stmt.alwaysReturns, ← checkBlock_alwaysReturns s owner b]
      rfl
  | .bind _ _ _ _ _ _ => by
      rw [checkStmt]
      rfl
  | .assign _ _ _ _ => by
      rw [checkStmt]
      rfl
  | .cond c => by
      rw [checkStmt, Stmt.alwaysReturns, ← checkCond_alwaysReturns s owner c]
      rfl
  | .loop _ _ _ => by
      rw [checkStmt]
      rfl
  | .ret _ _ => by
      rw [checkStmt]
      rfl
  | .eval _ _ => by
      rw [checkStmt]
      rfl

theorem checkBlock_alwaysReturns (s : Surroundings) (owner : Signature) : ∀ b : Block Unit,
    (checkBlock s owner b).value.alwaysReturns = b.alwaysReturns
  | .mk _ body => by
      rw [checkBlock, Block.alwaysReturns,
        ← checkStmts_alwaysReturns { s with scope := [] :: s.scope } owner body]
      rfl

theorem checkCond_alwaysReturns (s : Surroundings) (owner : Signature) : ∀ c : Cond Unit,
    (checkCond s owner c).value.alwaysReturns = c.alwaysReturns
  | .mk _ _ consequent alternate => by
      rw [checkCond, Cond.alwaysReturns, ← checkBlock_alwaysReturns s owner consequent,
        ← checkElse_alwaysReturns s owner alternate]
      rfl

theorem checkElse_alwaysReturns (s : Surroundings) (owner : Signature) : ∀ a : Else Unit,
    (checkElse s owner a).value.alwaysReturns = a.alwaysReturns
  | .absent => by
      rw [checkElse]
      rfl
  | .block b => by
      rw [checkElse, Else.alwaysReturns, ← checkBlock_alwaysReturns s owner b]
      rfl
  | .cond c => by
      rw [checkElse, Else.alwaysReturns, ← checkCond_alwaysReturns s owner c]
      rfl

theorem checkStmts_alwaysReturns (s : Surroundings) (owner : Signature) : ∀ ss : List (Stmt Unit),
    anyReturns (checkStmts s owner ss).value = anyReturns ss
  | [] => by
      rw [checkStmts]
      rfl
  | st :: rest => by
      rw [checkStmts, anyReturns, ← checkStmt_alwaysReturns s owner st,
        ← checkStmts_alwaysReturns { s with scope := (checkStmt s owner st).value.2 } owner rest]
      rfl

end

/-! ## Signatures -/

theorem signalParams_clean {signal : Text} {params : List Param} {seen : List Text}
    (h : (signalParams signal seen params).Clean) :
    ∀ p ∈ (signalParams signal seen params).value, p.type.Storable := by
  induction params generalizing seen with
  | nil => exact fun p hp => absurd hp List.not_mem_nil
  | cons q rest ih =>
      rw [signalParams] at h ⊢
      simp only [Check.clean_bind] at h
      obtain ⟨-, href, hrest, -⟩ := h
      obtain ⟨hval, -, hst⟩ := resolveType_clean href
      intro p hp
      rcases List.mem_cons.mp hp with rfl | hp
      · show (resolveType q.declared false).value.Storable
        rw [hval]
        exact hst rfl
      · exact ih hrest p hp

theorem collectSignals_clean {decls : List SignalDecl} {seen : List Text}
    (h : (collectSignals seen decls).Clean) :
    ∀ signal ∈ (collectSignals seen decls).value, ∀ p ∈ signal.params, p.type.Storable := by
  induction decls generalizing seen with
  | nil => exact fun signal hsig => absurd hsig List.not_mem_nil
  | cons d ds ih =>
      rw [collectSignals] at h ⊢
      by_cases hd : d.name.name ∈ seen
      · simp [hd] at h
      · simp only [hd, if_false, Check.clean_bind] at h ⊢
        intro signal hsig
        rcases List.mem_cons.mp hsig with rfl | hsig
        · exact signalParams_clean h.1
        · exact ih h.2.1 signal hsig

/-- A signature all of whose types are known. -/
structure Signature.Known (sig : Signature) : Prop where
  params  : ∀ p ∈ sig.params, p.type.Storable
  returns : sig.returns ≠ .unknown

theorem paramTypes_clean {params : List Param} (h : (paramTypes params).Clean) :
    (paramTypes params).value.length = params.length ∧
      ∀ p ∈ (paramTypes params).value, p.type.Storable := by
  induction params with
  | nil => exact ⟨rfl, fun p hp => absurd hp List.not_mem_nil⟩
  | cons q rest ih =>
      rw [paramTypes] at h ⊢
      simp only [Check.clean_bind] at h
      obtain ⟨href, hrest, -⟩ := h
      obtain ⟨hval, -, hst⟩ := resolveType_clean href
      obtain ⟨hlen, hall⟩ := ih hrest
      refine ⟨congrArg Nat.succ hlen, ?_⟩
      intro p hp
      rcases List.mem_cons.mp hp with rfl | hp
      · show (resolveType q.declared false).value.Storable
        rw [hval]
        exact hst rfl
      · exact hall p hp

theorem signatureOf_clean {f : FunctionDecl Unit} (h : (signatureOf f).Clean) :
    (signatureOf f).value.Known ∧ (signatureOf f).value.params.length = f.params.length := by
  rw [signatureOf] at h ⊢
  obtain ⟨hparams, hrest⟩ := (Check.clean_bind _ _).mp h
  obtain ⟨hlen, hall⟩ := paramTypes_clean hparams
  cases hr : f.returns with
  | none => exact ⟨⟨hall, Ty.noConfusion⟩, hlen⟩
  | some ref =>
      rw [hr] at hrest
      obtain ⟨hval, hk, -⟩ := resolveType_clean ((Check.clean_bind _ _).mp hrest).1
      refine ⟨⟨hall, ?_⟩, hlen⟩
      show (resolveType ref true).value ≠ .unknown
      rw [hval]
      exact hk

/-- Without problems every function is collected with its signature, and the function of a callback
    has one that fits. -/
theorem collectFunctions_all {decls : List (FunctionDecl Unit)} {seen : List Text}
    (h : (collectFunctions seen decls).Clean) :
    (collectFunctions seen decls).value = decls.map (fun f => (f, some (signatureOf f).value)) ∧
      ∀ f ∈ decls, (signatureOf f).Clean ∧ ∀ k, Lifecycle.ofFunction? f.name.name = some k →
        fitsLifecycle (signatureOf f).value k = true := by
  induction decls generalizing seen with
  | nil => exact ⟨rfl, fun f hf => absurd hf List.not_mem_nil⟩
  | cons f fs ih =>
      rw [collectFunctions] at h ⊢
      by_cases hb : (Builtin.ofText? f.name.name).isSome = true
      · simp [hb] at h
      by_cases hd : f.name.name ∈ seen
      · simp [hb, hd] at h
      simp only [hb, hd, Bool.false_eq_true, if_false, Check.clean_bind] at h ⊢
      obtain ⟨hsig, hrest⟩ := h
      -- Only what a callback is checked for depends on whether the function is one of a callback.
      have hmore : (collectFunctions (f.name.name :: seen) fs).Clean ∧
          ∀ k, Lifecycle.ofFunction? f.name.name = some k →
            fitsLifecycle (signatureOf f).value k = true := by
        cases hk : Lifecycle.ofFunction? f.name.name with
        | none =>
            simp only [hk, Check.clean_bind] at hrest
            exact ⟨hrest.1, nofun⟩
        | some k =>
            simp only [hk, Check.clean_bind, Check.clean_reportIf, Bool.not_eq_false'] at hrest
            refine ⟨hrest.2.1, ?_⟩
            rintro _ ⟨⟩
            exact hrest.1
      obtain ⟨hvalue, hall⟩ := ih hmore.1
      refine ⟨?_, ?_⟩
      · rw [List.map_cons, ← hvalue]
        cases Lifecycle.ofFunction? f.name.name <;> rfl
      · intro g hg
        rcases List.mem_cons.mp hg with rfl | hg
        · exact ⟨hsig, hmore.2⟩
        · exact hall g hg

/-- Without problems every function can be called. -/
theorem collectFunctions_clean {decls : List (FunctionDecl Unit)} {seen : List Text}
    (h : (collectFunctions seen decls).Clean) :
    ∀ x ∈ (collectFunctions seen decls).value,
      ∃ sig, x.2 = some sig ∧ sig.Known ∧ sig.params.length = x.1.params.length := by
  obtain ⟨hvalue, hall⟩ := collectFunctions_all h
  intro x hx
  rw [hvalue] at hx
  obtain ⟨f, hf, rfl⟩ := List.mem_map.mp hx
  exact ⟨_, rfl, signatureOf_clean (hall f hf).1⟩

/-! ## Globals -/

/-- The hint of an export; one without a hint has the empty one. -/
def exportHint (mark : ExportMark) (type : Ty) : Check (Option Hint) :=
  match mark.hint with
  | some h => checkHint h type
  | none   => pure (some .none)

/-- The property with a hint and a default value, if the global may be one. -/
def exportProperty (g : GlobalDecl) (type : Ty) : Option Hint → Option Value → Option Property
  | some (.options values), some v =>
      if isOption values v then
        if g.mutable then some ⟨g.name.name, type, .options values, v⟩ else none
      else none
  | some hint, some v => if g.mutable then some ⟨g.name.name, type, hint, v⟩ else none
  | _, _ => none

/-- What checking an export yields, apart from what it reports. -/
theorem checkExport_value (mark : ExportMark) (g : GlobalDecl) (type : Ty) :
    (checkExport mark g type).value =
      if type = .unknown ∨ type.isExportable = false then none
      else exportProperty g type (exportHint mark type).value (constantAs? g.init type) := by
  rw [checkExport, Check.value_bind]
  by_cases hunknown : type = .unknown
  · rw [if_pos hunknown, if_pos (.inl hunknown)]
    rfl
  by_cases hexportable : type.isExportable = false
  · have hnone : (!type.isExportable) = true := by rw [hexportable]; rfl
    rw [if_neg hunknown, if_pos hnone, if_pos (Or.inr hexportable)]
    rfl
  rw [if_neg hunknown, if_neg (not_or.mpr ⟨hunknown, hexportable⟩),
    if_neg (by simpa using hexportable), Check.value_bind, exportHint]
  -- What is left depends on the pair of hint and default, not on where the hint is from.
  generalize constantAs? g.init type = default
  cases mark.hint with
  | none => cases default <;> rfl
  | some h =>
      dsimp only
      rw [Check.value_bind]
      generalize (checkHint h type).value = hint
      cases hint with
      | none => rfl
      | some hint =>
          cases default with
          | none => cases hint <;> rfl
          | some v =>
              cases hint with
              | options values =>
                  dsimp only [exportProperty]
                  split <;> rfl
              | _ => rfl
/-- The property that the export of a global with a type makes. -/
structure Exports (mark : ExportMark) (g : GlobalDecl) (t : Ty) (p : Property) : Prop where
  name       : p.name = g.name.name
  type       : p.type = t
  mutable    : g.mutable = true
  exportable : t.isExportable = true
  hint       : (exportHint mark t).value = some p.hint
  default    : constantAs? g.init t = some p.defaultValue
  listed     : ∀ values, p.hint = .options values → isOption values p.defaultValue = true

/-- Checking an export yields the property that it makes, or none. -/
theorem checkExport_exports {mark : ExportMark} {g : GlobalDecl} {t : Ty} {p : Property}
    (h : (checkExport mark g t).value = some p) : Exports mark g t p := by
  rw [checkExport_value] at h
  split at h
  · cases h
  · next hsome =>
      have hexportable : t.isExportable = true := by
        simpa using (not_or.mp hsome).2
      unfold exportProperty at h
      split at h
      · next values v hhint hdefault =>
          split at h
          · next hlisted =>
              obtain ⟨hmutable, hp⟩ := Option.ite_none_right_eq_some.mp h
              cases hp
              refine ⟨rfl, rfl, hmutable, hexportable, hhint, hdefault, ?_⟩
              rintro _ ⟨⟩
              exact hlisted
          · cases h
      · next hint v hother hhint hdefault =>
          obtain ⟨hmutable, hp⟩ := Option.ite_none_right_eq_some.mp h
          cases hp
          refine ⟨rfl, rfl, hmutable, hexportable, hhint, hdefault, ?_⟩
          rintro values rfl
          exact (hother values rfl).elim
      · cases h

/-- An export that is a property has the name and the type of its global, which is mutable. -/
theorem checkExport_property {mark : ExportMark} {g : GlobalDecl} {type : Ty} {p : Property}
    (h : (checkExport mark g type).value = some p) :
    p.name = g.name.name ∧ p.type = type ∧ g.mutable = true :=
  ⟨(checkExport_exports h).name, (checkExport_exports h).type, (checkExport_exports h).mutable⟩

/-- Globals that obey the rules, each after the ones before it. -/
def GlobalsOk (functions : List Signature) (signals : List Signal) (globals : List GlobalInfo) :
    Prop :=
  ∀ before g after, globals = before ++ g :: after →
    g.WellTyped ⟨functions, signals, true, [before.map GlobalInfo.declared]⟩

theorem GlobalsOk.snoc {functions : List Signature} {signals : List Signal}
    {globals : List GlobalInfo} {g : GlobalInfo} (h : GlobalsOk functions signals globals)
    (hg : g.WellTyped ⟨functions, signals, true, [globals.map GlobalInfo.declared]⟩) :
    GlobalsOk functions signals (globals ++ [g]) := by
  intro before x after heq
  -- The global in question is the new last one, or it was there before.
  rcases List.eq_nil_or_concat after with rfl | ⟨after', y, rfl⟩
  · obtain ⟨rfl, hx⟩ := List.append_inj' heq rfl
    cases hx
    exact hg
  · rw [List.concat_eq_append, ← List.cons_append, ← List.append_assoc] at heq
    obtain ⟨heq', -⟩ := List.append_inj' heq rfl
    exact h before x after' heq'

/-- The variables of globals that obey the rules have known types. -/
theorem GlobalsOk.storable {functions : List Signature} {signals : List Signal}
    {globals : List GlobalInfo} (h : GlobalsOk functions signals globals) :
    ∀ name v, Scope.find? [globals.map GlobalInfo.declared] name = some v → v.type.Storable := by
  intro name v hv
  simp only [Scope.find?, List.findSome?_cons, List.findSome?_nil] at hv
  have hfound : Scope.inFrame? name (globals.map GlobalInfo.declared) = some v := by
    cases hf : Scope.inFrame? name (globals.map GlobalInfo.declared) with
    | none => simp [hf] at hv
    | some w => simpa [hf] using hv
  obtain ⟨g, hg, rfl⟩ := List.mem_map.mp (List.mem_of_find?_eq_some hfound)
  obtain ⟨before, after, rfl⟩ := List.append_of_mem hg
  exact (h before g after rfl).storable

theorem checkGlobals_clean {functions : List Signature} {signals : List Signal}
    (hk : ∀ scope : Scope, (∀ name v, scope.find? name = some v → v.type.Storable) →
      Known ⟨functions, signals, true, scope⟩)
    {decls : List GlobalDecl} {before : List GlobalInfo}
    (hb : GlobalsOk functions signals before)
    (h : (checkGlobals functions signals before decls).Clean) :
    GlobalsOk functions signals (checkGlobals functions signals before decls).value := by
  induction decls generalizing before with
  | nil => exact hb
  | cons g gs ih =>
      rw [checkGlobals] at h ⊢
      simp only [Check.clean_bind, Check.value_bind] at h ⊢
      obtain ⟨htype, -, hrest⟩ := h
      obtain ⟨t, hinit, hfit, hst⟩ := bindingType_clean (hk _ hb.storable) htype
      generalize (bindingType ⟨functions, signals, true, [before.map GlobalInfo.declared]⟩
        g.declared g.init g.name.name).value = type at hfit hst hrest ⊢
      cases hf : Scope.find? [before.map GlobalInfo.declared] g.name.name with
      | some v => simp [hf] at hrest
      | none =>
          -- The global obeys its rules whichever property it turns out to be.
          have ok : ∀ property : Option Property,
              (∀ p, property = some p → p.name = g.name.name ∧ p.type = type ∧ g.mutable = true) →
              GlobalsOk functions signals (before ++ [⟨g, type, property⟩]) :=
            fun property hp => hb.snoc ⟨⟨t, hinit, hfit⟩, hst, hf, hp⟩
          simp only [hf, Option.isSome_none, Bool.false_eq_true, if_false, Check.clean_bind,
            Check.value_bind] at hrest ⊢
          cases he : g.exported with
          | none =>
              simp only [he, Check.clean_bind, Check.value_bind] at hrest ⊢
              exact ih (ok none fun p hp => absurd hp.symm (Option.some_ne_none p)) hrest.2.2
          | some mark =>
              simp only [he, Check.clean_bind, Check.value_bind] at hrest ⊢
              exact ih (ok _ fun p hp => checkExport_property hp) hrest.2.2

/-! ## Bodies -/

/-- Parameters without problems have names of their own, and the scope gains their variables. -/
theorem declareParams_clean {owner : Signature} {s : Surroundings} {rest : Scope}
    {params : List Param} {types : List TypedName} {frame : List Variable}
    (hs : Known { s with scope := frame :: rest }) (hn : params.length = types.length)
    (ht : ∀ t ∈ types, t.type.Storable)
    (h : (declareParams owner (frame :: rest) params types).Clean) :
    (declareParams owner (frame :: rest) params types).value =
        (frame ++ paramVariables params types) :: rest ∧
      Known { s with scope := (frame ++ paramVariables params types) :: rest } ∧
      (params.map fun p => p.name.name).Nodup ∧
      ∀ p ∈ params, Scope.inFrame? p.name.name frame = none := by
  induction params generalizing types frame with
  | nil =>
      simp only [paramVariables, List.zipWith_nil_left, List.append_nil]
      exact ⟨rfl, hs, List.nodup_nil, fun p hp => absurd hp List.not_mem_nil⟩
  | cons p ps ih =>
      cases types with
      | nil => cases hn
      | cons t ts =>
          rw [declareParams] at h ⊢
          simp only [Check.clean_bind, Check.value_bind, List.head?_cons, Option.map_some,
            Option.getD_some, List.tail_cons] at h ⊢
          obtain ⟨-, hdecl, hrest⟩ := h
          have hdef := declare_clean hdecl
          have hfresh : Scope.inFrame? p.name.name frame = none := by
            cases hf : Scope.inFrame? p.name.name frame with
            | none => rfl
            | some v => simp [Scope.define?, hf] at hdef
          have hval : (declare (frame :: rest) ⟨p.name, .param, t.type, false⟩
              (.duplicateParam p.name.name owner.name)).value =
              (frame ++ [⟨p.name, .param, t.type, false⟩]) :: rest := by
            have hdef' := hdef.symm
            simp only [Scope.define?, hfresh, Option.isSome_none, Bool.false_eq_true, if_false,
              Option.some.injEq] at hdef'
            exact hdef'
          rw [hval] at hdef hrest ⊢
          obtain ⟨heq, hknown, hnodup, hnone⟩ :=
            ih (hs.define (ht t List.mem_cons_self) hdef) (Nat.succ.inj hn)
              (fun u hu => ht u (List.mem_cons_of_mem t hu)) hrest
          have happ : frame ++ [⟨p.name, .param, t.type, false⟩] ++ paramVariables ps ts =
              frame ++ paramVariables (p :: ps) (t :: ts) := by
            rw [List.append_assoc]
            rfl
          rw [happ] at heq hknown
          -- The later parameters are new beside `p` as well, which is what makes the names distinct.
          have hsplit : ∀ q ∈ ps, Scope.inFrame? q.name.name frame = none ∧
              p.name.name ≠ q.name.name := by
            intro q hq
            have hq' := hnone q hq
            rw [Scope.inFrame?_append, Option.or_eq_none_iff] at hq'
            exact ⟨hq'.1, fun he => by simp [he] at hq'⟩
          refine ⟨heq, hknown, ?_, ?_⟩
          · rw [List.map_cons, List.nodup_cons]
            refine ⟨fun hm => ?_, hnodup⟩
            obtain ⟨q, hq, hqn⟩ := List.mem_map.mp hm
            exact (hsplit q hq).2 hqn.symm
          · intro q hq
            rcases List.mem_cons.mp hq with rfl | hq
            · exact hfresh
            · exact (hsplit q hq).1

/-- A function whose body has no problems obeys the rules. -/
theorem checkBody_clean {s : Surroundings} (hs : Known s) {sig : Signature}
    {f : FunctionDecl Unit} (hsig : sig.Known) (hn : sig.params.length = f.params.length)
    (h : (checkBody s sig f).Clean) :
    FunctionInfo.WellTyped s ⟨sig, (checkBody s sig f).value⟩ := by
  rw [checkBody] at h ⊢
  simp only [Check.clean_bind, Check.clean_reportIf, Check.value_bind, Check.value_pure] at h ⊢
  obtain ⟨hparams, hbody, hends, -⟩ := h
  obtain ⟨hval, hknown, hnodup, -⟩ := declareParams_clean hs.block hn.symm hsig.params hparams
  rw [hval] at hbody ⊢
  refine ⟨hn.symm, hnodup, hsig.params, hsig.returns,
    checkStmts_clean hknown hsig.returns f.body.body hbody, ?_⟩
  by_cases hv : sig.returns = .void
  · exact .inl hv
  · right
    have halways : f.body.alwaysReturns = true := by
      simpa [hv, hsig.returns] using hends
    -- The check was made on the body as it was written, the rule is about the one with types.
    show anyReturns (checkStmts _ sig _).value = true
    rw [checkStmts_alwaysReturns]
    cases hb : f.body with
    | mk span body => rwa [hb] at halways

/-- The signatures of the functions that can be called. -/
theorem checkBodies_signatures (s : Surroundings)
    (collected : List (FunctionDecl Unit × Option Signature)) :
    (checkBodies s collected).value.map FunctionInfo.signature = collected.filterMap Prod.snd := by
  induction collected with
  | nil => rfl
  | cons entry rest ih =>
      obtain ⟨f, signature⟩ := entry
      rw [checkBodies]
      cases signature with
      | none => exact ih
      | some sig => exact congrArg (sig :: ·) ih

/-- The bodies of callable functions, checked without problems. -/
theorem checkBodies_clean {s : Surroundings} (hs : Known s)
    {collected : List (FunctionDecl Unit × Option Signature)}
    (hc : ∀ x ∈ collected, ∃ sig, x.2 = some sig ∧ sig.Known ∧
      sig.params.length = x.1.params.length)
    (h : (checkBodies s collected).Clean) : ∀ f ∈ (checkBodies s collected).value, f.WellTyped s := by
  induction collected with
  | nil => exact fun f hf => absurd hf List.not_mem_nil
  | cons x rest ih =>
      obtain ⟨f, sig?⟩ := x
      obtain ⟨sig, rfl, hsig, hn⟩ := hc _ List.mem_cons_self
      rw [checkBodies] at h ⊢
      simp only [Check.clean_bind, Check.value_bind, Option.getD_some, Check.value_pure] at h ⊢
      intro g hg
      rcases List.mem_cons.mp hg with rfl | hg
      · exact checkBody_clean hs hsig hn h.1
      · exact ih (fun y hy => hc y (List.mem_cons_of_mem _ hy)) h.2.1 g hg

/-! ## Scripts -/

/-- **A script without problems is well typed.** -/
theorem checkProgram_wellTyped {p : Program Unit}
    (h : ∀ q span, Finding.problem q span ∉ (checkProgram p).findings) :
    (checkProgram p).WellTyped := by
  have hclean : (do
      let signals ← collectSignals [] p.signals
      let collected ← collectFunctions [] p.functions
      let signatures := collected.filterMap Prod.snd
      let globals ← checkGlobals signatures signals [] p.globals
      let functions ← checkBodies
        ⟨signatures, signals, false, [globals.map GlobalInfo.declared]⟩ collected
      return (functions, globals, signals) :
        Check (List FunctionInfo × List GlobalInfo × List Signal)).Clean := h
  simp only [Check.clean_bind] at hclean
  obtain ⟨hsignals, hfunctions, hglobals, hbodies, -⟩ := hclean
  have hsig := collectSignals_clean hsignals
  have hfun := collectFunctions_clean hfunctions
  -- Globals and bodies see the same functions and signals; only their scopes differ.
  have known : ∀ (initializing : Bool) (scope : Scope),
      (∀ name v, scope.find? name = some v → v.type.Storable) →
      Known ⟨(collectFunctions [] p.functions).value.filterMap Prod.snd,
        (collectSignals [] p.signals).value, initializing, scope⟩ := by
    intro initializing scope hscope
    refine ⟨hscope, ?_, ?_⟩
    · intro name f hf
      obtain ⟨x, hx, hxf⟩ := List.mem_filterMap.mp (List.mem_of_find?_eq_some hf)
      obtain ⟨sig, hxs, hk, -⟩ := hfun x hx
      rw [hxf] at hxs
      cases hxs
      exact ⟨hk.returns, hk.params⟩
    · intro name signal hs
      exact hsig signal (List.mem_of_find?_eq_some hs)
  have hg := checkGlobals_clean (known true) (fun before g after heq => by simp at heq) hglobals
  have hsigs : (checkProgram p).functions.map FunctionInfo.signature =
      (collectFunctions [] p.functions).value.filterMap Prod.snd := checkBodies_signatures _ _
  have hall := checkBodies_clean (known false _ hg.storable) hfun hbodies
  refine ⟨?_, ?_, hsig⟩
  · intro before g after heq
    -- The functions of the result carry the signatures that the globals were checked with.
    have hwt := hg before g after heq
    rw [← hsigs] at hwt
    exact hwt
  · intro f hf
    have hsur : (checkProgram p).surroundings = ⟨_, _, _, _⟩ :=
      congrArg (fun fs => Surroundings.mk fs _ _ _) hsigs
    rw [hsur]
    exact hall f hf

end SceneScript
