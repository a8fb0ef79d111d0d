import SceneScript.Proofs.Eval.Values
import SceneScript.Proofs.Number.Integers
import SceneScript.Proofs.Typing.Accepted

/-!
# The properties of a script that compiles

What is known of a property: the global that it is, where its parts come from, and which hints it
can have. An option list belongs to an integer or a text and has the default in it. The bounds of
a range are constants of the type that the property has, and they are in order; the default is not
asked to lie between them.

* **`rangeHint_value`**, **`checkHint_cases`** — what a hint is that was checked.
* **`Exports.options_type`**, **`Exports.range_ints`** — the same of a property.
* **`checkGlobals_exports`** — every property is made by the export of its global;
  **`Script.Accepted.exports`** — so it is in a script that compiles.
-/

namespace SceneScript

/-! ## Hints -/

/-- The numbers of a range are constant arguments. -/
theorem rangeNumbers_value {type : Ty} {args : List Expr} {xs : List Binary64}
    (h : (rangeNumbers type args).value = some xs) :
    ∀ x ∈ xs, ∃ arg ∈ args, (constantAs? arg type).bind Value.number? = some x := by
  induction args generalizing xs with
  | nil =>
      cases h
      exact fun x hx => absurd hx List.not_mem_nil
  | cons arg rest ih =>
      rw [rangeNumbers] at h
      cases hx : (constantAs? arg type).bind Value.number? with
      | none =>
          rw [hx] at h
          cases h
      | some x =>
          rw [hx] at h
          obtain ⟨ys, hys, rfl⟩ := Option.map_eq_some_iff.mp h
          intro y hy
          rcases List.mem_cons.mp hy with rfl | hy
          · exact ⟨arg, List.mem_cons_self, hx⟩
          · obtain ⟨a, ha, hay⟩ := ih hys y hy
            exact ⟨a, List.mem_cons_of_mem arg ha, hay⟩

/-- A number of a range of integers is an integer. -/
theorem rangeNumbers_int {args : List Expr} {xs : List Binary64}
    (h : (rangeNumbers .i32 args).value = some xs) {x : Binary64} (hx : x ∈ xs) :
    ∃ n : Int32, x = .ofInt32 n := by
  obtain ⟨arg, -, hnumber⟩ := rangeNumbers_value h x hx
  obtain ⟨v, hv, hvx⟩ := Option.bind_eq_some_iff.mp hnumber
  obtain ⟨u, -, hu⟩ := Option.bind_eq_some_iff.mp hv
  have htype := Value.coerce?_type hu
  cases v <;> cases htype
  exact ⟨_, (Option.some.inj hvx).symm⟩

/-- A hint for a range gives two of its numbers, the first of which is not above the second; the
    step is the third one, or that of the type. -/
theorem rangeHint_value {h : HintCall} {type : Ty} {hint : Hint}
    (hv : (rangeHint h type).value = some hint) :
    ∃ min max more, hint = .range min max (more.head?.getD (defaultStep type)) ∧
      (rangeNumbers type h.args).value = some (min :: max :: more) ∧ max.lt min = false := by
  unfold rangeHint at hv
  split at hv
  · cases hv
  split at hv
  · cases hv
  rw [Check.value_bind] at hv
  split at hv
  · next min max more hnumbers =>
      split at hv
      · cases hv
      · next horder =>
          dsimp only at hv
          split at hv
          · cases hv
          · cases hv
            exact ⟨min, max, more, rfl, hnumbers, Bool.eq_false_iff.mpr horder⟩
  · cases hv

/-- A hint is a range, or it lists texts: as options of an integer or a text, or as the filter of a
    text. -/
theorem checkHint_cases {h : HintCall} {type : Ty} {hint : Hint}
    (hv : (checkHint h type).value = some hint) :
    (rangeHint h type).value = some hint ∨
      (∃ ts, (hintTexts h).value = some ts ∧ hint = .options ts) ∧
        (type = .i32 ∨ type = .string) ∨
      (∃ ts, (hintTexts h).value = some ts ∧ hint = .file (Text.join "," ts)) ∧
        type = .string := by
  unfold checkHint at hv
  split at hv
  · exact .inl hv
  split at hv
  · split at hv
    · next htype =>
        obtain ⟨ts, hts, rfl⟩ := Option.map_eq_some_iff.mp hv
        exact .inr (.inl ⟨⟨ts, hts, rfl⟩, htype⟩)
    · cases hv
  split at hv
  · split at hv
    · next htype =>
        obtain ⟨ts, hts, rfl⟩ := Option.map_eq_some_iff.mp hv
        exact .inr (.inr ⟨⟨ts, hts, rfl⟩, htype⟩)
    · cases hv
  · cases hv

/-- A hint that is a range is checked as one. -/
theorem checkHint_range {h : HintCall} {type : Ty} {min max step : Binary64}
    (hv : (checkHint h type).value = some (.range min max step)) :
    (rangeHint h type).value = some (.range min max step) := by
  obtain hrange | ⟨⟨ts, -, hts⟩, -⟩ | ⟨⟨ts, -, hts⟩, -⟩ := checkHint_cases hv
  · exact hrange
  · cases hts
  · cases hts

/-- A hint that lists options is for integers or texts. -/
theorem checkHint_options {h : HintCall} {type : Ty} {values : List Text}
    (hv : (checkHint h type).value = some (.options values)) : type = .i32 ∨ type = .string := by
  obtain hrange | ⟨-, htype⟩ | ⟨-, htype⟩ := checkHint_cases hv
  · obtain ⟨_, _, _, hhint, -⟩ := rangeHint_value hrange
    cases hhint
  · exact htype
  · exact .inr htype

/-! ## Properties -/

namespace Exports

variable {mark : ExportMark} {g : GlobalDecl} {t : Ty} {p : Property}

/-- The hint of a property was checked, unless there is none. -/
theorem checked (h : Exports mark g t p) (hhint : p.hint ≠ .none) :
    ∃ call, (checkHint call p.type).value = some p.hint := by
  have hvalue := h.hint
  rw [exportHint] at hvalue
  split at hvalue
  · next call _ => exact ⟨call, h.type ▸ hvalue⟩
  · exact absurd (Option.some.inj hvalue).symm hhint

theorem default_type (h : Exports mark g t p) : p.defaultValue.type = p.type := by
  obtain ⟨v, -, hv⟩ := Option.bind_eq_some_iff.mp h.default
  rw [h.type, Value.coerce?_type hv]

/-- Options are listed for integers and texts only. -/
theorem options_type (h : Exports mark g t p) {values : List Text}
    (hhint : p.hint = .options values) : p.type = .i32 ∨ p.type = .string := by
  obtain ⟨call, hcall⟩ := h.checked (by rw [hhint]; exact Hint.noConfusion)
  rw [hhint] at hcall
  exact checkHint_options hcall

/-- The range of an integer lies between two integers, which are in order. -/
theorem range_ints (h : Exports mark g t p) {min max step : Binary64}
    (hhint : p.hint = .range min max step) (htype : p.type = .i32) :
    ∃ a b : Int32, min = .ofInt32 a ∧ max = .ofInt32 b ∧ a.toInt ≤ b.toInt := by
  obtain ⟨call, hcall⟩ := h.checked (by rw [hhint]; exact Hint.noConfusion)
  rw [hhint, htype] at hcall
  obtain ⟨_, _, more, heq, hnumbers, horder⟩ := rangeHint_value (checkHint_range hcall)
  cases heq
  obtain ⟨a, ha⟩ := rangeNumbers_int hnumbers List.mem_cons_self
  obtain ⟨b, hb⟩ := rangeNumbers_int hnumbers (List.mem_cons_of_mem _ List.mem_cons_self)
  rw [ha, hb, Binary64.lt_ofInt32, decide_eq_false_iff_not, not_lt] at horder
  exact ⟨a, b, ha, hb, horder⟩

end Exports

/-! ## Globals -/

/-- The property of a global, if it has one, is made by its export. -/
def GlobalInfo.IsExport (g : GlobalInfo) : Prop :=
  ∀ p, g.property = some p → ∃ mark, g.decl.exported = some mark ∧ Exports mark g.decl g.type p

theorem checkGlobals_exports (functions : List Signature) (signals : List Signal)
    (decls : List GlobalDecl) :
    ∀ before : List GlobalInfo, (∀ g ∈ before, g.IsExport) →
      ∀ g ∈ (checkGlobals functions signals before decls).value, g.IsExport := by
  induction decls with
  | nil => exact fun before hb => hb
  | cons d rest ih =>
      intro before hb
      rw [checkGlobals]
      simp only [Check.value_bind]
      generalize (bindingType ⟨functions, signals, true, [before.map GlobalInfo.declared]⟩
        d.declared d.init d.name.name).value = type
      have hmore : ∀ property : Option Property, GlobalInfo.IsExport ⟨d, type, property⟩ →
          ∀ g ∈ before ++ [⟨d, type, property⟩], g.IsExport := fun property hp =>
        List.forall_mem_append.mpr ⟨hb, List.forall_mem_singleton.mpr hp⟩
      split
      · exact ih before hb
      · rw [Check.value_bind]
        cases hmark : d.exported with
        | none => exact ih _ (hmore none fun p hp => by cases hp)
        | some mark =>
            exact ih _ (hmore _ fun p hp => ⟨mark, hmark, checkExport_exports hp⟩)

/-- The properties of a script that compiles are made by the exports of its globals. -/
theorem Script.Accepted.exports {script : Script} (h : script.Accepted) :
    ∀ g ∈ script.checked.globals, g.IsExport := by
  obtain ⟨source, options, compiled, hcompile, rfl⟩ := h
  obtain ⟨hp, -⟩ := compile_checked hcompile
  rw [hp]
  exact checkGlobals_exports _ _ _ [] fun g hg => absurd hg List.not_mem_nil

/-- A property of a script that compiles is made by the export of a global of its name. -/
theorem Script.Accepted.property_exports {script : Script} (h : script.Accepted) {p : Property}
    (hp : p ∈ script.checked.properties) :
    ∃ g ∈ script.checked.globals, g.property = some p ∧
      ∃ mark, Exports mark g.decl g.type p := by
  obtain ⟨g, hg, hgp⟩ := List.mem_filterMap.mp hp
  obtain ⟨mark, -, hexports⟩ := h.exports g hg p hgp
  exact ⟨g, hg, hgp, mark, hexports⟩

end SceneScript
