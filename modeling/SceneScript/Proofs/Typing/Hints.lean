import SceneScript.Proofs.Eval.Stored
import SceneScript.Proofs.Number.Printing
import SceneScript.Proofs.Text.Splitting
import SceneScript.Proofs.Typing.Exports

/-!
# The text of a hint reads back

The parts of a list are separated by commas, and neither a listed text nor the text of a finite
number has one inside, so the parts come back. A listed text comes back as it is. A number of a
range is a constant that was rounded, so it is a number of the format and comes back too; the only
one that does not is the zero with a sign. A bound can also be infinite, because the literals that
it is made of are rounded to single precision, and then the text is no hint.

* **`Binary64.Exact`** — a number that the format has; **`exact_rangeHint`** — the numbers of a
  range are.
* **`Hint.parse?_range`**, **`Hint.parse?_options`**, **`Hint.parse?_file`** — what is read.
* **`Exports.hint_cases`** — the hints of properties.
-/

namespace SceneScript

/-! ## Parts of a text -/

namespace Text

theorem flatMap_intercalate {α β : Type} (f : α → List β) (sep : List α) (parts : List (List α)) :
    (sep.intercalate parts).flatMap f =
      (sep.flatMap f).intercalate (parts.map fun xs => xs.flatMap f) := by
  induction parts with
  | nil => rfl
  | cons xs parts ih =>
      cases parts with
      | nil => simp
      | cons ys parts =>
          rw [List.intercalate_cons_cons, List.flatMap_append, List.flatMap_append, ih]
          exact List.intercalate_cons_cons.symm

/-- Strings that are joined are texts that are joined. -/
theorem ofString_intercalate (sep : String) (parts : List String) :
    ofString (sep.intercalate parts) = join sep (parts.map ofString) := by
  rw [ofString, join, String.toList_intercalate, flatMap_intercalate, List.map_map, List.map_map]
  rfl

end Text

/-! ## Numbers of the format -/

namespace Binary64

/-- A number that double precision has, if it is finite. -/
def Exact (x : Binary64) : Prop := ∀ s n, x = .finite s n → binary64.Holds n

/-- The number without the sign of a zero. -/
def plain : Binary64 → Binary64
  | .finite s n => .finite (s && n != 0) n
  | x           => x

theorem plain_eq_self {x : Binary64} : x.plain = x ↔ x ≠ .finite true 0 := by
  cases x with
  | nan => exact iff_of_true rfl (by decide)
  | infinite s => exact iff_of_true rfl (by simp)
  | finite s n => cases s <;> simp [plain]

theorem exact_round (negative : Bool) (num den : Nat) : (binary64.round negative num den).Exact :=
  fun _ _ h => (Format.round_holds (by decide) h).2

theorem exact_ofInt32 (n : Int32) : (ofInt32 n).Exact := by
  rw [ofInt32, ofInt]
  exact exact_round _ _ _

theorem grid_dvd_single (n : Nat) : binary64.grid n ∣ binary32.grid n := by
  have hgrain : binary64.grain ≤ binary32.grain := by decide
  have hprecision : binary32.precision ≤ binary64.precision := by decide
  exact Nat.pow_dvd_pow 2 (by omega)

/-- Single precision is part of double precision. -/
theorem exact_toSingle {x : Binary64} (h : x.toSingle = x) : x.Exact := by
  rintro s n rfl
  rw [toSingle] at h
  obtain ⟨-, hgrid, hlimit⟩ := Format.round_holds (by decide) h
  obtain ⟨k, hk, hsingle⟩ := limit_binary32
  obtain ⟨l, hl, hdouble⟩ := limit_binary64
  have hless : k ≤ l := by omega
  refine ⟨(grid_dvd_single n).trans hgrid, ?_⟩
  rw [hsingle] at hlimit
  rw [hdouble]
  exact hlimit.trans_le (Nat.pow_le_pow_right (Nat.succ_pos 1) hless)

end Binary64

/-! ## Reading hints -/

namespace Hint

/-- The text of a finite number has no comma. -/
theorem contains_numberText {x : Binary64} (h : x.isFinite = true) :
    (Text.ofString (numberText x)).contains ',' = false := by
  cases x with
  | nan => cases h
  | infinite s => cases h
  | finite s n =>
      have hnumeral := numberText_numeral s n
      rw [Text.ofString_numeral hnumeral, Text.contains, List.contains_eq_mem,
        decide_eq_false_iff_not]
      intro hmem
      obtain ⟨c, hc, hunit⟩ := List.mem_map.mp hmem
      refine unitOf_numeral_notMem c (hnumeral c hc) ?_
      rw [hunit]
      decide

theorem readNumber_exact {x : Binary64} (h : x.isFinite = true) (hx : x.Exact) :
    readNumber (numberText x) = x.plain := by
  cases x with
  | nan => cases h
  | infinite s => cases h
  | finite s n => exact readNumber_numberText (hx s n rfl) s

theorem isFinite_plain (x : Binary64) : x.plain.isFinite = x.isFinite := by cases x <;> rfl

/-- A range of finite numbers comes back without the signs of zeros. -/
theorem parse?_range {min max step : Binary64}
    (h : ∀ x ∈ [min, max, step], x.isFinite = true ∧ x.Exact) :
    parse? .range (text (.range min max step)) =
      some (.range min.plain max.plain step.plain) := by
  have hsplit : (text (.range min max step)).splitOn ',' =
      [min, max, step].map fun x => Text.ofString (numberText x) := by
    rw [text, Text.ofString_intercalate, List.map_map]
    refine Text.splitOn_join rfl (by simp) fun t ht => ?_
    obtain ⟨x, hx, rfl⟩ := List.mem_map.mp ht
    exact contains_numberText (h x hx).1
  have hread : [min, max, step].map (fun x => readNumber (numberText x)) =
      [min.plain, max.plain, step.plain] :=
    List.map_congr_left fun x hx => readNumber_exact (h x hx).1 (h x hx).2
  have hfinite : ∀ x ∈ [min, max, step], x.plain.isFinite = true := fun x hx =>
    (isFinite_plain x).trans (h x hx).1
  simp only [parse?, hsplit, List.map_map, Function.comp_def, hread]
  simp [hfinite]

/-- What is read as a range has finite numbers. -/
theorem isFinite_of_parse? {t : Text} {min max step : Binary64}
    (h : parse? .range t = some (.range min max step)) :
    ∀ x ∈ [min, max, step], x.isFinite = true := by
  simp only [parse?] at h
  split at h
  · split at h
    · next hfinite =>
        cases h
        simpa [and_assoc] using hfinite
    · cases h
  · cases h

/-- The numbers of a range. -/
def numbers : Hint → List Binary64
  | .range min max step => [min, max, step]
  | _                   => []

/-- A range of numbers of the format comes back exactly when they are finite and none of them is a
    zero with a sign. -/
theorem range_reads_back {min max step : Binary64} (h : ∀ x ∈ [min, max, step], x.Exact) :
    parse? .range (text (.range min max step)) = some (.range min max step) ↔
      ∀ x ∈ [min, max, step], x.isFinite = true ∧ x ≠ .finite true 0 := by
  have hread (hfinite : ∀ x ∈ [min, max, step], x.isFinite = true) :=
    parse?_range fun x hx => ⟨hfinite x hx, h x hx⟩
  constructor
  · intro heq
    have hfinite := isFinite_of_parse? heq
    rw [hread hfinite] at heq
    injection heq with heq
    injection heq with hmin hmax hstep
    have hplain : ∀ x ∈ [min, max, step], x.plain = x := by simp [hmin, hmax, hstep]
    exact fun x hx => ⟨hfinite x hx, Binary64.plain_eq_self.mp (hplain x hx)⟩
  · intro hall
    have hplain (x : Binary64) (hx : x ∈ [min, max, step]) : x.plain = x :=
      Binary64.plain_eq_self.mpr (hall x hx).2
    rw [hread fun x hx => (hall x hx).1, hplain min (by simp), hplain max (by simp),
      hplain step (by simp)]

/-- A list without empty texts and without commas. -/
def Listable (ts : List Text) : Prop :=
  ts ≠ [] ∧ ∀ t ∈ ts, t.isEmpty = false ∧ t.contains ',' = false

theorem Listable.isEmpty_join {ts : List Text} (h : Listable ts) :
    (Text.join "," ts).isEmpty = false := by
  obtain ⟨t, rest, rfl⟩ := List.exists_cons_of_ne_nil h.1
  have ht : t.units ≠ [] := by simpa [Text.isEmpty] using (h.2 t List.mem_cons_self).1
  cases rest with
  | nil => simpa [Text.isEmpty, Text.join] using ht
  | cons s rest => simp [Text.isEmpty, Text.join, ht]

/-- Options come back. -/
theorem parse?_options {values : List Text} (h : Listable values) :
    parse? .options (text (.options values)) = some (.options values) := by
  have hsep : (Text.ofString ",").units = [unitOf ','] := rfl
  rw [parse?, text, h.isEmpty_join, Text.splitOn_join hsep h.1 fun t ht => (h.2 t ht).2]
  rfl

/-- A filter comes back. -/
theorem parse?_file {filter : Text} (h : filter.isEmpty = false) :
    parse? .file (text (.file filter)) = some (.file filter) := by
  rw [parse?, text, h]
  rfl

end Hint

/-! ## Hints of properties -/

theorem isStored_constant {e : Expr} {v : Value} (h : constant? e = some v) : v.IsStored := by
  unfold constant? at h
  split at h
  · cases h
    rfl
  · cases h
    exact Value.isStored_ofFloat _
  · cases h
    rfl
  · cases h
    rfl
  · split at h <;> cases h <;> first | rfl | exact Value.isStored_ofFloat _
  · split at h
    · obtain ⟨fields, -, hbuild⟩ := Option.bind_eq_some_iff.mp h
      exact Value.isStored_build? hbuild
    · cases h
  · cases h

/-- A constant that is a number is one of the format. -/
theorem exact_constantAs {e : Expr} {t : Ty} {x : Binary64}
    (h : (constantAs? e t).bind Value.number? = some x) : x.Exact := by
  obtain ⟨v, hv, hx⟩ := Option.bind_eq_some_iff.mp h
  obtain ⟨u, hu, hcoerce⟩ := Option.bind_eq_some_iff.mp hv
  have hstored := (isStored_constant hu).coerce? hcoerce
  cases v with
  | int n => exact Option.some.inj hx ▸ Binary64.exact_ofInt32 n
  | float y =>
      obtain rfl : y = x := Option.some.inj hx
      exact Binary64.exact_toSingle (Value.float.inj hstored)
  | _ => cases hx

theorem exact_defaultStep (type : Ty) : (defaultStep type).Exact := by
  rw [defaultStep]
  split <;> exact Binary64.exact_round _ _ _

/-- The numbers of a range are numbers of the format. -/
theorem exact_rangeHint {h : HintCall} {type : Ty} {min max step : Binary64}
    (hv : (rangeHint h type).value = some (.range min max step)) :
    ∀ x ∈ [min, max, step], x.Exact := by
  obtain ⟨a, b, more, heq, hnumbers, -⟩ := rangeHint_value hv
  cases heq
  have hexact : ∀ x ∈ min :: max :: more, x.Exact := fun x hx =>
    let ⟨_, _, harg⟩ := rangeNumbers_value hnumbers x hx
    exact_constantAs harg
  have hstep : (more.head?.getD (defaultStep type)).Exact := by
    cases more with
    | nil => exact exact_defaultStep type
    | cons x more => exact hexact x (by simp)
  intro x hx
  simp only [List.mem_cons, List.not_mem_nil, or_false] at hx
  rcases hx with rfl | rfl | rfl
  · exact hexact _ (by simp)
  · exact hexact _ (by simp)
  · exact hstep

theorem listable?_some {e : Expr} {t : Text} (h : listable? e = some t) :
    t.isEmpty = false ∧ t.contains ',' = false := by
  unfold listable? at h
  split at h
  · split at h
    · cases h
    · next hno =>
        cases h
        simpa using hno
  · cases h

theorem listedTexts_value {hint : Text} {args : List Expr} {ts : List Text}
    (h : (listedTexts hint args).value = some ts) :
    ts.length = args.length ∧ ∀ t ∈ ts, t.isEmpty = false ∧ t.contains ',' = false := by
  induction args generalizing ts with
  | nil =>
      cases h
      exact ⟨rfl, fun t ht => absurd ht List.not_mem_nil⟩
  | cons arg rest ih =>
      rw [listedTexts] at h
      cases ht : listable? arg with
      | none =>
          rw [ht] at h
          cases h
      | some t =>
          rw [ht] at h
          obtain ⟨us, hus, rfl⟩ := Option.map_eq_some_iff.mp h
          obtain ⟨hlength, hall⟩ := ih hus
          exact ⟨congrArg (· + 1) hlength, List.forall_mem_cons.mpr ⟨listable?_some ht, hall⟩⟩

/-- The texts that a hint lists can be told apart in its text. -/
theorem listable_hintTexts {h : HintCall} {ts : List Text}
    (hv : (hintTexts h).value = some ts) : Hint.Listable ts := by
  unfold hintTexts at hv
  split at hv
  · cases hv
  · next hargs =>
      obtain ⟨hlength, hall⟩ := listedTexts_value hv
      refine ⟨?_, hall⟩
      rintro rfl
      exact hargs (by simpa using hlength.symm)

namespace Exports

variable {mark : ExportMark} {g : GlobalDecl} {t : Ty} {p : Property}

/-- What a property has for a hint. -/
theorem hint_cases (h : Exports mark g t p) :
    p.hint = .none ∨
      (∃ min max step, p.hint = .range min max step ∧ ∀ x ∈ [min, max, step], x.Exact) ∨
      (∃ ts, p.hint = .options ts ∧ Hint.Listable ts) ∨
      ∃ filter, p.hint = .file filter ∧ filter.isEmpty = false := by
  by_cases hnone : p.hint = .none
  · exact .inl hnone
  obtain ⟨call, hcall⟩ := h.checked hnone
  obtain hrange | ⟨⟨ts, hts, hhint⟩, -⟩ | ⟨⟨ts, hts, hhint⟩, -⟩ := checkHint_cases hcall
  · obtain ⟨min, max, more, hhint, -⟩ := rangeHint_value hrange
    rw [hhint] at hrange
    exact .inr (.inl ⟨min, max, _, hhint, exact_rangeHint hrange⟩)
  · exact .inr (.inr (.inl ⟨ts, hhint, listable_hintTexts hts⟩))
  · exact .inr (.inr (.inr ⟨_, hhint, (listable_hintTexts hts).isEmpty_join⟩))

/-- The hint of a property comes back exactly when its numbers are finite and none of them is a
    zero with a sign. -/
theorem reads_back (h : Exports mark g t p) :
    Hint.parse? p.hint.kind p.hint.text = some p.hint ↔
      ∀ x ∈ p.hint.numbers, x.isFinite = true ∧ x ≠ .finite true 0 := by
  have hnumbers {hint : Hint} (hnone : hint.numbers = []) :
      ∀ x ∈ hint.numbers, x.isFinite = true ∧ x ≠ .finite true 0 := fun x hx =>
    absurd (hnone ▸ hx) List.not_mem_nil
  obtain hhint | ⟨min, max, step, hhint, hexact⟩ | ⟨ts, hhint, hts⟩ | ⟨filter, hhint, hsome⟩ :=
    h.hint_cases <;> rw [hhint]
  · exact iff_of_true rfl (hnumbers rfl)
  · exact Hint.range_reads_back hexact
  · exact iff_of_true (Hint.parse?_options hts) (hnumbers rfl)
  · exact iff_of_true (Hint.parse?_file hsome) (hnumbers rfl)

/-- The numbers of the range of an integer are integers. -/
theorem numbers_int (h : Exports mark g t p) (htype : p.type = .i32) :
    ∀ x ∈ p.hint.numbers, ∃ n : Int32, x = .ofInt32 n := by
  cases hhint : p.hint with
  | range min max step =>
      obtain ⟨call, hcall⟩ := h.checked (by rw [hhint]; exact Hint.noConfusion)
      rw [hhint, htype] at hcall
      obtain ⟨_, _, more, heq, hnumbers, -⟩ := rangeHint_value (checkHint_range hcall)
      cases heq
      have hint : ∀ x ∈ min :: max :: more, ∃ n : Int32, x = .ofInt32 n := fun x =>
        rangeNumbers_int hnumbers
      have hstep : ∃ n : Int32, more.head?.getD (defaultStep .i32) = .ofInt32 n := by
        cases more with
        | nil => exact ⟨1, by decide +kernel⟩
        | cons x more => exact hint x (by simp)
      intro x hx
      simp only [Hint.numbers, List.mem_cons, List.not_mem_nil, or_false] at hx
      rcases hx with rfl | rfl | rfl
      · exact hint _ (by simp)
      · exact hint _ (by simp)
      · exact hstep
  | _ => exact fun x hx => absurd hx List.not_mem_nil

/-- The hint of an integer comes back. -/
theorem reads_back_int (h : Exports mark g t p) (htype : p.type = .i32) :
    Hint.parse? p.hint.kind p.hint.text = some p.hint := by
  refine h.reads_back.mpr fun x hx => ?_
  obtain ⟨n, hn⟩ := h.numbers_int htype x hx
  rw [hn, Binary64.ofInt32_eq]
  have hpos := stepsPerOne_pos
  generalize stepsPerOne = k at hpos
  refine ⟨rfl, fun hzero => ?_⟩
  injection hzero with hsign hsteps
  have hzero : n.toInt = 0 := by simpa [hpos.ne'] using hsteps
  rw [hzero] at hsign
  cases hsign

end Exports

end SceneScript
