import SceneScript.Proofs.Diagnostic.Pipeline
import SceneScript.Proofs.Diagnostic.Suggestions
import SceneScript.Proofs.Typing.Visible

/-!
# What hints propose

The hint of a problem may ask whether another name was meant. It asks for nothing but one of the
names that the problem chooses from, and these exist: a variable is in sight, a function or a signal
is declared, a field belongs to the type, a type may be written.

There is one exception. The table of foreign spellings is a record, and asking it for a name that
every record inherits finds the inherited thing. The hint then shows that, and no type has such a
name.

* **`Problem.hint_candidates`** — a hint that asks for a name has it from one of two places.
* **`Program.Knows`** — a name exists, as what a diagnostic is about.
* **`checkProgram_proposes`** — all proposals of a whole script.
* **`inherited_proposed`** — a type that is proposed and does not exist.
-/

namespace SceneScript

/-! ## Hints that ask -/

theorem meantHint_inj {a b : Text} (h : meantHint a = meantHint b) : a = b := by
  have hunits : (Text.ofString "Did you mean '").units ++ a.units ++ (Text.ofString "'?").units =
      (Text.ofString "Did you mean '").units ++ b.units ++ (Text.ofString "'?").units :=
    congrArg Text.units h
  exact congrArg Text.mk (List.append_cancel_left (List.append_cancel_right hunits))

/-- Other hints begin otherwise. -/
theorem ne_meantHint {s : Text} (h : s.units.take 2 ≠ [unitOf 'D', unitOf 'i']) (n : Text) :
    some s ≠ some (meantHint n) := by
  rintro heq
  exact h (Option.some.inj heq ▸ rfl)

theorem Problem.conversionHint_ne (found expected : Ty) (n : Text) :
    conversionHint found expected ≠ some (meantHint n) := by
  rw [conversionHint]
  split
  · exact ne_meantHint (by decide) n
  · exact fun h => nomatch h

/-- The name that is asked for is one of the known names. -/
theorem mem_of_didYouMean {typo : Text} {known : List Text} {n : Text}
    (h : didYouMean typo known = some (meantHint n)) : n ∈ known := by
  rw [didYouMean] at h
  split at h
  · next best rest hbest =>
      have hmem : best ∈ takeUpTo 1 (rankedNames typo known) := by
        rw [← suggestSimilar_eq, hbest]
        exact List.mem_cons_self
      split at h
      · cases h
      · rw [← meantHint_inj (Option.some.inj h)]
        exact (mem_rankedNames.mp (List.mem_of_mem_take hmem)).1
  · cases h

/-- A hint that shows all names when none is similar asks for one of them. -/
theorem mem_of_fallback {typo : Text} {known : List Text} {s n : Text}
    (hs : s.units.take 2 ≠ [unitOf 'D', unitOf 'i'])
    (h : ((didYouMean typo known).orElse fun _ => some s) = some (meantHint n)) : n ∈ known := by
  cases hmeant : didYouMean typo known with
  | none =>
      rw [hmeant] at h
      exact absurd h (ne_meantHint hs n)
  | some hint =>
      rw [hmeant] at h
      exact mem_of_didYouMean (hmeant.trans h)

/-- The names that a problem chooses from. -/
def Problem.candidates : Problem → List Text
  | .unknownHint _               => ["range", "enum", "file"]
  | .unknownField _ type         => type.fieldNames
  | .unknownStructField _ type   => type.fieldNames
  | .undefinedFunction _ known   => known
  | .undefinedSignal _ known     => known
  | .unknownStruct _             => typeNames structTypes
  | .undefinedVariable _ visible => visible
  | .undefinedType _             => typeNames Ty.writable
  | _                            => []

/-- A hint that asks for a name has it from the names that the problem chooses from, or from the
    table of foreign spellings. -/
theorem Problem.hint_candidates {q : Problem} {n : Text} (h : q.hint = some (meantHint n)) :
    n ∈ q.candidates ∨
      ∃ written, q = .undefinedType written ∧ typeProposal? written = some n := by
  cases q with
  | unknownHint | undefinedFunction | unknownStruct | undefinedVariable =>
      exact .inl (mem_of_didYouMean h)
  | unknownField | undefinedSignal => exact .inl (mem_of_fallback (by rintro ⟨⟩) h)
  | unknownStructField field type =>
      exact .inl (mem_of_fallback (by cases type <;> rintro ⟨⟩) h)
  | undefinedType written =>
      dsimp only [hint] at h
      split at h
      · next proposal hproposal =>
          rw [← meantHint_inj (Option.some.inj h)]
          exact .inr ⟨written, rfl, hproposal⟩
      · exact .inl (mem_of_didYouMean h)
  | initMismatch | assignMismatch | argumentType | signalArgumentType | structFieldType =>
      exact absurd h (conversionHint_ne _ _ n)
  | assignImmutable op name isParam =>
      cases isParam <;> exact absurd h (ne_meantHint (by rintro ⟨⟩) n)
  | defaultNotListed name type values =>
      cases type with
      | i32 =>
          refine absurd h (ne_meantHint ?_ n)
          simp only [Text.ofString, String.toList_append, List.flatMap_append, List.append_assoc]
          rintro ⟨⟩
      | _ => exact absurd h (ne_meantHint (by rintro ⟨⟩) n)
  | lifecycleSignature callback =>
      cases callback <;> exact absurd h (ne_meantHint (by rintro ⟨⟩) n)
  | voidInit | exportImmutable | exportType | exportNotConstant | callInInitializer | notAStruct =>
      exact absurd h (ne_meantHint (by rintro ⟨⟩) n)
  | _ => cases h

/-! ## The table of foreign spellings -/

/-- The names that every record inherits. -/
def inheritedNames : List Text :=
  .ofString "__proto__" :: Problem.inheritedMethods.map fun e => .ofString e.1

/-- The table has types and what records inherit. -/
theorem Problem.typeProposal?_cases {written proposal : Text}
    (h : typeProposal? written = some proposal) :
    written ∈ inheritedNames ∨ proposal ∈ typeNames Ty.writable := by
  have hwritable : ∀ e ∈ foreignTypes, Text.ofString e.2.word ∈ typeNames Ty.writable := by
    decide +kernel
  rw [typeProposal?] at h
  split at h
  · next e hfind =>
      cases h
      exact .inr (hwritable e (List.mem_of_find?_eq_some hfind))
  · split at h
    · next hproto => exact .inl (beq_iff_eq.mp hproto ▸ List.mem_cons_self)
    · obtain ⟨e, hfind, -⟩ := Option.map_eq_some_iff.mp h
      have hname : Text.ofString e.1 = written := by simpa using List.find?_some hfind
      refine .inl (List.mem_cons_of_mem _ (List.mem_map.mpr ⟨e, ?_, hname⟩))
      exact List.mem_of_find?_eq_some hfind

/-- What is proposed for an inherited name is not the name of a type. -/
theorem inherited_notType : ∀ written ∈ inheritedNames,
    (Problem.typeProposal? written).any (fun proposal =>
      !(Problem.typeNames Ty.writable).contains proposal) = true := by
  decide +kernel

/-! ## What exists -/

/-- The name exists, as what the diagnostic is about: a variable in sight of the place, a function
    that is declared or built in, a type that may be written, a field of the type that lacks the
    one, a signal that is declared, a type with struct literals, or a kind of hint. -/
inductive Program.Knows (p : Program Unit) (d : Diagnostic) : Text → Prop where
  | variable (id : Ident) (visible : List Text) {m : Text} : d.code = "E201" →
      d.message = "Undefined variable '" ++ id.name ++ "'" → d.span = id.span →
      (id, visible) ∈ p.lookups → m ∈ visible → Knows p d m
  | function {m : Text} : d.code = "E202" → m ∈ p.functions.map FunctionDecl.key ++ builtinNames →
      Knows p d m
  | type {m : Text} : d.code = "E203" → m ∈ Problem.typeNames Ty.writable → Knows p d m
  | field (type : Ty) (field : Text) {m : Text} : d.code = "E215" →
      d.message = s!"Type {type} has no field '" ++ field ++ "'" → m ∈ type.fieldNames → Knows p d m
  | structField (type : Ty) (field : Text) {m : Text} : d.code = "E703" →
      d.message = s!"{type} has no field '" ++ field ++ "'" → m ∈ type.fieldNames → Knows p d m
  | signal {m : Text} : d.code = "E302" → m ∈ p.signals.map SignalDecl.key → Knows p d m
  | structType {m : Text} : d.code = "E700" →
      m ∈ Problem.typeNames Problem.structTypes → Knows p d m
  | hint {m : Text} : d.code = "E806" → m ∈ (["range", "enum", "file"] : List Text) → Knows p d m

/-- The diagnostic is about a type that is spelt like something that every record inherits. -/
def Diagnostic.NamesInherited (d : Diagnostic) : Prop :=
  d.code = "E203" ∧ ∃ written ∈ inheritedNames, d.message = "Undefined type '" ++ written ++ "'"

/-- The names that a problem chooses from exist. -/
theorem Problem.knows_candidates {p : Program Unit} {q : Problem} {span : Span}
    (hfound : q.FoundIn p.offer span) {m : Text} (hm : m ∈ q.candidates) :
    p.Knows (q.diagnostic span) m := by
  cases q with
  | undefinedVariable name known =>
      obtain ⟨visible, hlookup, hknown⟩ := hfound
      exact .variable ⟨name, span⟩ visible rfl rfl rfl hlookup (hknown hm)
  | undefinedFunction name known => exact .function rfl (hfound hm)
  | undefinedType written => exact .type rfl hm
  | unknownField field type => exact .field type field rfl rfl hm
  | unknownStructField field type => exact .structField type field rfl rfl hm
  | undefinedSignal name known => exact .signal rfl (hfound hm)
  | unknownStruct name => exact .structType rfl hm
  | unknownHint name => exact .hint rfl hm
  | _ => cases hm

/-- Only a type that does not exist is reported with this code. -/
theorem Problem.eq_undefinedType {q : Problem} (h : q.code = "E203") :
    ∃ written, q = .undefinedType written := by
  unfold code at h
  split at h <;> first | exact ⟨_, rfl⟩ | simp at h

theorem Problem.message_undefinedType {written other : Text}
    (h : (Problem.undefinedType written).message = "Undefined type '" ++ other ++ "'") :
    written = other := by
  have hunits : (Text.ofString "Undefined type '").units ++ written.units ++
      (Text.ofString "'").units = (Text.ofString "Undefined type '").units ++ other.units ++
      (Text.ofString "'").units := congrArg Text.units h
  exact congrArg Text.mk (List.append_cancel_left (List.append_cancel_right hunits))

/-- A name that is known where a type is asked for is the name of a type. -/
theorem Program.Knows.of_type {p : Program Unit} {d : Diagnostic} {m : Text} (h : p.Knows d m)
    (hcode : d.code = "E203") : m ∈ Problem.typeNames Ty.writable := by
  cases h with
  | type _ hm => exact hm
  | «variable» _ _ hother | function hother | field _ _ hother | structField _ _ hother
  | signal hother | structType hother | hint hother =>
      exact absurd (hother.symm.trans hcode) (by decide)

/-- What is proposed for an inherited name does not exist. -/
theorem Program.not_knows {p : Program Unit} {q : Problem} {span : Span} {n : Text}
    (hn : q.hint = some (meantHint n)) (h : (q.diagnostic span).NamesInherited) :
    ¬p.Knows (q.diagnostic span) n := by
  obtain ⟨hcode, other, hother, hmessage⟩ := h
  obtain ⟨written, rfl⟩ := Problem.eq_undefinedType hcode
  obtain rfl := Problem.message_undefinedType hmessage
  obtain ⟨proposal, hproposal, hnone⟩ :=
    (Option.any_eq_true _ _).mp (inherited_notType written hother)
  have hproposed : proposal = n := by
    dsimp only [Problem.hint] at hn
    rw [hproposal] at hn
    exact meantHint_inj (Option.some.inj hn)
  intro hknows
  rw [hproposed, Bool.not_eq_true', ← Bool.not_eq_true, List.contains_iff_mem] at hnone
  exact hnone (hknows.of_type hcode)

/-- Whatever a hint asks for exists, unless the problem is a type that is spelt like something
    inherited by every record: a variable that is asked for is in sight where the name is, a
    function or a signal is declared in the script or built in, and a field is one of the type. -/
theorem checkProgram_proposes (p : Program Unit) {d : Diagnostic}
    (hd : d ∈ (checkProgram p).diagnostics) {n : Text} (hn : d.hint = some (meantHint n)) :
    p.Knows d n ↔ ¬d.NamesInherited := by
  obtain ⟨f, hf, heq⟩ := List.mem_filterMap.mp hd
  have hfound := checkProgram_foundIn p.tree.begins_anywhere f hf
  cases f with
  | problem q span =>
      cases heq
      have hhint : q.hint = some (meantHint n) := (Option.filter_eq_some_iff.mp hn).1
      constructor
      · exact fun hknows hinherited => Program.not_knows hhint hinherited hknows
      · intro hown
        rcases Problem.hint_candidates hhint with hm | ⟨written, rfl, hproposal⟩
        · exact Problem.knows_candidates hfound.2 hm
        · rcases Problem.typeProposal?_cases hproposal with hinherited | hm
          · exact absurd ⟨rfl, written, hinherited, rfl⟩ hown
          · exact .type rfl hm
  | _ => cases heq

/-- A variable of the script is proposed for a misspelt one. -/
theorem checkProgram_proposes_variable :
    let p := (readText "let speed = 1; fn f() \x7b print(sped); \x7d").program
    let d := (Problem.undefinedVariable "sped" ["speed"]).diagnostic ⟨⟨30, 0, 30⟩, ⟨34, 0, 34⟩⟩
    d ∈ (checkProgram p).diagnostics ∧ d.hint = some (meantHint "speed") ∧ p.Knows d "speed" := by
  intro p d
  have hd : d ∈ (checkProgram p).diagnostics := by decide +kernel
  have hn : d.hint = some (meantHint "speed") := by decide +kernel
  have hown : ¬d.NamesInherited := fun h => absurd h.1 (by decide)
  exact ⟨hd, hn, (checkProgram_proposes p hd hn).mpr hown⟩

/-- A type that does not exist is proposed for one that is spelt `constructor`. -/
theorem inherited_proposed :
    ¬∀ (source : Text) (d : Diagnostic) (n : Text), (tokenize source false).errors = [] →
      (readText source).diagnostics = [] →
      d ∈ (checkProgram (readText source).program).diagnostics → d.hint = some (meantHint n) →
      (readText source).program.Knows d n := by
  intro h
  obtain ⟨hlex, hread, hd⟩ :
      (tokenize "let c: constructor = 1;" false).errors = [] ∧
      (readText "let c: constructor = 1;").diagnostics = [] ∧
      (Problem.undefinedType "constructor").diagnostic ⟨⟨7, 0, 7⟩, ⟨18, 0, 18⟩⟩ ∈
        (checkProgram (readText "let c: constructor = 1;").program).diagnostics := by
    decide +kernel
  have hknows :=
    h _ _ "function Object() \x7b [native code] \x7d" hlex hread hd (by decide +kernel)
  have hlisted := hknows.of_type (by decide)
  revert hlisted
  decide +kernel

end SceneScript
