import SceneScript.Proofs.Instance.Typed
import SceneScript.Proofs.Typing.Accepted
import SceneScript.Proofs.Typing.Reordering

/-!
# Callbacks of scripts that compile

A callback calls the function of its name. A script that compiles handles exactly the callbacks
whose functions it declares, and such a function takes what its callback passes, because its
signature was checked; so no callback is ever turned away.

* **`Program.handles`** — the program declares the function of a callback.
* **`signatures_clean`** — without problems every declared function can be called.
* **`compile_handler?`** — the callbacks that are handled.
* **`compile_receive`** — their functions take what they are passed.
-/

namespace SceneScript

/-! ## Names -/

theorem Lifecycle.ofFunction?_functionName (k : Lifecycle) :
    ofFunction? (Text.ofString k.functionName) = some k := by
  cases k <;> decide +kernel

/-- A callback is handled by the function of its name, if there is one. -/
theorem Checked.find?_lifecycle (c : Checked) (k : Lifecycle) :
    (c.lifecycle.find? fun e => e.1 == k).map Prod.snd =
      if c.functions.any fun f => f.name == Text.ofString k.functionName then
        some (Text.ofString k.functionName)
      else none := by
  by_cases hany : (c.functions.any fun f => f.name == Text.ofString k.functionName) = true
  · obtain ⟨f, hf, hname⟩ := List.any_eq_true.mp hany
    have hname' : f.name = Text.ofString k.functionName := beq_iff_eq.mp hname
    have hentry : (k, f.name) ∈ c.lifecycle := by
      refine List.mem_filterMap.mpr ⟨f, hf, ?_⟩
      rw [FunctionInfo.lifecycle?, hname', Lifecycle.ofFunction?_functionName]
      rfl
    have hfound : (c.lifecycle.find? fun e => e.1 == k).isSome = true :=
      List.find?_isSome.mpr ⟨(k, f.name), hentry, beq_self_eq_true k⟩
    obtain ⟨e, he⟩ := Option.isSome_iff_exists.mp hfound
    have hk := List.find?_some he
    have hsame : e = (k, f.name) := c.lifecycle_subsingleton k
      ⟨List.mem_of_find?_eq_some he, hk⟩ ⟨hentry, beq_self_eq_true k⟩
    rw [he, if_pos hany, hsame, ← hname']
    rfl
  · have hnone : (c.lifecycle.find? fun e => e.1 == k) = none := by
      refine List.find?_eq_none.mpr fun e he hk => hany ?_
      obtain ⟨f, hf, hfe⟩ := List.mem_filterMap.mp he
      obtain ⟨k', hk', rfl⟩ := Option.map_eq_some_iff.mp hfe
      obtain rfl : k' = k := beq_iff_eq.mp hk
      refine List.any_eq_true.mpr ⟨f, hf, beq_iff_eq.mpr ?_⟩
      exact Lifecycle.name_of_ofFunction? hk'
    rw [hnone, if_neg hany]
    rfl

/-! ## Signatures -/

/-- A signature that fits a callback and has known types has the types of the callback. -/
theorem types_of_fitsLifecycle {sig : Signature} {k : Lifecycle} (hknown : sig.Known)
    (h : fitsLifecycle sig k = true) :
    k.params.map TypedName.type = sig.params.map TypedName.type := by
  obtain ⟨⟨hlen, hall⟩, -⟩ : (sig.params.length = k.params.length ∧
      ∀ e ∈ sig.params.zip k.params, e.1.type = .unknown ∨ e.1.type = e.2.type) ∧
      (sig.returns = .void ∨ sig.returns = .unknown) := by
    simpa [fitsLifecycle] using h
  refine List.ext_getElem (by simp [hlen]) fun i hi hj => ?_
  rw [List.length_map] at hi hj
  rw [List.getElem_map, List.getElem_map]
  have hmem : (sig.params[i], k.params[i]) ∈ sig.params.zip k.params := by
    rw [← List.getElem_zip (h := by rw [List.length_zip]; omega)]
    exact List.getElem_mem _
  rcases hall _ hmem with hunknown | heq
  · exact absurd hunknown (hknown.params _ (List.getElem_mem hj)).1
  · exact heq.symm

namespace Program

variable {p : Program Unit}

/-- Whether a program declares the function of a callback. -/
def handles (p : Program Unit) (k : Lifecycle) : Bool :=
  p.functions.any fun f => f.name.name == Text.ofString k.functionName

/-- Without problems every declared function can be called; its types are known, and they are those
    of its callback if it has one. -/
theorem signatures_clean (h : ∀ q span, Finding.problem q span ∉ (checkProgram p).findings) :
    (checkProgram p).functions.map FunctionInfo.signature =
        p.functions.map (fun f => (signatureOf f).value) ∧
      ∀ f ∈ p.functions, ∀ k, Lifecycle.ofFunction? f.name.name = some k →
        k.params.map TypedName.type = (signatureOf f).value.params.map TypedName.type := by
  have hclean : p.collected.Clean := by
    intro q span hq
    refine h q span ?_
    rw [checkProgram_eq]
    exact List.mem_append_right _ (List.mem_append_left _ hq)
  obtain ⟨hvalue, hall⟩ := collectFunctions_all hclean
  refine ⟨?_, fun f hf k hk => ?_⟩
  · rw [checkProgram_eq, checkedFunctions, checkBodies_signatures, collected, hvalue,
      List.filterMap_map]
    exact congrFun List.filterMap_eq_map _
  · exact types_of_fitsLifecycle (signatureOf_clean (hall f hf).1).1 ((hall f hf).2 k hk)

/-- The functions that can be called have the names of the declared ones. -/
theorem any_functions_clean (h : ∀ q span, Finding.problem q span ∉ (checkProgram p).findings)
    (k : Lifecycle) : ((checkProgram p).functions.any fun f =>
      f.name == Text.ofString k.functionName) = p.handles k := by
  calc ((checkProgram p).functions.any fun f => f.name == Text.ofString k.functionName)
      = ((checkProgram p).functions.map FunctionInfo.signature).any fun s =>
          s.name == Text.ofString k.functionName := by
        rw [List.any_map]
        rfl
    _ = p.functions.any fun f =>
          (signatureOf f).value.name == Text.ofString k.functionName := by
        rw [(signatures_clean h).1, List.any_map]
        rfl
    _ = p.handles k := by
        simp only [signatureOf_name]
        rfl

end Program

/-! ## Arguments -/

/-- Values of the types of the parameters are taken as they are. -/
theorem Instance.bindArguments_self (name : Text) (params : List TypedName) : ∀ args : List Value,
    args.map Value.type = params.map TypedName.type →
      bindArguments name params args = .ok args := by
  induction params with
  | nil =>
      intro args h
      rw [List.map_nil, List.map_eq_nil_iff] at h
      rw [h]
      rfl
  | cons p ps ih =>
      intro args h
      cases args with
      | nil => cases h
      | cons v vs =>
          obtain ⟨hv, hvs⟩ := List.cons.inj h
          have hkeep : v.coerce? p.type = some v := if_pos hv
          rw [bindArguments, hkeep, ih vs hvs]
          rfl

/-! ## Scripts that compile -/

variable {source : Text} {options : AnalysisOptions} {compiled : Compiled}

/-- A script that compiles handles the callbacks whose functions it declares. -/
theorem compile_handler? (h : compile source options = .ok compiled) {i : Instance}
    (hi : i.script = compiled.script) (k : Lifecycle) :
    i.handler? k = if (parseSource source).program.handles k then
      some (Text.ofString k.functionName) else none := by
  obtain ⟨hchecked, hclean⟩ := compile_checked h
  rw [Instance.handler?, hi, hchecked, Checked.find?_lifecycle, Program.any_functions_clean hclean]

/-- The function of a callback takes what the callback passes. -/
theorem compile_receive (h : compile source options = .ok compiled) {k : Lifecycle}
    (hk : (parseSource source).program.handles k = true) {args : List Value}
    (hargs : args.map Value.type = k.params.map TypedName.type) :
    Instance.receive compiled.script (Text.ofString k.functionName) args = .ok args := by
  obtain ⟨hchecked, hclean⟩ := compile_checked h
  obtain ⟨hsignatures, htypes⟩ := Program.signatures_clean hclean
  -- Whichever function of the name is found, its signature was checked against the callback.
  obtain ⟨f, hf⟩ : ∃ f, compiled.script.function? (Text.ofString k.functionName) = some f := by
    rw [← Option.isSome_iff_exists, Script.function?, hchecked, List.find?_isSome]
    exact List.any_eq_true.mp ((Program.any_functions_clean hclean k).trans hk)
  have hmem : f ∈ (checkProgram (parseSource source).program).functions :=
    hchecked ▸ List.mem_of_find?_eq_some hf
  have hfound := List.find?_some hf
  have hname : f.signature.name = Text.ofString k.functionName := beq_iff_eq.mp hfound
  obtain ⟨decl, hdecl, hsignature⟩ := List.mem_map.mp (hsignatures ▸ List.mem_map_of_mem hmem)
  have hcallback : Lifecycle.ofFunction? decl.name.name = some k := by
    rw [← Lifecycle.ofFunction?_functionName k, ← hname, ← hsignature, signatureOf_name]
    rfl
  have hparams : args.map Value.type = f.signature.params.map TypedName.type := by
    rw [hargs, htypes decl hdecl k hcallback, hsignature]
  have hlen : args.length = f.signature.params.length := by
    simpa using congrArg List.length hparams
  rw [Instance.receive, hf]
  dsimp only
  rw [if_neg (not_not_intro hlen), Instance.bindArguments_self _ _ _ hparams]

end SceneScript
