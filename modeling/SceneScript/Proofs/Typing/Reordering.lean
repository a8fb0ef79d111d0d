import Mathlib.Data.List.Find
import Mathlib.Data.List.Nodup
import SceneScript.Proofs.Syntax.Names
import SceneScript.Proofs.Typing.Agreement

/-!
# The order of functions and signals does not matter

Signatures are collected before anything else is checked, and every body is checked in the scope of
the globals alone, so nothing that is found in one function or signal depends on where the others
stand. Only globals see what is before them. When all names of functions are different, and all
names of signals, a script whose functions and signals are moved about is checked with the same
result.

* **`Check.each`** — checking items one by one, each on its own; `each_reordered`.
* **`collectSignals_eq`**, **`collectFunctions_eq`**, **`checkBodies_eq`** — with distinct names
  the passes over signals and functions check one by one.
* **`Surroundings.agree_of_perm`** — surroundings with reordered tables agree.
* **`checkProgram_reordered`** — the main statement.
-/

namespace SceneScript

/-! ## Checking one by one -/

namespace Check

variable {α β : Type}

instance : LawfulMonad Check := LawfulMonad.mk' Check
  (fun _ => congrArg (Check.mk _) (List.append_nil _))
  (fun _ _ => rfl)
  (fun _ _ _ => congrArg (Check.mk _) (List.append_assoc _ _ _))

/-- Checks items one by one, each on its own. -/
def each (f : α → Check β) (items : List α) : Check (List β) :=
  ⟨items.map fun a => (f a).value, items.flatMap fun a => (f a).findings⟩

theorem each_cons (f : α → Check β) (a : α) (rest : List α) :
    each f (a :: rest) = (do
      let b ← f a
      let bs ← each f rest
      return b :: bs) :=
  congrArg (fun more => Check.mk _ ((f a).findings ++ more)) (List.append_nil _).symm

/-- Two checks give the same items and show the same findings, up to the order of both. -/
structure Reordered (x y : Check (List α)) : Prop where
  value    : x.value.Perm y.value
  findings : ShownAlike x.findings y.findings

theorem each_reordered {f g : α → Check β} {items items' : List α} (h : items.Perm items')
    (hsame : ∀ a, Agree (f a) (g a)) : Reordered (each f items) (each g items') := by
  have hvalue : (fun a => (f a).value) = fun a => (g a).value := funext fun a => (hsame a).value
  have hshown : (fun a => (f a).findings.map Finding.shown) =
      fun a => (g a).findings.map Finding.shown := funext fun a => (hsame a).findings
  refine ⟨?_, ?_⟩
  · show (items.map fun a => (f a).value).Perm (items'.map fun a => (g a).value)
    rw [hvalue]
    exact h.map _
  · show ((items.flatMap fun a => (f a).findings).map Finding.shown).Perm
      ((items'.flatMap fun a => (g a).findings).map Finding.shown)
    rw [List.map_flatMap, List.map_flatMap, hshown]
    exact h.flatMap_right _

end Check

/-! ## The passes -/

/-- The name of a declared signal. -/
def SignalDecl.key (d : SignalDecl) : Text := d.name.name

/-- The name of a declared function. -/
def FunctionDecl.key (f : FunctionDecl Unit) : Text := f.name.name

/-- One signal. -/
def declareSignal (d : SignalDecl) : Check Signal := do
  let params ← signalParams d.name.name [] d.params
  return ⟨d.name.name, params⟩

theorem collectSignals_eq (ds : List SignalDecl) : ∀ seen, (seen ++ ds.map SignalDecl.key).Nodup →
    collectSignals seen ds = Check.each declareSignal ds := by
  induction ds with
  | nil => exact fun _ _ => rfl
  | cons d ds ih =>
      intro seen h
      rw [List.map_cons, List.nodup_middle] at h
      have hnew : d.name.name ∉ seen := fun hd =>
        (List.nodup_cons.mp h).1 (List.mem_append_left _ hd)
      rw [collectSignals, if_neg hnew, ih (d.name.name :: seen) h, Check.each_cons, declareSignal]
      simp only [bind_assoc, pure_bind]

/-- One function with its signature. -/
def collectFunction (f : FunctionDecl Unit) : Check (FunctionDecl Unit × Option Signature) := do
  if (Builtin.ofText? f.name.name).isSome then
    Check.report f.name.span (.builtinRedefined f.name.name)
    return (f, none)
  let signature ← signatureOf f
  match Lifecycle.ofFunction? f.name.name with
  | some k =>
      Check.reportIf (!fitsLifecycle signature k) f.name.span (.lifecycleSignature k)
  | none => pure ()
  return (f, some signature)

theorem collectFunctions_eq (fs : List (FunctionDecl Unit)) : ∀ seen,
    (seen ++ fs.map FunctionDecl.key).Nodup →
    collectFunctions seen fs = Check.each collectFunction fs := by
  induction fs with
  | nil => exact fun _ _ => rfl
  | cons f fs ih =>
      intro seen h
      rw [List.map_cons, List.nodup_middle] at h
      have hnew : f.name.name ∉ seen := fun hf =>
        (List.nodup_cons.mp h).1 (List.mem_append_left _ hf)
      rw [collectFunctions, Check.each_cons, collectFunction]
      by_cases hbuiltin : (Builtin.ofText? f.name.name).isSome = true
      · rw [if_pos hbuiltin, if_pos hbuiltin, ih seen (List.nodup_cons.mp h).2]
        simp only [bind_assoc, pure_bind]
      · rw [if_neg hbuiltin, if_neg hbuiltin, if_neg hnew, ih (f.name.name :: seen) h]
        cases Lifecycle.ofFunction? f.name.name <;> simp only [bind_assoc, pure_bind]

/-- The body of one function, kept when the function can be called. -/
def checkEntry (s : Surroundings) (entry : FunctionDecl Unit × Option Signature) :
    Check (Option FunctionInfo) := do
  let decl ← checkBody s (entry.2.getD (plainSignature entry.1)) entry.1
  return entry.2.map fun signature => ⟨signature, decl⟩

theorem checkBodies_eq (s : Surroundings)
    (collected : List (FunctionDecl Unit × Option Signature)) :
    checkBodies s collected = (do
      let infos ← Check.each (checkEntry s) collected
      return infos.filterMap id) := by
  induction collected with
  | nil => rfl
  | cons entry rest ih =>
      obtain ⟨f, signature⟩ := entry
      rw [checkBodies, ih, Check.each_cons, checkEntry]
      cases signature <;> simp only [bind_assoc, pure_bind] <;> rfl

theorem collectSignals_reordered {ds ds' : List SignalDecl} (h : ds.Perm ds')
    (hkeys : (ds.map SignalDecl.key).Nodup) :
    Check.Reordered (collectSignals [] ds) (collectSignals [] ds') := by
  rw [collectSignals_eq ds [] hkeys, collectSignals_eq ds' [] ((h.map _).nodup_iff.mp hkeys)]
  exact Check.each_reordered h fun d => Check.Agree.refl _

theorem collectFunctions_reordered {fs fs' : List (FunctionDecl Unit)} (h : fs.Perm fs')
    (hkeys : (fs.map FunctionDecl.key).Nodup) :
    Check.Reordered (collectFunctions [] fs) (collectFunctions [] fs') := by
  rw [collectFunctions_eq fs [] hkeys, collectFunctions_eq fs' [] ((h.map _).nodup_iff.mp hkeys)]
  exact Check.each_reordered h fun f => Check.Agree.refl _

theorem checkBodies_reordered {s s' : Surroundings} (hs : s.Agree s')
    {collected collected' : List (FunctionDecl Unit × Option Signature)}
    (h : collected.Perm collected') :
    Check.Reordered (checkBodies s collected) (checkBodies s' collected') := by
  have hentry : ∀ entry, Check.Agree (checkEntry s entry) (checkEntry s' entry) :=
    fun entry => (checkBody_agree hs _ entry.1).then
  have heach := Check.each_reordered h hentry
  rw [checkBodies_eq, checkBodies_eq]
  exact ⟨heach.value.filterMap id, heach.findings.append (List.Perm.refl _)⟩

/-! ## The tables -/

/-- The texts are names, and all different. -/
structure DistinctNames (names : List Text) : Prop where
  nodup  : names.Nodup
  isName : ∀ t ∈ names, t.IsName

theorem DistinctNames.sublist {names part : List Text} (h : DistinctNames names)
    (hpart : part.Sublist names) : DistinctNames part :=
  ⟨h.nodup.sublist hpart, fun t ht => h.isName t (hpart.subset ht)⟩

/-- Keys that are kept by a selection are among the keys selected from. -/
theorem map_filterMap_sublist {α β γ : Type} {select : α → Option β} {key : β → γ} {origin : α → γ}
    (items : List α) (h : ∀ a ∈ items, ∀ b, select a = some b → key b = origin a) :
    ((items.filterMap select).map key).Sublist (items.map origin) := by
  induction items with
  | nil => exact .slnil
  | cons a rest ih =>
      have hrest := ih fun x hx => h x (List.mem_cons_of_mem a hx)
      cases hb : select a with
      | none =>
          rw [List.filterMap_cons_none hb]
          exact hrest.cons _
      | some b =>
          rw [List.filterMap_cons_some hb, List.map_cons, List.map_cons,
            h a List.mem_cons_self b hb]
          exact hrest.cons_cons _

/-- With distinct keys a table finds the same in every order. -/
theorem find?_key_of_perm {α : Type} {key : α → Text} {table table' : List α}
    (h : table.Perm table') (hkeys : (table.map key).Nodup) (name : Text) :
    (table.find? fun a => key a == name) = table'.find? fun a => key a == name :=
  List.find?_eq_find?_of_perm h fun _ ha _ hb =>
    List.inj_on_of_nodup_map hkeys ha.1 hb.1
      ((beq_iff_eq.mp ha.2).trans (beq_iff_eq.mp hb.2).symm)

theorem Surroundings.agree_of_perm {functions functions' : List Signature}
    {signals signals' : List Signal} (hf : functions.Perm functions') (hs : signals.Perm signals')
    (hfn : DistinctNames (functions.map Signature.name))
    (hsn : DistinctNames (signals.map Signal.name)) (initializing : Bool) (scope : Scope) :
    Surroundings.Agree ⟨functions, signals, initializing, scope⟩
      ⟨functions', signals', initializing, scope⟩ where
  scope        := rfl
  initializing := rfl
  function     := find?_key_of_perm hf hfn.nodup
  signal       := find?_key_of_perm hs hsn.nodup
  meant typo   := by
    refine didYouMean_congr typo (fun _ => ((hf.map Signature.name).append_right _).mem_iff)
      fun t ht => ?_
    rcases List.mem_append.mp ht with h | h
    · exact hfn.isName t h
    · obtain ⟨b, -, rfl⟩ := List.mem_map.mp h
      exact b.isName
  meantSignal typo := didYouMean_congr typo (fun _ => (hs.map Signal.name).mem_iff) hsn.isName

theorem signatureOf_name (f : FunctionDecl Unit) : (signatureOf f).value.name = f.key := by
  rw [signatureOf]
  cases f.returns <;> rfl

theorem collectFunction_name (f : FunctionDecl Unit) (signature : Signature)
    (h : (collectFunction f).value.2 = some signature) : signature.name = f.key := by
  rw [collectFunction] at h
  split at h
  · cases h
  · cases hk : Lifecycle.ofFunction? f.name.name <;> rw [hk] at h <;> cases h <;>
      exact signatureOf_name f

/-! ## The passes over a whole script -/

namespace Program

/-- The functions of a script with their signatures. -/
def collected (p : Program Unit) : Check (List (FunctionDecl Unit × Option Signature)) :=
  collectFunctions [] p.functions

/-- The signals of a script. -/
def declared (p : Program Unit) : Check (List Signal) := collectSignals [] p.signals

/-- What code of a script sees, given the variables. -/
def surroundings (p : Program Unit) (initializing : Bool) (scope : Scope) : Surroundings :=
  ⟨p.collected.value.filterMap Prod.snd, p.declared.value, initializing, scope⟩

/-- The globals of a script. -/
def checkedGlobals (p : Program Unit) : Check (List GlobalInfo) :=
  checkGlobals (p.collected.value.filterMap Prod.snd) p.declared.value [] p.globals

/-- The functions of a script. -/
def checkedFunctions (p : Program Unit) : Check (List FunctionInfo) :=
  checkBodies (p.surroundings false [p.checkedGlobals.value.map GlobalInfo.declared])
    p.collected.value

theorem checkProgram_eq (p : Program Unit) : checkProgram p =
    ⟨p.checkedFunctions.value, p.checkedGlobals.value, p.declared.value,
      p.declared.findings ++ (p.collected.findings ++
        (p.checkedGlobals.findings ++ (p.checkedFunctions.findings ++ [])))⟩ := rfl

/-- The second script has the functions and the signals of the first in another order; they have
    distinct names, and the globals have stayed where they were. -/
structure Moved (p q : Program Unit) : Prop where
  functions     : p.functions.Perm q.functions
  signals       : p.signals.Perm q.signals
  globals       : p.globals = q.globals
  functionNames : DistinctNames (p.functions.map FunctionDecl.key)
  signalNames   : DistinctNames (p.signals.map SignalDecl.key)

variable {p q : Program Unit}

theorem declared_names (hkeys : (p.signals.map SignalDecl.key).Nodup) :
    p.declared.value.map Signal.name = p.signals.map SignalDecl.key := by
  rw [declared, collectSignals_eq p.signals [] hkeys]
  exact List.map_map

theorem signature_names (hkeys : (p.functions.map FunctionDecl.key).Nodup) :
    ((p.collected.value.filterMap Prod.snd).map Signature.name).Sublist
      (p.functions.map FunctionDecl.key) := by
  rw [collected, collectFunctions_eq p.functions [] hkeys, Check.each, List.filterMap_map]
  exact map_filterMap_sublist _ fun f _ signature h => collectFunction_name f signature h

theorem checkedFunctions_names (hkeys : (p.functions.map FunctionDecl.key).Nodup) :
    (p.checkedFunctions.value.map FunctionInfo.name).Sublist
      (p.functions.map FunctionDecl.key) := by
  let s := p.surroundings false [p.checkedGlobals.value.map GlobalInfo.declared]
  have hvalue : p.checkedFunctions.value =
      p.functions.filterMap fun f => (checkEntry s (collectFunction f).value).value := by
    rw [checkedFunctions, checkBodies_eq, collected, collectFunctions_eq p.functions [] hkeys]
    show ((p.functions.map fun f => (collectFunction f).value).map
      fun e => (checkEntry s e).value).filterMap id = _
    rw [List.map_map, List.filterMap_map]
    rfl
  rw [hvalue]
  refine map_filterMap_sublist p.functions fun f _ info h => ?_
  obtain ⟨signature, hsignature, rfl⟩ := Option.map_eq_some_iff.mp h
  exact collectFunction_name f signature hsignature

namespace Moved

theorem declared_reordered (h : p.Moved q) : Check.Reordered p.declared q.declared :=
  collectSignals_reordered h.signals h.signalNames.nodup

theorem collected_reordered (h : p.Moved q) : Check.Reordered p.collected q.collected :=
  collectFunctions_reordered h.functions h.functionNames.nodup

theorem surroundings_agree (h : p.Moved q) (initializing : Bool) (scope : Scope) :
    Surroundings.Agree (p.surroundings initializing scope) (q.surroundings initializing scope) := by
  have hfunctions := h.functionNames.sublist (signature_names h.functionNames.nodup)
  have hsignals : DistinctNames (p.declared.value.map Signal.name) := by
    rw [declared_names h.signalNames.nodup]
    exact h.signalNames
  exact Surroundings.agree_of_perm (h.collected_reordered.value.filterMap Prod.snd)
    h.declared_reordered.value hfunctions hsignals initializing scope

theorem checkedGlobals_agree (h : p.Moved q) :
    Check.Agree p.checkedGlobals q.checkedGlobals := by
  rw [checkedGlobals, checkedGlobals, ← h.globals]
  exact checkGlobals_agree (h.surroundings_agree true) p.globals []

/-- The globals agree, and with them the scope in which the bodies are checked. -/
theorem checkedFunctions_reordered (h : p.Moved q) :
    Check.Reordered p.checkedFunctions q.checkedFunctions := by
  rw [checkedFunctions, checkedFunctions, h.checkedGlobals_agree.value]
  exact checkBodies_reordered (h.surroundings_agree false _) h.collected_reordered.value

theorem shownAlike (h : p.Moved q) :
    ShownAlike (checkProgram p).findings (checkProgram q).findings := by
  rw [checkProgram_eq, checkProgram_eq]
  refine h.declared_reordered.findings.append (h.collected_reordered.findings.append ?_)
  refine h.checkedGlobals_agree.shownAlike.append (h.checkedFunctions_reordered.findings.append ?_)
  exact List.Perm.refl _

end Moved

end Program

/-! ## The result -/

/-- A callback is called through one name only. -/
theorem Lifecycle.name_of_ofFunction? {name : Text} {k : Lifecycle}
    (h : Lifecycle.ofFunction? name = some k) : name = Text.ofString k.functionName := by
  rw [ofFunction?] at h
  have hname := List.find?_some h
  exact (beq_iff_eq.mp hname).symm

theorem Checked.lifecycle_subsingleton (c : Checked) (k : Lifecycle) :
    {entry ∈ c.lifecycle | entry.1 == k}.Subsingleton := by
  have hentry : ∀ entry ∈ c.lifecycle, (entry.1 == k) = true →
      entry = (k, Text.ofString k.functionName) := by
    intro entry hmem hk
    obtain ⟨f, -, hf⟩ := List.mem_filterMap.mp hmem
    obtain ⟨k', hk', rfl⟩ := Option.map_eq_some_iff.mp hf
    have heq : k' = k := beq_iff_eq.mp hk
    rw [← heq, ← Lifecycle.name_of_ofFunction? hk']
  intro a ha b hb
  rw [hentry a ha.1 ha.2, hentry b hb.1 hb.2]

/-- Two results of checking are the same up to the order of the tables: the tables have the same
    entries and the same behind every name, bindings have the same types, and symbols the same
    uses. -/
structure Checked.Reordered (a b : Checked) : Prop where
  diagnostics : a.diagnostics.Perm b.diagnostics
  globals     : a.globals = b.globals
  properties  : a.properties = b.properties
  functions   : a.functions.Perm b.functions
  function    : ∀ name : Text,
    (a.functions.find? fun f => f.name == name) = b.functions.find? fun f => f.name == name
  signals     : a.signals.Perm b.signals
  signal      : ∀ name : Text,
    (a.signals.find? fun d => d.name == name) = b.signals.find? fun d => d.name == name
  lifecycle   : a.lifecycle.Perm b.lifecycle
  callback    : ∀ k, (a.lifecycle.find? fun e => e.1 == k) = b.lifecycle.find? fun e => e.1 == k
  bindings    : a.bindings.Perm b.bindings
  symbols     : a.symbols.Perm b.symbols

/-- What is picked out of a script that was read, and keyed by what it is called by, has names. -/
theorem parseSource_keys_isName (source : Text) {α : Type} {pick : Declaration Unit → Option α}
    {key : α → Text} (hpick : ∀ d a, pick d = some a → d.handle? = some (key a)) :
    ∀ t ∈ ((parseSource source).program.body.filterMap pick).map key, t.IsName := by
  intro t ht
  obtain ⟨a, ha, rfl⟩ := List.mem_map.mp ht
  obtain ⟨d, hd, hda⟩ := List.mem_filterMap.mp ha
  exact parseSource_isName source d hd (key a) (hpick d a hda)

/-- Moving the functions and signals of a script about, and keeping the order of its globals, does
    not change what checking it finds, as long as no two functions and no two signals have one
    name. -/
theorem checkProgram_reordered (source : Text) {q : Program Unit}
    (hbody : (parseSource source).program.body.Perm q.body)
    (hglobals : (parseSource source).program.globals = q.globals)
    (hfunctions : ((parseSource source).program.functions.map fun f => f.name.name).Nodup)
    (hsignals : ((parseSource source).program.signals.map fun d => d.name.name).Nodup) :
    (checkProgram (parseSource source).program).Reordered (checkProgram q) := by
  have hmoved : (parseSource source).program.Moved q := by
    refine ⟨hbody.filterMap _, hbody.filterMap _, hglobals, ⟨hfunctions, ?_⟩, ⟨hsignals, ?_⟩⟩
    · refine parseSource_keys_isName source fun d f hf => ?_
      cases d <;> cases hf
      rfl
    · refine parseSource_keys_isName source fun d s hs => ?_
      cases d <;> cases hs
      rfl
  generalize (parseSource source).program = p at hmoved
  have hnames := (Program.checkedFunctions_names hmoved.functionNames.nodup).nodup
    hmoved.functionNames.nodup
  have hsignalNames : (p.declared.value.map Signal.name).Nodup := by
    rw [Program.declared_names hmoved.signalNames.nodup]
    exact hmoved.signalNames.nodup
  have hglobals := hmoved.checkedGlobals_agree.value
  have hfunctions := hmoved.checkedFunctions_reordered.value
  have hsignals := hmoved.declared_reordered.value
  have hlifecycle : (checkProgram p).lifecycle.Perm (checkProgram q).lifecycle :=
    hfunctions.filterMap _
  exact {
    diagnostics := hmoved.shownAlike.diagnostics
    globals     := hglobals
    properties  := congrArg (List.filterMap GlobalInfo.property) hglobals
    functions   := hfunctions
    function    := find?_key_of_perm hfunctions hnames
    signals     := hsignals
    signal      := find?_key_of_perm hsignals hsignalNames
    lifecycle   := hlifecycle
    callback    := fun k => List.find?_eq_find?_of_perm hlifecycle
      ((checkProgram p).lifecycle_subsingleton k)
    bindings    := hmoved.shownAlike.bindings
    symbols     := hmoved.shownAlike.symbols }

/-- Functions and signals may go behind other declarations without moving a global. -/
theorem Program.globals_append_comm (span : Span) {front : List (Declaration Unit)}
    (h : ∀ d ∈ front, d.handle?.isSome = true) (rest : List (Declaration Unit)) :
    (Program.mk span (front ++ rest)).globals = (Program.mk span (rest ++ front)).globals := by
  have hnone : (Program.mk span front).globals = [] := by
    refine List.filterMap_eq_nil_iff.mpr fun d hd => ?_
    have hhandle := h d hd
    cases d with
    | global g => cases hhandle
    | _ => rfl
  have happend : ∀ a b : List (Declaration Unit), (Program.mk span (a ++ b)).globals =
      (Program.mk span a).globals ++ (Program.mk span b).globals :=
    fun a b => List.filterMap_append
  rw [happend, happend, hnone, List.nil_append, List.append_nil]

/-- A misspelt call and a misspelt signal, around two globals of which one needs the other. -/
def fallingText : Text :=
  "fn fall() \x7b heel(); \x7d let hp = 3; fn heal() \x7b emit_signal(\"hit\"); \x7d " ++
  "let top = hp; signal hut();"

/-- With its first declaration at the end the script has its problems in another order, and
    nothing else changes. -/
theorem fallingText_reordered :
    let p := (parseSource fallingText).program
    let q : Program Unit := ⟨p.span, p.body.drop 1 ++ p.body.take 1⟩
    p.body.Perm q.body ∧ p.globals = q.globals ∧
      (p.functions.map fun f => f.name.name).Nodup ∧
      (p.signals.map fun d => d.name.name).Nodup ∧
      (checkProgram p).diagnostics.map Diagnostic.hint =
        [some (meantHint "heal"), some (meantHint "hut")] ∧
      (checkProgram p).diagnostics ≠ (checkProgram q).diagnostics ∧
      (checkProgram p).Reordered (checkProgram q) := by
  intro p q
  have hbody : p.body.Perm q.body := by
    have hswap : (p.body.take 1 ++ p.body.drop 1).Perm q.body := List.perm_append_comm
    rwa [List.take_append_drop] at hswap
  obtain ⟨hfront, hfunctions, hsignals, hhints, horder⟩ :
      (p.body.take 1).all (fun d => d.handle?.isSome) = true ∧
      (p.functions.map fun f => f.name.name).Nodup ∧
      (p.signals.map fun d => d.name.name).Nodup ∧
      (checkProgram p).diagnostics.map Diagnostic.hint =
        [some (meantHint "heal"), some (meantHint "hut")] ∧
      (checkProgram p).diagnostics ≠ (checkProgram q).diagnostics := by decide +kernel
  have hglobals : p.globals = q.globals := by
    have hsame := Program.globals_append_comm p.span (List.all_eq_true.mp hfront) (p.body.drop 1)
    rwa [List.take_append_drop] at hsame
  refine ⟨hbody, hglobals, hfunctions, hsignals, hhints, horder, ?_⟩
  exact checkProgram_reordered fallingText hbody hglobals hfunctions hsignals

end SceneScript
