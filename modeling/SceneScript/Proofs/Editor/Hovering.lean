import SceneScript.Editor.Hover
import SceneScript.Proofs.Editor.Outline
import SceneScript.Proofs.Typing.Accepted
import SceneScript.Proofs.Typing.Declared

/-!
# What hovering over a variable shows

Hovering works on the text around the cursor. The word that the cursor touches is looked up among
the globals, the functions and the signals of the script, and last among the local variables and
parameters of that name, of which the one declared last in front of the cursor is taken, whatever
its scope. Checking finds the variable of a name through scopes. Both come to the same variable
unless another declaration of the name hides it: nothing hides a global, and a local variable or a
parameter is hidden by a global, a function or a signal, or by a local variable or a parameter that
is declared between it and the cursor.

* **`Ident.Between.wordAt?`**, **`hover_word`** — anywhere in a name the word is the name.
* **`nearestLocal?_spec`** — the local variable that is declared last in front of a cursor.
* **`Checked.Hides`** — another declaration is shown in place of a variable.
* **`hover_resolved`** — the main statement; **`hover_shadowed`** — two parameters that are hidden.
-/

namespace SceneScript

/-! ## The word under the cursor -/

namespace Ident.Between

variable {id : Ident} {t : Text} {front back : List UInt16} {offset : Nat}

/-- A cursor that touches a name touches the whole of it. -/
theorem wordAt? (h : id.Between t front back) (hfirst : id.span.start.offset ≤ offset)
    (hlast : offset ≤ id.span.stop.offset) :
    wordAt? t offset = some ⟨id.name, id.span.start.offset⟩ := by
  rw [h.start] at hfirst ⊢
  rw [h.stop] at hlast
  -- The cursor cuts the name in two.
  obtain ⟨a, b, hname, ha⟩ : ∃ a b, id.name.units = a ++ b ∧ (front ++ a).length = offset := by
    refine ⟨id.name.units.take (offset - front.length), id.name.units.drop (offset - front.length),
      (List.take_append_drop _ _).symm, ?_⟩
    rw [Text.length] at hlast
    rw [List.length_append, List.length_take]
    omega
  have hunits : t.units = (front ++ a) ++ (b ++ back) := by
    rw [h.split, hname, List.append_assoc, List.append_assoc, List.append_assoc]
  have hparts := h.parts
  rw [hname] at hparts
  obtain ⟨hpartsa, hpartsb⟩ := List.forall_mem_append.mp hparts
  have hbefore : ((front ++ a).reverse.takeWhile isNamePart) = a.reverse := by
    rw [List.reverse_append]
    refine takeWhile_until (fun u hu => hpartsa u (List.mem_reverse.mp hu)) fun w hw => ?_
    rw [List.head?_reverse] at hw
    exact (h.before w hw).1
  have hafter : (b ++ back).takeWhile isNamePart = b := takeWhile_until hpartsb h.behind
  have hbounds : ¬((offset : Int) < 0 ∨ (t.length : Int) < (offset : Int)) := by
    rw [Text.length, hunits, List.length_append, ha]
    omega
  rw [SceneScript.wordAt?, if_neg hbounds, Int.toNat_natCast, hunits, ← ha, List.take_left,
    List.drop_left, hbefore, hafter]
  dsimp only
  rw [List.reverse_reverse, ← hname, if_pos h.begins, List.length_append, List.length_reverse,
    Nat.add_sub_cancel]

/-- No dot stands in front of it. -/
theorem followsDot (h : id.Between t front back) :
    followsDot t id.span.start.offset = false := by
  rw [h.start]
  rcases List.eq_nil_or_concat' front with rfl | ⟨before, w, rfl⟩
  · rfl
  · have hw := (h.before w (by rw [List.getLast?_concat]; rfl)).2
    have hunit : t.units[before.length]? = some w := by
      rw [h.split]
      simp
    rw [List.length_append, List.length_singleton, SceneScript.followsDot, hunit]
    simpa using hw

end Ident.Between

/-- A name that is not built in, not that of a callback and not that of a type is looked up among
    the declarations. -/
theorem hover_word {source : Text} {id : Ident} (h : id.StandsIn source)
    (hbuiltin : Builtin.ofText? id.name = none) (hlifecycle : Lifecycle.ofFunction? id.name = none)
    (htype : ∀ t, Ty.ofText? id.name = some t → t = .unknown) {offset : Nat}
    (hfirst : id.span.start.offset ≤ offset) (hlast : offset ≤ id.span.stop.offset)
    (c : Checked) : hover source offset (some c) = declaredHover c id.name offset := by
  obtain ⟨front, back, h⟩ := h
  rw [hover, h.wordAt? hfirst hlast, Option.bind_some, wordHover, h.followsDot]
  simp only [Bool.false_eq_true, if_false, hbuiltin, hlifecycle]
  cases htext : Ty.ofText? id.name with
  | none => rfl
  | some t =>
      simp only [htype t htext, if_true]
      rfl

/-! ## The local variable in front of the cursor -/

/-- The last declared of several variables is one of them, and none is declared behind it. -/
theorem foldl_laterVariable : ∀ (vs : List Variable) (b : Variable),
    ∃ r, vs.foldl laterVariable (some b) = some r ∧ r ∈ b :: vs ∧
      ∀ v ∈ b :: vs, v.id.span.start.offset ≤ r.id.span.start.offset
  | [], b => ⟨b, rfl, List.mem_cons_self, List.forall_mem_singleton.mpr (Nat.le_refl _)⟩
  | v :: vs, b => by
      rw [List.foldl_cons, laterVariable]
      by_cases hlt : b.id.span.start.offset < v.id.span.start.offset
      · obtain ⟨r, hr, hmem, hle⟩ := foldl_laterVariable vs v
        rw [if_pos hlt]
        refine ⟨r, hr, List.mem_cons_of_mem _ hmem, List.forall_mem_cons.mpr ⟨?_, hle⟩⟩
        exact Nat.le_trans (Nat.le_of_lt hlt) (hle v List.mem_cons_self)
      · obtain ⟨r, hr, hmem, hle⟩ := foldl_laterVariable vs b
        obtain ⟨hb, hrest⟩ := List.forall_mem_cons.mp hle
        rw [if_neg hlt]
        refine ⟨r, hr, ?_, List.forall_mem_cons.mpr ⟨hb, List.forall_mem_cons.mpr
          ⟨Nat.le_trans (Nat.le_of_not_lt hlt) hb, hrest⟩⟩⟩
        rcases List.mem_cons.mp hmem with rfl | hmem
        · exact List.mem_cons_self
        · exact List.mem_cons_of_mem _ (List.mem_cons_of_mem _ hmem)

/-- A local variable or parameter of a name that may be shown at a cursor. -/
def Variable.Offered (v : Variable) (name : Text) (offset : Nat) : Prop :=
  v.kind ≠ .global ∧ v.id.name = name ∧ v.id.span.start.offset ≤ offset

/-- Where a variable may be shown, the one that is shown is declared nowhere in front of it. -/
theorem nearestLocal?_spec {declared : List Variable} {name : Text} {offset : Nat} {v : Variable}
    (hmem : v ∈ declared) (hv : v.Offered name offset) :
    ∃ r ∈ declared, nearestLocal? declared name offset = some r ∧ r.Offered name offset ∧
      v.id.span.start.offset ≤ r.id.span.start.offset := by
  have hoffered : ∀ w, w ∈ declared.filter (fun v => decide (v.kind ≠ .global ∧ v.id.name = name ∧
      (v.id.span.start.offset : Int) ≤ (offset : Int))) ↔ w ∈ declared ∧ w.Offered name offset := by
    intro w
    rw [List.mem_filter, decide_eq_true_eq, Variable.Offered, Int.ofNat_le]
  have hin := (hoffered v).mpr ⟨hmem, hv⟩
  rw [nearestLocal?]
  generalize declared.filter _ = offered at hoffered hin ⊢
  cases offered with
  | nil => cases hin
  | cons b rest =>
      obtain ⟨r, hr, hrmem, hle⟩ := foldl_laterVariable rest b
      obtain ⟨hdeclared, hroffered⟩ := (hoffered r).mp hrmem
      exact ⟨r, hdeclared, hr, hroffered, hle v hin⟩

/-! ## What is shown for a variable -/

/-- A variable as a declaration without its value: whether it is a parameter, or else whether it
    can change, its name and its type. -/
def Variable.text (v : Variable) : String :=
  let head := if v.kind = .param then "(parameter)" else letWord v.mutable
  s!"{head} {v.id.name}: {v.type}"

/-- What is said about a variable: the variable itself, and the property that a global is. -/
def Checked.describe (c : Checked) (v : Variable) : String :=
  description (codeBlock v.text ::
    if v.kind = .global then
      (c.properties.find? fun p => p.name == v.id.name).toList.map propertyText
    else [])

/-- Another declaration is shown in place of a local variable or a parameter: a global, a function
    or a signal of its name, or a local variable or a parameter of its name that is declared between
    it and the cursor. -/
inductive Checked.Hides (c : Checked) (v : Variable) (offset : Nat) : Prop where
  | global (g : GlobalInfo) (hg : g ∈ c.globals) (hname : g.name = v.id.name)
  | function (f : FunctionInfo) (hf : f ∈ c.functions) (hname : f.name = v.id.name)
  | signal (d : Signal) (hd : d ∈ c.signals) (hname : d.name = v.id.name)
  | variable (w : Variable) (hw : w ∈ c.symbols.map SymbolInfo.declared) (hne : w ≠ v)
      (hbehind : v.id.span.start.offset ≤ w.id.span.start.offset)
      (hoffered : w.Offered v.id.name offset)

theorem globalHover_describe (c : Checked) (g : GlobalInfo) :
    globalHover g (c.properties.find? fun p => p.name == g.name) = c.describe g.declared := rfl

theorem localHover_describe (c : Checked) {v : Variable} (h : v.kind ≠ .global) :
    localHover v = c.describe v := by
  rw [Checked.describe, if_neg h]
  rfl

/-- A local variable or a parameter that nothing hides is shown. -/
theorem declaredHover_local {c : Checked} {v : Variable} {offset : Nat}
    (hmem : v ∈ c.symbols.map SymbolInfo.declared) (hv : v.Offered v.id.name offset)
    (hidden : ¬c.Hides v offset) : declaredHover c v.id.name offset = some (c.describe v) := by
  have hglobals : c.globals.find? (fun g => g.name == v.id.name) = none :=
    List.find?_eq_none.mpr fun g hg hname => hidden (.global g hg (by simpa using hname))
  have hfunctions : c.functions.find? (fun f => f.name == v.id.name) = none :=
    List.find?_eq_none.mpr fun f hf hname => hidden (.function f hf (by simpa using hname))
  have hsignals : c.signals.find? (fun d => d.name == v.id.name) = none :=
    List.find?_eq_none.mpr fun d hd hname => hidden (.signal d hd (by simpa using hname))
  obtain ⟨r, hrmem, hr, hroffered, hbehind⟩ := nearestLocal?_spec hmem hv
  have hself : r = v := by
    by_contra hne
    exact hidden (.variable r hrmem hne hbehind hroffered)
  rw [declaredHover, hglobals, hfunctions, hsignals]
  simp only [hr, Option.map_some, hself, localHover_describe c hv.1]

/-! ## A name that is returned -/

/-- The first name that statements return, and the variable that it means there. -/
def returnedIn? (s : Surroundings) (owner : Signature) :
    List (Stmt Unit) → Option (Ident × Variable)
  | []                             => none
  | .ret _ (some (.ident id)) :: _ => (s.scope.find? id.name).map fun v => (id, v)
  | st :: rest                     =>
      returnedIn? { s with scope := (checkStmt s owner st).value.2 } owner rest

/-- The first name that the first function of a script returns. -/
def Program.returned? (p : Program Unit) : Option (Ident × Variable) :=
  let s := p.surroundings false [p.checkedGlobals.value.map GlobalInfo.declared]
  match p.collected.value with
  | []         => none
  | entry :: _ =>
      returnedIn? { s with scope := (enterBody s entry).value } (ownerOf entry) entry.1.body.body

section Returned

variable {p : Program Unit} {id : Ident} {v : Variable}

theorem Program.Reaches.returnedIn? {owner : Signature} {body : List (Stmt Unit)}
    {s : Surroundings} {found : List Finding} (h : p.Reaches found s (.stmts owner body))
    (hreturned : returnedIn? s owner body = some (id, v)) :
    ∃ s, p.LooksUp s id ∧ s.scope.find? id.name = some v := by
  fun_induction SceneScript.returnedIn? s owner body generalizing found with
  | case1 => cases hreturned
  | case2 s span name rest =>
      obtain ⟨w, hfind, hpair⟩ := Option.map_eq_some_iff.mp hreturned
      cases hpair
      exact ⟨s, .read ((h.part (.first owner _ rest)).part (.returned owner span _)), hfind⟩
  | case3 s st rest _ ih => exact ih (h.part (.later owner st rest)) hreturned

/-- The name is looked up where it means this variable. -/
theorem Program.looksUp_returned (h : p.returned? = some (id, v)) :
    ∃ s, p.LooksUp s id ∧ s.scope.find? id.name = some v := by
  have hbodies := Program.Reaches.bodies (p := p)
  rw [Program.returned?] at h
  generalize p.collected.value = entries at h hbodies
  cases entries with
  | nil => cases h
  | cons entry rest => exact (hbodies.part (.body entry rest)).returnedIn? h

end Returned

/-- An analysis that has a result of checking reached checking. -/
theorem analyze_checking_of_isSome {source : Text} {options : AnalysisOptions}
    (h : (analyze source options).checked?.isSome = true) :
    (analyze source options).reached =
      .checking (parseSource source).program (checkProgram (parseSource source).program) := by
  cases hreached : (analyze source options).reached with
  | checking p c =>
      obtain ⟨rfl, rfl, -⟩ := analyze_checking hreached
      rfl
  | _ =>
      rw [Analysis.checked?, hreached] at h
      cases h

/-! ## Hover and the checker -/

/-- **Hover and the checker.** Checking looks up every name that a script reads or writes. Where it
    finds a variable of the name, and the name is not that of a built-in function, a callback or a
    type, hovering anywhere over the name shows this variable: whether it is a parameter, or else
    whether it can change, its name and its type. A global is always shown, a local variable or a
    parameter unless another declaration of its name hides it. -/
theorem hover_resolved {source : Text} {options : AnalysisOptions} {p : Program Unit} {c : Checked}
    (hchecked : (analyze source options).reached = .checking p c) :
    (∀ id ∈ p.names, ∃ s, p.LooksUp s id) ∧
    ∀ s id v, p.LooksUp s id → s.scope.find? id.name = some v →
      Builtin.ofText? id.name = none → Lifecycle.ofFunction? id.name = none →
      (∀ t, Ty.ofText? id.name = some t → t = .unknown) →
      ∀ offset : Nat, id.span.start.offset ≤ offset → offset ≤ id.span.stop.offset →
        (v.kind ≠ .global → ¬c.Hides v offset) →
        hover source offset (some c) = some (c.describe v) := by
  obtain ⟨rfl, rfl, -⟩ := analyze_checking hchecked
  refine ⟨fun id => Program.names_lookedUp _, ?_⟩
  intro s id v hlookup hv hbuiltin hlifecycle htype offset hfirst hlast hidden
  obtain ⟨hused, hname, hcases⟩ := hlookup.resolved (parseSource_tree_nested source) hv
  rw [hover_word (parseSource_names source id hused) hbuiltin hlifecycle htype hfirst hlast,
    ← hname]
  rcases hcases with ⟨g, hg, rfl⟩ | ⟨hkind, hmem, hbefore⟩
  · have hfind := checkProgram_find_global hg
    rw [declaredHover]
    simp only [show g.declared.id.name = g.name from rfl, hfind, globalHover_describe]
  · exact declaredHover_local hmem ⟨hkind, rfl, Nat.le_trans hbefore hfirst⟩ (hidden hkind)

/-- Nothing hides the only parameter of a function. -/
theorem hover_resolved_parameter :
    ∃ p c s id v, (analyze "fn f(n: i32) -> i32 { return n; }" {}).reached = .checking p c ∧
      p.LooksUp s id ∧ s.scope.find? id.name = some v ∧ v.kind = .param ∧ ¬c.Hides v 30 ∧
      hover "fn f(n: i32) -> i32 { return n; }" 30 (some c) =
        some "```glint\n(parameter) n: i32\n```" := by
  obtain ⟨hchecked, hreturned⟩ :
      (analyze "fn f(n: i32) -> i32 { return n; }" {}).checked?.isSome = true ∧
      (parseSource "fn f(n: i32) -> i32 { return n; }").program.returned? =
        some (⟨"n", ⟨⟨29, 0, 29⟩, ⟨30, 0, 30⟩⟩⟩,
          ⟨⟨"n", ⟨⟨5, 0, 5⟩, ⟨6, 0, 6⟩⟩⟩, .param, .i32, false⟩) := by decide +kernel
  have hreached := analyze_checking_of_isSome hchecked
  obtain ⟨s, hlookup, hfind⟩ := Program.looksUp_returned hreturned
  generalize hc : checkProgram (parseSource "fn f(n: i32) -> i32 { return n; }").program = c
    at hreached
  obtain ⟨hglobals, hfunctions, hsignals, hsymbols, htext⟩ :
      c.globals = [] ∧ (∀ f ∈ c.functions, f.name = "f") ∧ c.signals = [] ∧
      c.symbols.map SymbolInfo.declared =
        [⟨⟨"n", ⟨⟨5, 0, 5⟩, ⟨6, 0, 6⟩⟩⟩, .param, .i32, false⟩] ∧
      c.describe ⟨⟨"n", ⟨⟨5, 0, 5⟩, ⟨6, 0, 6⟩⟩⟩, .param, .i32, false⟩ =
        "```glint\n(parameter) n: i32\n```" := by
    subst hc
    decide +kernel
  have hidden : ¬c.Hides ⟨⟨"n", ⟨⟨5, 0, 5⟩, ⟨6, 0, 6⟩⟩⟩, .param, .i32, false⟩ 30 := by
    rintro (⟨g, hg, -⟩ | ⟨f, hf, hname⟩ | ⟨d, hd, -⟩ | ⟨w, hw, hne, -, -⟩)
    · exact List.not_mem_nil (hglobals ▸ hg)
    · exact absurd ((hfunctions f hf).symm.trans hname) (by decide)
    · exact List.not_mem_nil (hsignals ▸ hd)
    · exact hne (List.mem_singleton.mp (hsymbols ▸ hw))
  obtain ⟨hbuiltin, hlifecycle, htype⟩ : Builtin.ofText? "n" = none ∧
      Lifecycle.ofFunction? "n" = none ∧ Ty.ofText? "n" = none := by decide +kernel
  refine ⟨_, c, s, _, _, hreached, hlookup, hfind, rfl, hidden, ?_⟩
  rw [← htext]
  exact (hover_resolved hreached).2 s _ _ hlookup hfind hbuiltin hlifecycle
    (fun t ht => nomatch htype.symm.trans ht) 30 (by decide) (by decide) fun _ => hidden

/-- A script is accepted, and of a name that touches an offset hover shows `shown`, though `meant`
    is the variable that checking finds. -/
def ShownAmiss (source : Text) (offset : Nat) (shown meant : String) : Prop :=
  (analyze source {}).ok = true ∧
  ∃ p c s id v, (analyze source {}).reached = .checking p c ∧
    p.LooksUp s id ∧ s.scope.find? id.name = some v ∧
    Builtin.ofText? id.name = none ∧ Lifecycle.ofFunction? id.name = none ∧
    Ty.ofText? id.name = none ∧
    id.span.start.offset ≤ offset ∧ offset ≤ id.span.stop.offset ∧
    hover source offset (some c) = some shown ∧ c.describe v = meant ∧ shown ≠ meant

theorem ShownAmiss.of_returned {source : Text} {offset : Nat} {shown meant : String} (id : Ident)
    (v : Variable)
    (haccepted : (analyze source {}).ok = true ∧ (analyze source {}).checked?.isSome = true ∧
      (parseSource source).program.returned? = some (id, v))
    (hname : Builtin.ofText? id.name = none ∧ Lifecycle.ofFunction? id.name = none ∧
      Ty.ofText? id.name = none ∧ id.span.start.offset ≤ offset ∧ offset ≤ id.span.stop.offset)
    (hshown : hover source offset (some (checkProgram (parseSource source).program)) = some shown ∧
      (checkProgram (parseSource source).program).describe v = meant ∧ shown ≠ meant) :
    ShownAmiss source offset shown meant := by
  obtain ⟨hok, hchecked, hreturned⟩ := haccepted
  obtain ⟨s, hlookup, hfind⟩ := Program.looksUp_returned hreturned
  obtain ⟨hbuiltin, hlifecycle, htype, hfirst, hlast⟩ := hname
  exact ⟨hok, _, _, s, id, v, analyze_checking_of_isSome hchecked, hlookup, hfind, hbuiltin,
    hlifecycle, htype, hfirst, hlast, hshown⟩

/-- A global hides a parameter, and so does a variable of a block that has ended. -/
theorem hover_shadowed :
    ShownAmiss "let x = 1; fn f(x: f32) -> f32 { return x; }" 40
      "```glint\nlet x: i32\n```" "```glint\n(parameter) x: f32\n```" ∧
    ShownAmiss "fn f(n: i32) -> i32 { { let n = 2.0; print(n); } return n; }" 56
      "```glint\nlet n: f32\n```" "```glint\n(parameter) n: i32\n```" :=
  ⟨.of_returned ⟨"x", ⟨⟨40, 0, 40⟩, ⟨41, 0, 41⟩⟩⟩
    ⟨⟨"x", ⟨⟨16, 0, 16⟩, ⟨17, 0, 17⟩⟩⟩, .param, .f32, false⟩
    (by decide +kernel) (by decide +kernel) (by decide +kernel),
   .of_returned ⟨"n", ⟨⟨56, 0, 56⟩, ⟨57, 0, 57⟩⟩⟩
    ⟨⟨"n", ⟨⟨5, 0, 5⟩, ⟨6, 0, 6⟩⟩⟩, .param, .i32, false⟩
    (by decide +kernel) (by decide +kernel) (by decide +kernel)⟩

end SceneScript
