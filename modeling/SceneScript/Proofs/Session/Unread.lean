import SceneScript.Proofs.Eval.Unread
import SceneScript.Proofs.Session.Creation
import SceneScript.Proofs.Session.Serving
import SceneScript.Proofs.Typing.Annotated

/-!
# Following the advice about unused variables

A variable that is reported as unused is one that is never read. What it begins with makes no
difference then, unless it is a node: a field of a node that is written through the variable is no
use of it to the checker, and yet the scene sees which node it is.

* **`Script.Edited.standsIn_reinit`** — with another initializer for such a variable a script can
  take its own place.
* **`unused_irrelevant`** — the whole; **`unused_not_irrelevant`** — not so for nodes that are
  written through.
-/

namespace SceneScript

variable {σ : Type} {R : Changes σ} {host : Host σ} {x : Ident} {t : Ty} {b : Expr}

/-- What is reported as unused is not read, and not written if that was not found either. -/
theorem unread_of_reported {rules : LintRules} {found : List Finding} {symbol : SymbolInfo}
    (hsymbol : symbol ∈ findingSymbols found)
    (hreported : (LintProblem.unused symbol.declared.id.name).diagnostic symbol.declared.id.span ∈
      lintSymbol rules symbol) :
    Finding.read symbol.declared.id ∉ found ∧
      (symbol.writes = 0 → Finding.written symbol.declared.id ∉ found) := by
  have hreads : symbol.reads = 0 := by
    simp only [lintSymbol] at hreported
    split at hreported
    · cases hreported
    · rcases List.mem_append.mp hreported with hreported | hreported
      · split at hreported
        case isTrue hcond => exact hcond.2
        case isFalse => cases hreported
      -- The other warning about variables has a code of its own.
      · split at hreported
        · have hcode : "W001" = "W003" := congrArg Diagnostic.code (List.mem_singleton.mp hreported)
          exact absurd hcode (by decide)
        · cases hreported
  obtain ⟨f, hf, hview⟩ := List.mem_filterMap.mp hsymbol
  split at hview
  · cases hview
    exact ⟨List.count_eq_zero.mp hreads, List.count_eq_zero.mp⟩
  · cases hview

/-- Code of a script that obeys the rules sees only types that are known. -/
theorem Checked.WellTyped.known_surroundings {c : Checked} (h : c.WellTyped) :
    Known c.surroundings :=
  have k := h.known_initializing (List.append_nil c.globals).symm
  ⟨k.visible, k.functions, k.signals⟩

namespace Instance

/-- Globals are initialized without running any function. -/
theorem seedGlobals_reinit {script : Script} {a : Attachment} (hb : b.IsAtom)
    (hc : script.checked.WellTyped) (hk : host.Keeps script.checked.signals R) (fuel : Nat)
    (after : List GlobalInfo) :
    ∀ (before : List GlobalInfo) (w : World σ), script.checked.globals = before ++ after →
      w.globals.Matches (before.map GlobalInfo.declared) →
      seedGlobals ((machine host script a).edit (.reinit x b)) fuel after w =
        seedGlobals (machine host script a) fuel after w := by
  induction after with
  | nil => exact fun _ _ _ _ => rfl
  | cons g rest ih =>
      intro before w hsplit hw
      have hwell := hc.globals before g rest hsplit
      obtain ⟨u, hu, hfit⟩ := hwell.init
      have hready : (machine host script a).Ready (before.map GlobalInfo.declared) false R :=
        ⟨hk, Bool.noConfusion⟩
      have hrun : Runs (before.map GlobalInfo.declared) R
          ((machine host script a).eval 0 [] fuel g.decl.init) w (fun v _ => v.type = u) :=
        (Machine.soundAt hready fuel).eval hu (Locals.sees_globals _) hw
      have hsame : ((machine host script a).edit (.reinit x b)).eval 0 [] fuel g.decl.init w =
          (machine host script a).eval 0 [] fuel g.decl.init w :=
        (Machine.unreadAt hready hb Bool.noConfusion fuel).eval hu (Locals.sees_globals _)
          (fun _ _ => rfl) hw
      rw [seedGlobals, seedGlobals, hsame]
      cases hx : (machine host script a).eval 0 [] fuel g.decl.init w with
      | error h w' => rfl
      | ok v w' =>
          obtain ⟨hw', hv⟩ := hrun.of_ok hx
          have hfresh : Scope.inFrame? g.name (before.map GlobalInfo.declared) = none := by
            have hfind := hwell.fresh
            rw [Checked.initializing, Scope.find?_cons] at hfind
            exact (Option.or_eq_none_iff.mp hfind).1
          refine ih (before ++ [g]) _ (by rw [hsplit, List.append_assoc]; rfl) ?_
          rw [List.map_append]
          exact hw'.declare (x := g.declared) hfresh (Value.coerceOrKeep_type (hv ▸ hfit))

end Instance

/-- A script with another initializer for a variable that it does not read can take its place, on
    any host that answers. -/
theorem Script.Edited.standsIn_reinit {s s' : Script} (h : Edited (.reinit x b) s s')
    (hb : b.IsAtom) (hc : s.checked.WellTyped)
    (hspares : ∀ f ∈ s.checked.functions, f.Spares x b s.checked.surroundings)
    (hk : host.Keeps s.checked.signals R) : StandsIn host Instance.Typed s s' := by
  have hmachine : ∀ a, Instance.machine host s' a =
      (Instance.machine host s a).edit (.reinit x b) := by
    intro a
    rw [Instance.machine, h.functions, h.signals]
    rfl
  refine ⟨h.properties, h.lifecycle, fun fuel a properties state => h.create ?_ properties,
    fun i hi hI fuel name args state => h.invoke hi fun bound hbound => ?_,
    fun fuel a properties state i hran => ?_, fun i hi hI fuel name args state => ?_,
    fun i i' name v _ hI hset => hI.setProperty hset⟩
  · rw [hmachine]
    exact Instance.seedGlobals_reinit hb hc hk fuel s.checked.globals [] ⟨[], state⟩ rfl
      Bindings.matches_nil
  · subst hi
    have hready : (Instance.machine host i.script i.attachment).Ready
        (i.script.checked.globals.map GlobalInfo.declared) true R := ⟨hk, fun _ => hc.functions⟩
    rcases Instance.receive_sound i name args with ⟨_, hrefused, -⟩ | ⟨f, _, hreceived, hf, hfit⟩
    · cases hrefused.symm.trans hbound
    · cases hreceived.symm.trans hbound
      rw [hmachine]
      exact (Machine.unreadAt hready hb (fun _ => hspares) fuel).call rfl hf hfit hI.globals
  · have hsound := (Instance.create_sound hc hk fuel a properties state).2
    rw [hran] at hsound
    exact hsound
  · subst hi
    rcases Instance.invoke_sound hI hk fuel name args state with
      ⟨_, -, hran⟩ | ⟨_, _, _, -, hran, htyped, -⟩
    · rw [hran]
      exact hI
    · rw [hran]
      exact htyped

/-- What a variable begins with makes no difference when it is reported as unused. It is of any type
    but that of nodes, or is not written either; it begins with a literal, a name or `self`, and so
    it does in the other script, which is accepted as well and in which it has the same type. Then
    no host that answers sees a difference between the two scripts from the creation of an instance
    on, whatever is asked of it. -/
theorem unused_irrelevant (p : Program Unit) (rules : LintRules) (x : Ident) (t : Ty) {a b : Expr}
    (ha : a.IsAtom) (hb : b.IsAtom)
    (haccepted : (checkProgram (p.edit (.reinit x a))).diagnostics = [])
    (haccepted' : (checkProgram (p.edit (.reinit x b))).diagnostics = [])
    (htype : ∀ symbol ∈ (checkProgram (p.edit (.reinit x a))).symbols ++
      (checkProgram (p.edit (.reinit x b))).symbols,
      symbol.declared.id = x → symbol.declared.type = t)
    (hreported : ∃ symbol ∈ (checkProgram (p.edit (.reinit x a))).symbols,
      symbol.declared.id = x ∧
      (LintProblem.unused x.name).diagnostic x.span ∈ lintSymbol rules symbol ∧
      (t = .node → symbol.writes = 0))
    {σ : Type} {R : Changes σ} (host : Host σ)
    (hk : host.Keeps (checkProgram (p.edit (.reinit x a))).signals R) :
    ∀ filename fuel attachment properties state requests,
      Script.life host fuel ⟨filename, checkProgram (p.edit (.reinit x b))⟩ attachment properties
          state requests =
        Script.life host fuel ⟨filename, checkProgram (p.edit (.reinit x a))⟩ attachment properties
          state requests := by
  obtain ⟨symbol, hsymbol, rfl, hreported, hwrites⟩ := hreported
  obtain ⟨hread, hwritten⟩ := unread_of_reported hsymbol hreported
  have hwell := Program.wellTyped_of_diagnostics haccepted
  have hspared : ∀ f ∈ (checkProgram (p.edit (.reinit symbol.declared.id a))).findings,
      f.Spares symbol.declared.id t := by
    intro f hf
    cases f with
    | problem problem span => exact Program.no_problem haccepted problem span hf
    | declared v =>
        exact htype ⟨v, _, _⟩ (List.mem_append_left _ (List.mem_filterMap.mpr ⟨_, hf, rfl⟩))
    | read id =>
        rintro rfl
        exact hread hf
    | written id =>
        rintro hnode rfl
        exact hwritten (hwrites hnode) hf
    | bound _ => trivial
  have htyped : ∀ f ∈ (checkProgram (p.edit (.reinit symbol.declared.id b))).findings,
      f.Types symbol.declared.id t := by
    intro f hf
    cases f with
    | problem problem span => exact Program.no_problem haccepted' problem span hf
    | declared v =>
        exact htype ⟨v, _, _⟩ (List.mem_append_right _ (List.mem_filterMap.mpr ⟨_, hf, rfl⟩))
    | _ => trivial
  obtain ⟨⟨hfunctions, hglobals, hsignals⟩, hspares⟩ :=
    checkProgram_reinit ha hwell.known_surroundings hwell hspared htyped
  intro filename fuel attachment properties state requests
  have hedited : Script.Edited (.reinit symbol.declared.id b)
      ⟨filename, checkProgram (p.edit (.reinit symbol.declared.id a))⟩
      ⟨filename, checkProgram (p.edit (.reinit symbol.declared.id b))⟩ :=
    ⟨hfunctions, hglobals, hsignals⟩
  exact (hedited.standsIn_reinit hb hwell hspares hk).life fuel attachment properties state requests

/-- A script with a variable that is assigned and never read. -/
def addingUp : Program Unit :=
  (parseSource "fn f(k: i32) -> i32 \x7b let mut n = 1; n += k; return k; \x7d").program

/-- The variable. -/
def addedUp : Ident := ⟨"n", ⟨⟨30, 0, 30⟩, ⟨31, 0, 31⟩⟩⟩

/-- The script with an expression for what it begins with. -/
def addingFrom (e : Expr) : Checked := checkProgram (addingUp.edit (.reinit addedUp e))

theorem unused_irrelevant_added :
    ((addingFrom (.int addedUp.span 1 "1")).diagnostics = [] ∧
      (addingFrom (.ident ⟨"k", addedUp.span⟩)).diagnostics = [] ∧
      (∀ symbol ∈ (addingFrom (.int addedUp.span 1 "1")).symbols ++
        (addingFrom (.ident ⟨"k", addedUp.span⟩)).symbols,
        symbol.declared.id = addedUp → symbol.declared.type = .i32) ∧
      ∃ symbol ∈ (addingFrom (.int addedUp.span 1 "1")).symbols, symbol.declared.id = addedUp ∧
        (LintProblem.unused addedUp.name).diagnostic addedUp.span ∈ lintSymbol {} symbol ∧
        (Ty.i32 = .node → symbol.writes = 0)) ∧
    ∀ requests, Script.life Scene.host 9 ⟨none, addingFrom (.ident ⟨"k", addedUp.span⟩)⟩
        ⟨Scene.root, 256, .silent⟩ [] (Scene.ofRoot "root") requests =
      Script.life Scene.host 9 ⟨none, addingFrom (.int addedUp.span 1 "1")⟩
        ⟨Scene.root, 256, .silent⟩ [] (Scene.ofRoot "root") requests := by
  refine (and_iff_left_of_imp ?_).mpr (by decide +kernel)
  rintro ⟨haccepted, haccepted', htype, hreported⟩
  exact unused_irrelevant addingUp {} addedUp .i32 (a := .int addedUp.span 1 "1")
    (b := .ident ⟨"k", addedUp.span⟩) trivial trivial haccepted haccepted' htype hreported
    Scene.host (Scene.hostWith_keeps (fun _ _ => []) _) none 9 _ [] _

/-- A script with a variable that is used to rename a node. -/
def handing : Program Unit :=
  (parseSource
    "let a: Node = get_node(\"a\"); fn f() \x7b let n = self; n.name = \"x\"; \x7d").program

/-- The variable. -/
def renamed : Ident := ⟨"n", ⟨⟨42, 0, 42⟩, ⟨43, 0, 43⟩⟩⟩

/-- The script with an expression for the node to be renamed. -/
def renamingOf (e : Expr) : Checked := checkProgram (handing.edit (.reinit renamed e))

/-- The names of the nodes after the function was called, on a root with one child. -/
def namesAfter (c : Checked) : List (List Text) :=
  (Script.life Scene.host 9 ⟨none, c⟩ ⟨Scene.root, 256, .silent⟩ []
    ⟨[⟨"root", none, [2], .zero, .zero, .zero, true⟩, ⟨"a", some 1, [], .zero, .zero, .zero, true⟩],
      #[], #[]⟩
    [.invoke 9 "f" []]).map fun served => served.host.nodes.map SceneNode.name

/-- Not so for nodes: a variable that is reported as unused decides which node is renamed. -/
theorem unused_not_irrelevant :
    (renamingOf (.self renamed.span)).diagnostics = [] ∧
    (renamingOf (.ident ⟨"a", renamed.span⟩)).diagnostics = [] ∧
    (∃ symbol ∈ (renamingOf (.self renamed.span)).symbols, symbol.declared.id = renamed ∧
      symbol.declared.type = .node ∧
      (LintProblem.unused renamed.name).diagnostic renamed.span ∈ lintSymbol {} symbol) ∧
    namesAfter (renamingOf (.self renamed.span)) =
      ([["root", "a"], ["x", "a"]] : List (List Text)) ∧
    namesAfter (renamingOf (.ident ⟨"a", renamed.span⟩)) =
      ([["root", "a"], ["root", "x"]] : List (List Text)) := by
  decide +kernel

end SceneScript
