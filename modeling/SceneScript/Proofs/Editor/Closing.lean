import SceneScript.Proofs.Editor.Library
import SceneScript.Proofs.Editor.Waiting

/-!
# Closing a document

When a document is closed its diagnostics are cleared and its analysis is dropped. A handler that
still holds the document does not learn of that: once it goes on it keeps the analysis again, and
publishes what it found behind the empty list. So closing is final when no handler holds the
document any more, and it is not when one waits for its project or has its analysis.

* **`Progress.Within`** — a handler touches nothing but what it holds.
* **`BusyServer.Without`** — nothing is left of a document; **`BusyServer.Without.run`** — and so it
  stays until it is opened.
* **`BusyServer.closing_final`** — when closing is final; **`BusyServer.overtaken`** — a document is
  closed while its project is read.
-/

namespace SceneScript

variable {L : EditorLibrary}

/-! ## What a handler touches -/

/-- The names of the documents behind the first. -/
def Purpose.uris : Purpose L → List String
  | .publish rest => rest.map L.uri
  | .answer _     => []

/-- The names of the documents that a handler holds. -/
def Handler.uris : Handler L → List String
  | .reading d _ p  => L.uri d :: p.uris
  | .analysed d _ p => L.uri d :: p.uris
  | .sent rest      => rest.map L.uri

/-- A handler has changed nothing but what is kept for documents of some names, and it holds and
    publishes only such. -/
structure Progress.Within (p : Progress L) (s : Server L) (names : List String) : Prop where
  server : p.server = { s with kept := p.server.kept }
  kept   : ∀ uri, uri ∉ names → p.server.kept.get? uri = s.kept.get? uri
  holds  : ∀ h, p.handler = some h → h.uris ⊆ names
  shows  : ∀ q ∈ p.effects.published, q.uri ∈ names

theorem Progress.Within.documents {p : Progress L} {s : Server L} {names : List String}
    (h : p.Within s names) : p.server.documents = s.documents := by
  rw [h.server]

namespace Server

variable {s : Server L}

theorem analyse_within (s : Server L) (d : L.Document) (loc : Location) (p : Purpose L)
    (project : Option Project) : (s.analyse d loc p project).Within s (L.uri d :: p.uris) where
  server := rfl
  kept name hname := by
    have hne : name ≠ L.uri d := fun hsame => hname (hsame ▸ List.mem_cons_self)
    exact (s.kept.get?_insert (L.uri d) _ name).trans (if_neg hne)
  holds handler hhandler := by
    cases hhandler
    exact List.Subset.refl _
  shows _ hq := absurd hq List.not_mem_nil

/-- The state has not changed. -/
theorem within_same {handler : Option (Handler L)} {effects : Effects} {names : List String}
    (hholds : ∀ h, handler = some h → h.uris ⊆ names)
    (hshows : ∀ q ∈ effects.published, q.uri ∈ names) :
    Progress.Within ⟨s, handler, effects⟩ s names where
  server   := rfl
  kept _ _ := rfl
  holds    := hholds
  shows    := hshows

/-- A handler only waits. -/
theorem within_waiting (s : Server L) (h : Handler L) :
    Progress.Within ⟨s, some h, {}⟩ s h.uris := by
  refine within_same (fun h' hh => ?_) fun _ hq => absurd hq List.not_mem_nil
  cases hh
  exact List.Subset.refl _

/-- A handler has come to its end. -/
theorem within_ended (s : Server L) (answers : List Answer) (names : List String) :
    Progress.Within ⟨s, none, { answers := answers }⟩ s names :=
  within_same (fun _ hh => nomatch hh) fun _ hq => absurd hq List.not_mem_nil

theorem takeUp_within (s : Server L) (d : L.Document) (p : Purpose L) :
    (s.takeUp d p).Within s (L.uri d :: p.uris) := by
  rw [takeUp]
  split
  · next k _ => exact s.within_waiting (.analysed d (.ok k) p)
  · split
    · next e _ => exact s.within_waiting (.analysed d (.error e) p)
    · next loc _ =>
        split
        · exact s.within_waiting (.reading d loc p)
        · exact s.analyse_within d loc p none

theorem takeUpNext_within (s : Server L) (docs : List L.Document) :
    (s.takeUpNext docs).Within s (docs.map L.uri) := by
  cases docs with
  | nil => exact s.within_ended [] []
  | cons d rest => exact s.takeUp_within d (.publish rest)

theorem resume_within (s : Server L) (project : Project) (handler : Handler L) :
    (s.resume project handler).Within s handler.uris := by
  cases handler with
  | reading d loc p => exact s.analyse_within d loc p (some project)
  | sent rest => exact s.takeUpNext_within rest
  | analysed d outcome p =>
      cases p with
      | answer of => cases outcome <;> exact s.within_ended _ _
      | publish rest =>
          cases outcome <;>
          · refine within_same (fun handler hhandler => ?_) fun q hq => ?_
            · cases hhandler
              exact List.subset_cons_self _ _
            · rw [List.mem_singleton.mp hq]
              exact List.mem_cons_self

/-- What is shown of an analysis is a matter of the settings. -/
theorem shown_congr {s' : Server L} (h : s.settings = s'.settings) (k : Kept) :
    s.shown k = s'.shown k := by
  cases s
  cases h
  rfl

/-- An analysis is a matter of the settings and of what the document holds. -/
theorem analyzed_congr {s' : Server L} (h : s'.settings = s.settings) {d : L.Document}
    (hd : L.Same s.documents s'.documents d) (loc : Location) (project : Option Project) :
    s'.analyzed d loc project = s.analyzed d loc project := by
  obtain ⟨hversion, htext⟩ := hd
  simp only [analyzed, options, h, hversion, htext]

end Server

/-! ## A document that is gone -/

/-- Whether a move opens a document of a name. -/
def Move.Opens (uri : String) : Move → Prop
  | .event (.opened name _ _) => name = uri
  | _                         => False

/-- What was published last for a document. -/
def lastShown (uri : String) (published : List Publication) : Option (List Diagnostic) :=
  ((published.filter fun q => q.uri = uri).getLast?).map (·.diagnostics)

theorem lastShown_append {uri : String} {later : List Publication}
    (h : ∀ q ∈ later, q.uri ≠ uri) (published : List Publication) :
    lastShown uri (published ++ later) = lastShown uri published := by
  have hnone : later.filter (fun q => q.uri = uri) = [] :=
    List.filter_eq_nil_iff.mpr fun q hq hsame => h q hq (of_decide_eq_true hsame)
  rw [lastShown, List.filter_append, hnone, List.append_nil, lastShown]

theorem lastShown_concat (uri : String) (published : List Publication) (list : List Diagnostic) :
    lastShown uri (published ++ [⟨uri, list⟩]) = some list := by
  have hlast : [(⟨uri, list⟩ : Publication)].filter (fun q => q.uri = uri) = [⟨uri, list⟩] :=
    List.filter_cons_of_pos (decide_eq_true rfl)
  rw [lastShown, List.filter_append, hlast, List.getLast?_append]
  rfl

namespace BusyServer

variable {b : BusyServer L} {uri : String}

/-- Nothing is left of a document: it is not open, no analysis of it is kept, and no handler holds
    it. -/
structure Without (uri : String) (b : BusyServer L) : Prop where
  named   : L.Named b.server.documents
  closed  : b.server.document? uri = none
  dropped : b.server.kept.get? uri = none
  free    : ∀ h ∈ b.waiting, uri ∉ h.uris

/-- Nothing is left of a document after a move, and nothing is published for it. -/
def LeavesWithout (uri : String) (next : BusyServer L × Effects) : Prop :=
  next.1.Without uri ∧ ∀ q ∈ next.2.published, q.uri ≠ uri

/-- A handler that holds other documents has gone on. -/
theorem Without.goes (h : b.Without uri) {p : Progress L} {names : List String}
    (hp : p.Within b.server names) (hnames : uri ∉ names) {waiting : List (Handler L)}
    (hwaiting : ∀ x ∈ waiting, x ∈ b.waiting ∨ p.handler = some x) :
    LeavesWithout uri (⟨p.server, waiting⟩, p.effects) := by
  refine ⟨⟨hp.documents ▸ h.named, ?_, (hp.kept uri hnames).trans h.dropped, fun x hx => ?_⟩,
    fun q hq hsame => hnames (hsame ▸ hp.shows q hq)⟩
  · rw [Server.document?, hp.documents]
    exact h.closed
  · rcases hwaiting x hx with hx | hx
    · exact h.free x hx
    · exact fun hin => hnames (hp.holds x hx hin)

theorem Without.join (h : b.Without uri) {p : Progress L} {names : List String}
    (hp : p.Within b.server names) (hnames : uri ∉ names) :
    LeavesWithout uri (join b.waiting p) :=
  h.goes hp hnames fun _ hx => (List.mem_append.mp hx).imp_right fun hx => Option.mem_toList.mp hx

theorem Without.quiet (h : b.Without uri) (answers : List Answer) :
    LeavesWithout uri (b, { answers := answers }) :=
  ⟨h, fun _ hq => absurd hq List.not_mem_nil⟩

theorem Without.resumed (h : b.Without uri) (n : Nat) (project : Project) :
    LeavesWithout uri (b.step (.resumed n project)) := by
  rw [step]
  cases hn : b.waiting[n]? with
  | none => exact h.quiet []
  | some handler =>
      have hmem := List.mem_of_getElem? hn
      refine h.goes (b.server.resume_within project handler) (h.free handler hmem) fun x hx => ?_
      rcases List.mem_append.mp hx with hx | hx
      · rcases List.mem_append.mp hx with hx | hx
        · exact .inl (List.mem_of_mem_take hx)
        · exact .inr (Option.mem_toList.mp hx)
      · exact .inl (List.mem_of_mem_drop hx)

/-- A document that is open under any name is another one. -/
theorem Without.ne (h : b.Without uri) {name : String} {d : L.Document}
    (hd : b.server.document? name = some d) : L.uri d ≠ uri := by
  rintro rfl
  rw [← h.named name d hd, h.closed] at hd
  cases hd

/-- Another document has become a new one. -/
theorem Without.renew (h : b.Without uri) {o : L.State} {d : L.Document}
    (hd : L.Renews b.server.documents o d) (hne : L.uri d ≠ uri) :
    LeavesWithout uri (b.renew (o, some d)) := by
  have hrenewed : Without uri ⟨{ b.server with documents := o }, b.waiting⟩ :=
    ⟨h.named.renewed hd, (hd.found uri).trans ((if_neg hne.symm).trans h.closed), h.dropped, h.free⟩
  exact hrenewed.join (Server.takeUpNext_within _ _) fun hin =>
    hne (List.mem_singleton.mp hin).symm

/-- Another document has been closed. -/
theorem Without.drop (h : b.Without uri) {o : L.State} {d : L.Document}
    (hd : L.Releases b.server.documents o (L.uri d)) (hne : L.uri d ≠ uri) :
    LeavesWithout uri (b.drop (o, some d)) := by
  refine ⟨⟨h.named.released hd, ?_, ?_, h.free⟩, fun q hq => ?_⟩
  · exact (hd.found uri).trans ((if_neg hne.symm).trans h.closed)
  · exact (b.server.kept.get?_erase (L.uri d) uri).trans ((if_neg hne.symm).trans h.dropped)
  · rw [List.mem_singleton.mp hq]
    exact hne

theorem Without.ask (h : b.Without uri) (name : String) (unknown : Answer)
    (answer : L.State → L.Document → Analysis → Answer) :
    LeavesWithout uri (b.ask name unknown answer) := by
  rw [BusyServer.ask]
  cases hd : b.server.document? name with
  | none => exact h.quiet [unknown]
  | some d =>
      refine h.join (b.server.takeUp_within _ _) fun hin => ?_
      exact h.ne hd (List.mem_singleton.mp hin).symm

/-- All open documents are analysed anew. -/
theorem Without.configured (hL : L.Lawful) (h : b.Without uri) (settings : Json) :
    LeavesWithout uri (b.receive (.configured settings)) := by
  have hcleared : Without uri ⟨{ b.server with
      settings := if b.server.takesSettings then ServerSettings.read settings else {}
      kept     := .empty }, b.waiting⟩ :=
    ⟨h.named, h.closed, NamedTable.get?_empty uri, h.free⟩
  refine hcleared.join (Server.takeUpNext_within _ _) fun hin => ?_
  obtain ⟨d, hd, hname⟩ := List.mem_map.mp hin
  obtain ⟨name, hfound⟩ := (hL.lists b.server.documents d).mp hd
  exact h.ne hfound hname

/-- Nothing comes back of a document with a move that does not open it. -/
theorem Without.step (hL : L.Lawful) (h : b.Without uri) {m : Move} (hm : ¬ m.Opens uri) :
    LeavesWithout uri (b.step m) := by
  cases m with
  | resumed n project => exact h.resumed n project
  | event e =>
      cases e with
      | connected capabilities =>
          exact ⟨⟨h.named, h.closed, h.dropped, h.free⟩, fun _ hq => absurd hq List.not_mem_nil⟩
      | configured settings => exact h.configured hL settings
      | opened name version text =>
          obtain ⟨o, d, hrun, hname, hd⟩ := hL.didOpen_renews b.server.documents name version text
          rw [BusyServer.step, receive, hrun]
          exact h.renew hd fun hsame => hm (hname.symm.trans hsame)
      | changed name version changes =>
          rw [BusyServer.step, receive]
          rcases hL.didChange_cases h.named name version changes with
            hrun | ⟨o, d, hrun, -, hopen, hd⟩
          · rw [hrun]
            exact h.quiet []
          · rw [hrun]
            exact h.renew hd (h.ne hopen)
      | closed name =>
          rw [BusyServer.step, receive]
          rcases hL.didClose_cases b.server.documents name with ⟨-, hrun⟩ | ⟨o, d, hopen, hrun, hd⟩
          · rw [hrun]
            exact h.quiet []
          · rw [hrun]
            obtain rfl : L.uri d = name := h.named name d hopen
            exact h.drop hd (h.ne hopen)
      | hover name place => exact h.ask name _ _
      | complete name place => exact h.ask name _ _
      | outline name => exact h.ask name _ _

/-- So it is with a sequence of moves. -/
theorem Without.run (hL : L.Lawful) (moves : List Move) : ∀ {b : BusyServer L}, b.Without uri →
    (∀ m ∈ moves, ¬ m.Opens uri) → LeavesWithout uri (b.run moves) := by
  induction moves with
  | nil => exact fun h _ => h.quiet []
  | cons m rest ih =>
      intro b h hmoves
      obtain ⟨hfirst, hshown⟩ := h.step hL (hmoves m List.mem_cons_self)
      obtain ⟨hlast, hlater⟩ := ih hfirst fun m hm => hmoves m (List.mem_cons_of_mem _ hm)
      refine ⟨hlast, fun q hq => ?_⟩
      rcases List.mem_append.mp hq with hq | hq
      · exact hshown q hq
      · exact hlater q hq

/-! ## Every run -/

theorem ask_named (h : L.Named b.server.documents) (name : String) (unknown : Answer)
    (answer : L.State → L.Document → Analysis → Answer) :
    L.Named (b.ask name unknown answer).1.server.documents := by
  rw [ask]
  split
  · exact h
  · exact (b.server.takeUp_within _ _).documents ▸ h

theorem renew_named (p : L.State × Option L.Document) (hp : L.Named p.1) :
    L.Named (b.renew p).1.server.documents := by
  obtain ⟨o, reported⟩ := p
  cases reported with
  | none => exact hp
  | some d => exact (Server.takeUpNext_within { b.server with documents := o } [d]).documents ▸ hp

theorem drop_named (p : L.State × Option L.Document) (hp : L.Named p.1) :
    L.Named (b.drop p).1.server.documents := by
  obtain ⟨o, reported⟩ := p
  cases reported <;> exact hp

/-- Every document stays under its own name. -/
theorem step_named (hL : L.Lawful) (h : L.Named b.server.documents) (m : Move) :
    L.Named (b.step m).1.server.documents := by
  cases m with
  | resumed n project =>
      rw [step]
      split
      · exact h
      · exact (b.server.resume_within project _).documents ▸ h
  | event e =>
      cases e with
      | connected capabilities => exact h
      | configured settings =>
          exact (Server.takeUpNext_within { b.server with
            settings := if b.server.takesSettings then ServerSettings.read settings else {}
            kept     := .empty } _).documents ▸ h
      | opened name version text =>
          refine renew_named _ ?_
          obtain ⟨o, d, hrun, -, hd⟩ := hL.didOpen_renews b.server.documents name version text
          rw [hrun]
          exact h.renewed hd
      | changed name version changes =>
          exact renew_named _ (hL.named_didChange h name version changes)
      | closed name => exact drop_named _ (hL.named_didClose h name)
      | hover name place => exact ask_named h name _ _
      | complete name place => exact ask_named h name _ _
      | outline name => exact ask_named h name _ _

theorem run_named (hL : L.Lawful) (moves : List Move) : ∀ {b : BusyServer L},
    L.Named b.server.documents → L.Named (b.run moves).1.server.documents := by
  induction moves with
  | nil => exact fun h => h
  | cons m rest ih => exact fun h => ih (step_named hL h m)

theorem run_append (before later : List Move) : ∀ b : BusyServer L,
    b.run (before ++ later) = (((b.run before).1.run later).1,
      (b.run before).2 ++ ((b.run before).1.run later).2) := by
  induction before with
  | nil => exact fun b => rfl
  | cons m rest ih =>
      intro b
      rw [List.cons_append, run, ih, run, Effects.append_assoc]

/-! ## Closing -/

/-- A document has been closed: of it nothing is kept, and all else is as it was. -/
structure Closed (uri : String) (b c : BusyServer L) : Prop where
  named    : L.Named c.server.documents
  closed   : c.server.document? uri = none
  dropped  : c.server.kept.get? uri = none
  settings : c.server.settings = b.server.settings
  same     : ∀ d, L.Same b.server.documents c.server.documents d
  waiting  : c.waiting = b.waiting

variable {c : BusyServer L}

theorem receive_closed (hL : L.Lawful) (h : L.Named b.server.documents)
    (hopen : (b.server.document? uri).isSome) : ∃ c,
      b.receive (.closed uri) = (c, { published := [⟨uri, []⟩] }) ∧ Closed uri b c := by
  rcases hL.didClose_cases b.server.documents uri with ⟨hnone, -⟩ | ⟨o, d, hd, hrun, ho⟩
  · rw [Server.document?, hnone] at hopen
    cases hopen
  · obtain rfl : L.uri d = uri := h uri d hd
    refine ⟨(b.drop (o, some d)).1, ?_, h.released ho, ?_, ?_, rfl, ho.same, rfl⟩
    · rw [receive, hrun]
      rfl
    · exact (ho.found (L.uri d)).trans (if_pos rfl)
    · exact (b.server.kept.get?_erase (L.uri d) (L.uri d)).trans (if_pos rfl)

/-- When a document is closed, nothing is left of it but what handlers hold. -/
theorem Closed.without (hc : Closed uri b c) (hfree : ∀ x ∈ b.waiting, uri ∉ x.uris) :
    c.Without uri :=
  ⟨hc.named, hc.closed, hc.dropped, hc.waiting ▸ hfree⟩

theorem step_resumed {n : Nat} {handler : Handler L} (hn : b.waiting[n]? = some handler)
    (project : Project) : b.step (.resumed n project) =
      (⟨(b.server.resume project handler).server, b.waiting.take n ++
        (b.server.resume project handler).handler.toList ++ b.waiting.drop (n + 1)⟩,
      (b.server.resume project handler).effects) := by
  rw [step, hn]

/-- A handler that waits again waits in its place. -/
theorem waiting_resumed {n : Nat} {handler next : Handler L} (hn : b.waiting[n]? = some handler)
    {project : Project} (hnext : (b.server.resume project handler).handler = some next) :
    (b.step (.resumed n project)).1.waiting[n]? = some next := by
  have hlength : (b.waiting.take n).length = n :=
    List.length_take_of_le (Nat.le_of_lt (List.getElem?_eq_some_iff.mp hn).1)
  rw [step_resumed hn, hnext, List.append_assoc, List.getElem?_append_right (Nat.le_of_eq hlength),
    hlength, Nat.sub_self]
  rfl

/-- A handler that has an analysis publishes it. -/
theorem analysed_publishes {n : Nat} {d : L.Document} {k : Kept} {rest : List L.Document}
    (hn : b.waiting[n]? = some (.analysed d (.ok k) (.publish rest))) (project : Project) :
    (b.step (.resumed n project)).2.published = [⟨L.uri d, b.server.shown k⟩] := by
  rw [step_resumed hn]
  rfl

/-- A handler that waits for a project keeps the analysis, and waits with it. -/
theorem reading_keeps {n : Nat} {d : L.Document} {loc : Location} {p : Purpose L}
    (hn : b.waiting[n]? = some (.reading d loc p)) (project : Project) :
    let k := b.server.analyzed d loc (some project)
    let next := b.step (.resumed n project)
    next.1.server = b.server.keep (L.uri d) k ∧ next.2.published = [] ∧
      next.1.waiting[n]? = some (.analysed d (.ok k) p) := by
  refine ⟨?_, ?_, waiting_resumed hn rfl⟩
  · rw [step_resumed hn]
    rfl
  · rw [step_resumed hn]
    rfl

/-- When a document has been closed, a handler that waits for its project keeps an analysis of it
    again, and then publishes it. -/
theorem Closed.reading (hc : Closed uri b c) {n : Nat} {d : L.Document} {loc : Location}
    {p : Purpose L} (hn : b.waiting[n]? = some (.reading d loc p)) (hd : L.uri d = uri)
    (project : Project) :
    let k := b.server.analyzed d loc (some project)
    (c.run [.resumed n project]).1.server.kept.get? uri = some k ∧
      ∀ rest, p = .publish rest →
        (c.run [.resumed n project, .resumed n project]).2.published =
          [⟨uri, b.server.shown k⟩] := by
  subst hd
  have hsame : c.server.analyzed d loc (some project) = b.server.analyzed d loc (some project) :=
    Server.analyzed_congr hc.settings (hc.same d) loc (some project)
  obtain ⟨hserver, hnothing, hwaits⟩ := reading_keeps (hc.waiting ▸ hn) project
  rw [hsame] at hserver hwaits
  refine ⟨?_, ?_⟩
  · show (c.step _).1.server.kept.get? _ = _
    rw [hserver]
    exact (NamedTable.get?_insert _ _ _ _).trans (if_pos rfl)
  · rintro rest rfl
    have hlast := analysed_publishes hwaits project
    have hshown : ∀ k, (c.server.keep (L.uri d) k).shown k = b.server.shown k :=
      fun k => Server.shown_congr hc.settings k
    rw [hserver, hshown] at hlast
    show (c.step _).2.published ++ ((step _ _).2.published ++ []) = _
    rw [hnothing, hlast]
    rfl

/-- When a document has been closed, a handler that has its analysis publishes that. -/
theorem Closed.analysed (hc : Closed uri b c) {n : Nat} {d : L.Document} {k : Kept}
    {rest : List L.Document} (hn : b.waiting[n]? = some (.analysed d (.ok k) (.publish rest)))
    (hd : L.uri d = uri) (project : Project) :
    (c.run [.resumed n project]).2.published = [⟨uri, b.server.shown k⟩] := by
  subst hd
  show (c.step _).2.published ++ [] = _
  rw [List.append_nil, analysed_publishes (hc.waiting ▸ hn) project,
    Server.shown_congr hc.settings]

/-- Closing a document, in every run and over any library that does what is documented of it. It is
    final when no handler holds the document. A handler that waits for its project keeps an analysis
    of it again and publishes that, and one that has its analysis publishes it, behind the list that
    clears it. -/
theorem closing_final (hL : L.Lawful) (history : List Move) (uri : String)
    (hopen : ((run ({} : BusyServer L) history).1.server.document? uri).isSome) :
    let b := (run ({} : BusyServer L) history).1
    let after := fun later => run ({} : BusyServer L) (history ++ .event (.closed uri) :: later)
    ((∀ h ∈ b.waiting, uri ∉ h.uris) → ∀ later, (∀ m ∈ later, ¬ m.Opens uri) →
      lastShown uri (after later).2.published = some [] ∧
        (after later).1.server.kept.get? uri = none) ∧
    (∀ n d loc p project, b.waiting[n]? = some (.reading d loc p) → L.uri d = uri →
      let k := b.server.analyzed d loc (some project)
      (after [.resumed n project]).1.server.kept.get? uri = some k ∧
        ∀ rest, p = .publish rest →
          lastShown uri (after [.resumed n project, .resumed n project]).2.published =
            some (b.server.shown k)) ∧
    (∀ n d k rest project, b.waiting[n]? = some (.analysed d (.ok k) (.publish rest)) →
      L.uri d = uri →
        lastShown uri (after [.resumed n project]).2.published = some (b.server.shown k)) := by
  intro b after
  have hb : L.Named b.server.documents := run_named hL history hL.named_start
  obtain ⟨c, hclosed, hc⟩ := receive_closed hL hb hopen
  have hstate : ∀ later, (after later).1 = (c.run later).1 := by
    intro later
    show (run _ (history ++ .event (.closed uri) :: later)).1 = _
    rw [run_append, run, step, hclosed]
  have hpublished : ∀ later, (after later).2.published =
      (run ({} : BusyServer L) history).2.published ++ [⟨uri, []⟩] ++
        (c.run later).2.published := by
    intro later
    show (run _ (history ++ .event (.closed uri) :: later)).2.published = _
    rw [run_append, run, step, hclosed, List.append_assoc]
    rfl
  refine ⟨fun hfree later hlater => ?_, fun n d loc p project hn hd => ?_,
    fun n d k rest project hn hd => ?_⟩
  · obtain ⟨hwithout, hshown⟩ := (hc.without hfree).run hL later hlater
    rw [hstate, hpublished, lastShown_append hshown, lastShown_concat]
    exact ⟨rfl, hwithout.dropped⟩
  · obtain ⟨hkept, hlast⟩ := hc.reading hn hd project
    refine ⟨by rw [hstate]; exact hkept, fun rest hp => ?_⟩
    rw [hpublished, hlast rest hp, lastShown_concat]
  · rw [hpublished, hc.analysed hn hd project, lastShown_concat]

/-- A server over documents in text buffers. -/
abbrev start : BusyServer .buffered := {}

/-- A document is opened, and its handler comes to its end. -/
def settled : List Move :=
  [.event (.opened "file:///a.glint" 1 "let x = ;"), .resumed 0 {}, .resumed 0 {}, .resumed 0 {}]

theorem closing_final_settled :
    EditorLibrary.buffered.Lawful ∧
    ((start.run settled).1.server.document? "file:///a.glint").isSome ∧
    (∀ h ∈ (start.run settled).1.waiting, "file:///a.glint" ∉ h.uris) ∧
    let later : List Move := [.event (.configured .null), .resumed 0 {},
      .event (.changed "file:///a.glint" 2 [⟨none, "let x = "⟩]), .resumed 0 {}]
    lastShown "file:///a.glint"
      (start.run (settled ++ .event (.closed "file:///a.glint") :: later)).2.published = some [] := by
  have hopen : ((start.run settled).1.server.document? "file:///a.glint").isSome := by
    decide +kernel
  have hnone : (start.run settled).1.waiting.isEmpty := by decide +kernel
  have hfree : ∀ h ∈ (start.run settled).1.waiting, "file:///a.glint" ∉ h.uris := by
    rw [List.isEmpty_iff.mp hnone]
    exact fun h hh => absurd hh List.not_mem_nil
  have hlater : ∀ m ∈ ([.event (.configured .null), .resumed 0 {},
      .event (.changed "file:///a.glint" 2 [⟨none, "let x = "⟩]), .resumed 0 {}] : List Move),
      ¬ m.Opens "file:///a.glint" := by
    intro m hm hopens
    simp only [List.mem_cons, List.not_mem_nil, or_false] at hm
    rcases hm with rfl | rfl | rfl | rfl <;> exact hopens
  have hfinal := closing_final EditorLibrary.buffered_lawful settled "file:///a.glint" hopen
  exact ⟨EditorLibrary.buffered_lawful, hopen, hfree, (hfinal.1 hfree _ hlater).1⟩

/-- A document is opened, and closed while its project is read; then its handler goes on. -/
def overtaken : List Move :=
  [.event (.opened "file:///a.glint" 1 "let x = ;"), .event (.closed "file:///a.glint"),
   .resumed 0 {}, .resumed 0 {}]

theorem closing_final_overtaken :
    ((start.run overtaken).1.server.document? "file:///a.glint").isNone ∧
    (lastShown "file:///a.glint" (start.run overtaken).2.published).map (·.map (·.code)) =
      some ["E103"] ∧
    ((start.run overtaken).1.server.kept.get? "file:///a.glint").isSome := by
  decide +kernel

end BusyServer

end SceneScript
