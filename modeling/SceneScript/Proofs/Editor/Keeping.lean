import SceneScript.Editor.Server
import SceneScript.Proofs.Editor.Library

/-!
# Kept analyses do not show

A server keeps the last analysis of every open document and goes on using it while the version of
the document stays. Beside it stands a server that keeps nothing: whenever it needs an analysis it
reads the project of the document and analyses the text under the settings of the moment. As long
as an editor does not change a text without its version, nobody can tell the two apart by what
they answer and publish, whichever library holds the documents.

* **`ServerSettings.analysis`** — the analysis of a document, made anew.
* **`ForgetfulServer`** — a server that keeps nothing.
* **`Server.Coherent`** — what is kept is what would be made anew.
* **`Server.handle_forget`** — one event leads both servers to the same; and so does a whole
  sequence of them, **`Server.responses_forget`**.
-/

namespace SceneScript

variable {L : EditorLibrary}

/-! ## A server that keeps nothing -/

/-- The analysis of a document under settings: its project is read and its text is analysed. -/
def ServerSettings.analysis (files : Files Id) (settings : ServerSettings) (o : L.State)
    (d : L.Document) : Except Text Kept :=
  let s : Server L := { settings := settings, documents := o }
  (L.locate (L.uri d)).map fun loc => s.analyzed d loc (Server.projectOf files s loc)

/-- What an editor gets of a reaction: the answer, and what is published. -/
structure Response where
  answer    : Answer := .silence
  published : List Publication := []

/-- A server that keeps no analyses: its settings, whether the editor sends any, and the
    documents. -/
structure ForgetfulServer (L : EditorLibrary) where
  settings      : ServerSettings := {}
  takesSettings : Bool := false
  documents     : L.State := L.start

namespace ForgetfulServer

/-- The server after an event. -/
def next (s : ForgetfulServer L) : ServerEvent → ForgetfulServer L
  | .connected capabilities =>
      let configuration := (capabilities.get? "workspace").bind (Json.get? "configuration")
      { s with takesSettings := configuration.any Json.isAffirmative }
  | .configured settings =>
      { s with settings := if s.takesSettings then ServerSettings.read settings else {} }
  | .opened uri version text =>
      { s with documents := (L.didOpen s.documents uri version text).1 }
  | .changed uri version changes =>
      { s with documents := (L.didChange s.documents uri version changes).1 }
  | .closed uri => { s with documents := (L.didClose s.documents uri).1 }
  | _           => s

/-- What is published under a name for an analysis. -/
def shown (s : ForgetfulServer L) (uri : String) : Except Text Kept → Publication
  | .error _ => ⟨uri, []⟩
  | .ok k    =>
      let server : Server L := { settings := s.settings }
      server.publication uri k

/-- What is published about a document. -/
def publication (files : Files Id) (s : ForgetfulServer L) (d : L.Document) : Publication :=
  s.shown (L.uri d) (s.settings.analysis files s.documents d)

/-- What is published when the library has reported a document. -/
def renewal (files : Files Id) (s : ForgetfulServer L) (reported : Option L.Document) : Response :=
  { published := reported.toList.map (s.publication files) }

/-- The answer to a question about a document, from its analysis. -/
def ask (files : Files Id) (s : ForgetfulServer L) (uri : String) (unknown : Answer)
    (answer : L.State → L.Document → Analysis → Answer) : Response :=
  match L.document? s.documents uri with
  | none   => { answer := unknown }
  | some d =>
      match s.settings.analysis files s.documents d with
      | .error e => { answer := .failure e }
      | .ok k    => { answer := answer s.documents d k.analysis }

/-- What the editor gets for an event. -/
def response (files : Files Id) (s : ForgetfulServer L) (e : ServerEvent) : Response :=
  match e with
  | .connected _  => { answer := .capabilities }
  | .configured _ =>
      { published := (L.documents s.documents).map ((s.next e).publication files) }
  | .opened uri version text =>
      (s.next e).renewal files (L.didOpen s.documents uri version text).2
  | .changed uri version changes =>
      (s.next e).renewal files (L.didChange s.documents uri version changes).2
  | .closed uri =>
      { published := (L.didClose s.documents uri).2.toList.map fun d => ⟨L.uri d, []⟩ }
  | .hover uri place    => s.ask files uri (.description none) (Server.describeAt place)
  | .complete uri place => s.ask files uri (.proposals []) (Server.proposeAt place)
  | .outline uri        => s.ask files uri (.entries []) Server.outlineOf

/-- What the editor gets for a sequence of events. -/
def responses (files : Files Id) : ForgetfulServer L → List ServerEvent → List Response
  | _, []      => []
  | s, e :: es => s.response files e :: responses files (s.next e) es

/-- An event leaves no name with another text under the same version. -/
def Announces (s : ForgetfulServer L) (e : ServerEvent) : Prop :=
  ∀ d ∈ L.documents s.documents, ∀ d' ∈ L.documents (s.next e).documents, L.uri d = L.uri d' →
    L.version s.documents d = L.version (s.next e).documents d' →
      L.text s.documents d = L.text (s.next e).documents d'

instance (s : ForgetfulServer L) (e : ServerEvent) : Decidable (s.Announces e) := by
  unfold Announces
  infer_instance

/-- Nor does any event of a sequence. -/
def AnnouncesAll : ForgetfulServer L → List ServerEvent → Prop
  | _, []      => True
  | s, e :: es => s.Announces e ∧ AnnouncesAll (s.next e) es

instance AnnouncesAll.decidable : (s : ForgetfulServer L) → (events : List ServerEvent) →
    Decidable (s.AnnouncesAll events)
  | _, []      => .isTrue trivial
  | s, e :: es => @instDecidableAnd (s.Announces e) _ _ (decidable (s.next e) es)

end ForgetfulServer

/-! ## What is kept -/

/-- The analysis sees the name, the version and the text of a document. -/
theorem ServerSettings.analysis_congr (files : Files Id) (settings : ServerSettings)
    {o o' : L.State} {d d' : L.Document} (huri : L.uri d = L.uri d')
    (hversion : L.version o d = L.version o' d') (htext : L.text o d = L.text o' d') :
    settings.analysis files o d = settings.analysis files o' d' := by
  simp only [analysis, Server.analyzed, huri, hversion, htext]
  rfl

/-- An analysis is kept under the version of its document. -/
theorem ServerSettings.analysis_version {files : Files Id} {settings : ServerSettings}
    {o : L.State} {d : L.Document} {k : Kept} (h : settings.analysis files o d = .ok k) :
    k.version = L.version o d := by
  rw [analysis] at h
  cases hlocate : L.locate (L.uri d) with
  | error e =>
      rw [hlocate] at h
      cases h
  | ok loc =>
      rw [hlocate] at h
      cases h
      rfl

/-- Whether there is an analysis is told by the name of a document. -/
theorem ServerSettings.analysis_ok {files : Files Id} {settings : ServerSettings}
    {o o' : L.State} {d d' : L.Document} {k : Kept} (huri : L.uri d = L.uri d')
    (h : settings.analysis files o d = .ok k) : ∃ k', settings.analysis files o' d' = .ok k' := by
  rw [analysis, huri] at h
  rw [analysis]
  cases hlocate : L.locate (L.uri d') with
  | error e =>
      rw [hlocate] at h
      cases h
  | ok loc => exact ⟨_, rfl⟩

/-- What an editor gets of a reaction. -/
def Reaction.response (r : Reaction L) : Response := ⟨r.answer, r.published⟩

namespace Server

/-- What an editor gets of a server for a sequence of events. -/
def responses (files : Files Id) : Server L → List ServerEvent → List Response
  | _, []      => []
  | s, e :: es =>
      let r : Reaction L := s.handle files e
      r.response :: responses files r.server es

/-- The server without what it keeps. -/
def forget (s : Server L) : ForgetfulServer L := ⟨s.settings, s.takesSettings, s.documents⟩

/-- What is kept are analyses of open documents, and none would be another one if it were made
    anew. -/
structure Coherent (files : Files Id) (s : Server L) : Prop where
  named : L.Named s.documents
  kept  : ∀ uri k, s.kept.get? uri = some k →
    ∃ d, s.document? uri = some d ∧ s.settings.analysis files s.documents d = .ok k

/-- The same, but for one document. What is kept for it may be behind, and shows that by its
    version. -/
structure Ready (files : Files Id) (s : Server L) (d : L.Document) : Prop where
  named  : L.Named s.documents
  found  : s.document? (L.uri d) = some d
  others : ∀ uri k, s.kept.get? uri = some k → uri ≠ L.uri d →
    ∃ d, s.document? uri = some d ∧ s.settings.analysis files s.documents d = .ok k
  own    : ∀ k, s.kept.get? (L.uri d) = some k →
    ∃ now, s.settings.analysis files s.documents d = .ok now ∧
      (k.version = L.version s.documents d → k = now)

variable {files : Files Id} {s : Server L} {d : L.Document}

/-! ### Analyses -/

theorem Coherent.ready (h : s.Coherent files) {uri : String} (hd : s.document? uri = some d) :
    s.Ready files d := by
  have huri := h.named uri d hd
  subst huri
  refine ⟨h.named, hd, fun uri k hk _ => h.kept uri k hk, fun k hk => ?_⟩
  obtain ⟨d', hd', hk'⟩ := h.kept (L.uri d) k hk
  cases hd.symm.trans hd'
  exact ⟨k, hk', fun _ => rfl⟩

/-- What is kept for a document that has not changed is what would be made anew. -/
theorem Coherent.kept_same (h : s.Coherent files) {o : L.State} {uri : String} {k : Kept}
    (hk : s.kept.get? uri = some k) (hsame : ∀ d, s.document? uri = some d →
      L.document? o uri = some d ∧ L.Same s.documents o d) :
    ∃ d, L.document? o uri = some d ∧ s.settings.analysis files o d = .ok k := by
  obtain ⟨d, hd, hnow⟩ := h.kept uri k hk
  obtain ⟨hfound, hversion, htext⟩ := hsame d hd
  refine ⟨d, hfound, ?_⟩
  rw [ServerSettings.analysis_congr files s.settings rfl hversion htext]
  exact hnow

/-- A document has become another one. What is kept can be used for it if the version tells
    another text. -/
theorem Coherent.renewed (h : s.Coherent files) {o : L.State} (hd : L.Renews s.documents o d)
    (hnews : ∀ old, s.document? (L.uri d) = some old →
      L.version s.documents old = L.version o d → L.text s.documents old = L.text o d) :
    Ready files { s with documents := o } d where
  named := h.named.renewed hd
  found := (hd.found (L.uri d)).trans (if_pos rfl)
  others uri k hk huri := h.kept_same hk fun d' hd' => by
    have hne : d' ≠ d := fun hsame => huri ((h.named uri d' hd').symm.trans (hsame ▸ rfl))
    exact ⟨(hd.found uri).trans ((if_neg huri).trans hd'), hd.same hne⟩
  own k hk := by
    obtain ⟨old, hold, hanalysis⟩ := h.kept (L.uri d) k hk
    have huri : L.uri old = L.uri d := h.named (L.uri d) old hold
    obtain ⟨now, hnow⟩ : ∃ now, s.settings.analysis files o d = .ok now :=
      ServerSettings.analysis_ok huri hanalysis
    refine ⟨now, hnow, fun hversion => ?_⟩
    have hsame : L.version s.documents old = L.version o d :=
      (ServerSettings.analysis_version hanalysis).symm.trans hversion
    rw [ServerSettings.analysis_congr files s.settings huri hsame (hnews old hold hsame)]
      at hanalysis
    exact Except.ok.inj (hanalysis.symm.trans hnow)

/-- With what it now keeps for the document, the server is coherent. -/
theorem Ready.coherent (h : s.Ready files d) {kept : NamedTable Kept}
    (hothers : ∀ uri, uri ≠ L.uri d → kept.get? uri = s.kept.get? uri)
    (hown : ∀ k, kept.get? (L.uri d) = some k →
      s.settings.analysis files s.documents d = .ok k) :
    Coherent files { s with kept := kept } where
  named := h.named
  kept uri k hk := by
    by_cases huri : uri = L.uri d
    · subst huri
      exact ⟨d, h.found, hown k hk⟩
    · exact h.others uri k ((hothers uri huri).symm.trans hk) huri

/-- The analysis of a document, kept or not, is the one that would be made anew. -/
theorem Ready.analysisOf (h : s.Ready files d) :
    (∃ e, s.settings.analysis files s.documents d = .error e ∧
      s.analysisOf (m := Id) files d = .error e ∧ s.Coherent files) ∨
    ∃ k kept log, s.settings.analysis files s.documents d = .ok k ∧
      s.analysisOf (m := Id) files d = .ok ({ s with kept := kept }, k, log) ∧
      Coherent files { s with kept := kept } := by
  rw [Server.analysisOf]
  cases hcurrent : s.current? d with
  | some k =>
      obtain ⟨hk, hversion⟩ := Option.filter_eq_some_iff.mp hcurrent
      obtain ⟨now, hnow, hsame⟩ := h.own k hk
      obtain rfl := hsame (of_decide_eq_true hversion)
      refine .inr ⟨k, s.kept, [], hnow, rfl, h.coherent (fun _ _ => rfl) fun k' hk' => ?_⟩
      cases hk.symm.trans hk'
      exact hnow
  | none =>
      cases hlocate : L.locate (L.uri d) with
      | error e =>
          have hnone : s.settings.analysis files s.documents d = .error e := by
            rw [ServerSettings.analysis, hlocate]
            rfl
          refine .inl ⟨e, hnone, rfl, h.coherent (fun _ _ => rfl) fun k hk => ?_⟩
          obtain ⟨now, hnow, -⟩ := h.own k hk
          cases hnone.symm.trans hnow
      | ok loc =>
          have hnow : s.settings.analysis files s.documents d =
              .ok (s.analyzed d loc (projectOf files s loc)) := by
            rw [ServerSettings.analysis, hlocate]
            rfl
          refine .inr ⟨_, _, _, hnow, rfl, h.coherent (fun uri huri => ?_) fun k hk => ?_⟩
          · rw [NamedTable.get?_insert, if_neg huri]
          · rw [NamedTable.get?_insert, if_pos rfl] at hk
            cases hk
            exact hnow

/-! ### Publishing and asking -/

/-- What is published about a document is what a server that keeps nothing publishes. -/
theorem Ready.validate (h : s.Ready files d) :
    ∃ kept log, s.validate (m := Id) files d =
        { server := { s with kept := kept }, published := [s.forget.publication files d],
          log := log } ∧
      Coherent files { s with kept := kept } := by
  rw [Server.validate, ForgetfulServer.publication]
  rcases h.analysisOf with ⟨e, hnow, hrun, hs⟩ | ⟨k, kept, log, hnow, hrun, hs⟩
  · rw [hrun, forget, hnow]
    exact ⟨s.kept, _, rfl, hs⟩
  · rw [hrun, forget, hnow]
    exact ⟨kept, log, rfl, hs⟩

/-- So is what is published about several documents, one after the other. -/
theorem Coherent.validateAll (documents : List L.Document) :
    ∀ {s : Server L}, s.Coherent files → (∀ d ∈ documents, ∃ uri, s.document? uri = some d) →
    ∃ kept log, Server.validateAll (m := Id) files s documents =
        { server := { s with kept := kept },
          published := documents.map (s.forget.publication files), log := log } ∧
      Coherent files { s with kept := kept } := by
  induction documents with
  | nil => exact fun {s} hs _ => ⟨s.kept, [], rfl, hs⟩
  | cons d rest ih =>
      intro s hs hopen
      obtain ⟨uri, hd⟩ := hopen d List.mem_cons_self
      obtain ⟨kept, log, hfirst, hs'⟩ := (hs.ready hd).validate
      obtain ⟨kept', log', hrest, hs''⟩ := ih hs' fun d hd => hopen d (List.mem_cons_of_mem _ hd)
      refine ⟨kept', log ++ log', ?_, hs''⟩
      rw [Server.validateAll, hfirst]
      show (do let rest ← Server.validateAll (m := Id) files { s with kept := kept } rest; _) = _
      rw [hrest]
      rfl

/-- A question about a document is answered as a server that keeps nothing answers it. -/
theorem Coherent.ask (h : s.Coherent files) (uri : String) (unknown : Answer)
    (answer : L.State → L.Document → Analysis → Answer) :
    ∃ r : Reaction L, s.ask (m := Id) files uri unknown answer = r ∧
      r.response = s.forget.ask files uri unknown answer ∧ r.server.forget = s.forget ∧
      r.server.Coherent files := by
  rw [Server.ask, ForgetfulServer.ask]
  cases hd : s.document? uri with
  | none =>
      have hd' : L.document? s.forget.documents uri = none := hd
      rw [hd']
      exact ⟨_, rfl, rfl, rfl, h⟩
  | some d =>
      have hd' : L.document? s.forget.documents uri = some d := hd
      rw [hd']
      dsimp only
      rcases (h.ready hd).analysisOf with ⟨e, hnow, hrun, hs⟩ | ⟨k, kept, log, hnow, hrun, hs⟩
      · rw [hrun, forget, hnow]
        exact ⟨_, rfl, rfl, rfl, hs⟩
      · rw [hrun, forget, hnow]
        exact ⟨_, rfl, rfl, rfl, hs⟩

/-! ### Events -/

/-- Both servers take an event to the same. -/
def Agrees (files : Files Id) (s : Server L) (e : ServerEvent) : Prop :=
  ∃ r : Reaction L, s.handle (m := Id) files e = r ∧ r.response = s.forget.response files e ∧
    r.server.forget = s.forget.next e ∧ r.server.Coherent files

/-- A document that has become another one is published. -/
theorem Coherent.renew (h : s.Coherent files) {o : L.State} (hd : L.Renews s.documents o d)
    (hnews : ∀ old, s.document? (L.uri d) = some old →
      L.version s.documents old = L.version o d → L.text s.documents old = L.text o d) :
    ∃ r : Reaction L, s.renew (m := Id) files (o, some d) = r ∧
      r.response = ForgetfulServer.renewal files { s.forget with documents := o } (some d) ∧
      r.server.forget = { s.forget with documents := o } ∧ r.server.Coherent files := by
  obtain ⟨kept, log, hrun, hs⟩ := (h.renewed hd hnews).validate
  exact ⟨_, hrun, rfl, rfl, hs⟩

/-- An event that announces what it does brings no other text for a document that it renews. -/
theorem Coherent.news (hL : L.Lawful) (h : s.Coherent files) {e : ServerEvent}
    (he : s.forget.Announces e) (hd : L.Renews s.documents (s.forget.next e).documents d)
    {old : L.Document} (hold : s.document? (L.uri d) = some old)
    (hversion : L.version s.documents old = L.version (s.forget.next e).documents d) :
    L.text s.documents old = L.text (s.forget.next e).documents d := by
  have hlisted : old ∈ L.documents s.documents := (hL.lists _ old).mpr ⟨L.uri d, hold⟩
  have hlisted' : d ∈ L.documents (s.forget.next e).documents :=
    (hL.lists _ d).mpr ⟨L.uri d, (hd.found (L.uri d)).trans (if_pos rfl)⟩
  exact he old hlisted d hlisted' (h.named _ old hold) hversion

/-- A notification that the library takes and reports leads both servers to the same. -/
theorem Coherent.notified (hL : L.Lawful) (h : s.Coherent files) {e : ServerEvent}
    {p : L.State × Option L.Document} (hrun : s.handle (m := Id) files e = s.renew files p)
    (hnext : s.forget.next e = { s.forget with documents := p.1 })
    (hresponse : s.forget.response files e = (s.forget.next e).renewal files p.2)
    (hp : p = (s.documents, none) ∨ ∃ o d, p = (o, some d) ∧ L.Renews s.documents o d)
    (he : s.forget.Announces e) : s.Agrees files e := by
  rcases hp with rfl | ⟨o, d, rfl, hd⟩
  · exact ⟨{ server := s }, hrun, hresponse.symm, hnext.symm, h⟩
  · have hdocuments : (s.forget.next e).documents = o := congrArg (·.documents) hnext
    obtain ⟨r, hr, hsame, hafter, hs⟩ := h.renew hd fun old hold hversion => by
      subst hdocuments
      exact h.news hL he hd hold hversion
    refine ⟨r, hrun.trans hr, ?_, hafter.trans hnext.symm, hs⟩
    rw [hsame, hresponse, hnext]

/-- A closed document leaves nothing behind. -/
theorem Coherent.released (h : s.Coherent files) {o : L.State} {uri : String}
    (ho : L.Releases s.documents o uri) :
    Coherent files { s with documents := o, kept := s.kept.erase uri } where
  named := h.named.released ho
  kept n k hk := by
    rw [NamedTable.get?_erase] at hk
    split at hk
    · cases hk
    · next hn =>
        exact h.kept_same hk fun d hd => ⟨(ho.found n).trans ((if_neg hn).trans hd), ho.same d⟩

/-- A notification that the library takes and reports as a closing leads both servers to the
    same. -/
theorem Coherent.dropped (h : s.Coherent files) {e : ServerEvent}
    {p : L.State × Option L.Document} (hrun : s.handle (m := Id) files e = s.drop p)
    (hnext : s.forget.next e = { s.forget with documents := p.1 })
    (hresponse : s.forget.response files e =
      { published := p.2.toList.map fun d => ⟨L.uri d, []⟩ })
    (hp : p = (s.documents, none) ∨ ∃ o d, p = (o, some d) ∧
      L.Releases s.documents o (L.uri d)) : s.Agrees files e := by
  rcases hp with rfl | ⟨o, d, rfl, hd⟩
  · exact ⟨{ server := s }, hrun, hresponse.symm, hnext.symm, h⟩
  · exact ⟨_, hrun, hresponse.symm, hnext.symm, h.released hd⟩

/-- One event leads both servers to the same documents and settings, and the editor gets the
    same of both. -/
theorem handle_forget (hL : L.Lawful) (h : s.Coherent files) (e : ServerEvent)
    (he : s.forget.Announces e) : s.Agrees files e := by
  cases e with
  | connected capabilities => exact ⟨_, rfl, rfl, rfl, h.named, h.kept⟩
  | configured settings =>
      -- Nothing is kept any more, so all documents are analysed under the new settings.
      have hs : Coherent files { s with
          settings := if s.takesSettings then ServerSettings.read settings else {}
          kept := .empty } :=
        ⟨h.named, fun uri _ hk => nomatch (NamedTable.get?_empty uri).symm.trans hk⟩
      obtain ⟨kept, log, hrun, hs'⟩ := hs.validateAll (L.documents s.documents) fun d hd =>
        (hL.lists s.documents d).mp hd
      exact ⟨_, hrun, rfl, rfl, hs'⟩
  | opened uri version text =>
      obtain ⟨o, d, hopen, -, hd⟩ := hL.didOpen_renews s.documents uri version text
      exact h.notified hL rfl rfl rfl (.inr ⟨o, d, hopen, hd⟩) he
  | changed uri version changes =>
      refine h.notified hL rfl rfl rfl ?_ he
      rcases hL.didChange_cases h.named uri version changes with hrun | ⟨o, d, hrun, -, -, hd⟩
      · exact .inl hrun
      · exact .inr ⟨o, d, hrun, hd⟩
  | closed uri =>
      refine h.dropped rfl rfl rfl ?_
      rcases hL.didClose_cases s.documents uri with ⟨-, hrun⟩ | ⟨o, d, hd, hrun, ho⟩
      · exact .inl hrun
      · exact .inr ⟨o, d, hrun, (h.named uri d hd).symm ▸ ho⟩
  | hover uri place => exact h.ask uri (.description none) (describeAt place)
  | complete uri place => exact h.ask uri (.proposals []) (proposeAt place)
  | outline uri => exact h.ask uri (.entries []) outlineOf

/-- So does a sequence of events. -/
theorem responses_forget (hL : L.Lawful) (events : List ServerEvent) :
    ∀ {s : Server L}, s.Coherent files → s.forget.AnnouncesAll events →
      s.responses files events = s.forget.responses files events := by
  induction events with
  | nil => exact fun _ _ => rfl
  | cons e rest ih =>
      intro s hs hall
      obtain ⟨r, hrun, hresponse, hafter, hs'⟩ := handle_forget hL hs e hall.1
      rw [responses, ForgetfulServer.responses, hrun, hresponse, ← hafter]
      exact congrArg (_ :: ·) (ih hs' (hafter ▸ hall.2))

/-- What a server keeps does not show. Over any library that does what is documented of it, and
    for every sequence of events in which an open document never gets another text under the same
    version, every answer and everything that is published is what a server gives that reads the
    project and analyses the current text under the current settings each time. -/
theorem keeping_invisible (hL : L.Lawful) (files : Files Id) (events : List ServerEvent)
    (h : ForgetfulServer.AnnouncesAll (L := L) {} events) :
    responses (L := L) files {} events = ForgetfulServer.responses (L := L) files {} events := by
  have hstart : Coherent (L := L) files {} :=
    ⟨hL.named_start, fun uri _ hk => nomatch (NamedTable.get?_empty uri).symm.trans hk⟩
  exact responses_forget hL events hstart h

/-- A document is opened, asked about, closed and opened again under the same version with another
    text; then linting is switched off. -/
def reopening : List ServerEvent :=
  [.connected (Json.obj [("workspace", Json.obj [("configuration", .bool true)])]),
   .opened "file:///a.glint" 1 "fn f() { let x = 1; }",
   .outline "file:///a.glint",
   .closed "file:///a.glint",
   .opened "file:///a.glint" 1 "let y = ;",
   .changed "file:///a.glint" 2 [⟨none, "let y = 1;"⟩],
   .configured (Json.obj [("glint", Json.obj [("lintEnabled", .bool false)])]),
   .hover "file:///a.glint" ⟨0, 4⟩]

theorem keeping_invisible_reopening :
    EditorLibrary.buffered.Lawful ∧
      ForgetfulServer.AnnouncesAll (L := .buffered) {} reopening ∧
      responses (L := .buffered) (FileTree.files {}) {} reopening =
        ForgetfulServer.responses (L := .buffered) (FileTree.files {}) {} reopening := by
  have h : ForgetfulServer.AnnouncesAll (L := .buffered) {} reopening := by decide +kernel
  exact ⟨EditorLibrary.buffered_lawful, h,
    keeping_invisible EditorLibrary.buffered_lawful (FileTree.files {}) reopening h⟩

end Server

end SceneScript
