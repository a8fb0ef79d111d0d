import SceneScript.Editor.Server

/-!
# Handlers that wait

A handler of the server waits three times: for the project of a document, with an analysis, and for
what it published to be sent. Meanwhile other handlers run. So the server is once more a state
machine, of its state and the handlers that wait: a move is an event, whose handler begins and goes
as far as its first wait, or one of the handlers goes on to its next.

A handler holds the documents that it works on, as objects of the library. So it sees changes that
are made in them while it waits, and it does not see that they are closed.

* **`Server.takeUp`**, **`Server.resume`** — a handler from one wait to the next.
* **`BusyServer.step`**, **`BusyServer.run`** — moves.
* **`BusyServer.receive_alone`** — a handler that runs alone does what `Server.handle` says.
-/

namespace SceneScript

/-! ## What waits -/

variable {L : EditorLibrary}

/-- What an analysis is for: to be published, before other documents are taken up; or to answer a
    question. -/
inductive Purpose (L : EditorLibrary) where
  | publish (rest : List L.Document)
  | answer (of : L.State → L.Document → Analysis → Answer)

/-- A handler that waits: for the project of a document, with an analysis or the reason why there
    is none, or for what it published to be sent. -/
inductive Handler (L : EditorLibrary) where
  | reading (d : L.Document) (loc : Location) (purpose : Purpose L)
  | analysed (d : L.Document) (outcome : Except Text Kept) (purpose : Purpose L)
  | sent (rest : List L.Document)

/-- What the editor and the log get. -/
structure Effects where
  answers   : List Answer := []
  published : List Publication := []
  log       : List LogEvent := []

/-- Where a handler has come to: the state, and the handler if it waits again. -/
structure Progress (L : EditorLibrary) where
  server  : Server L
  handler : Option (Handler L) := none
  effects : Effects := {}

/-- A server and the handlers that wait. -/
structure BusyServer (L : EditorLibrary) where
  server  : Server L := {}
  waiting : List (Handler L) := []

/-- An event, or that a handler goes on; if that waits for a project, with the one that was read. -/
inductive Move where
  | event (e : ServerEvent)
  | resumed (n : Nat) (project : Project)

/-- Of both, in order. -/
def Effects.append (e e' : Effects) : Effects :=
  ⟨e.answers ++ e'.answers, e.published ++ e'.published, e.log ++ e'.log⟩

instance : Append Effects := ⟨Effects.append⟩

theorem Effects.append_none (e : Effects) : e ++ ({} : Effects) = e := by
  show (⟨e.answers ++ [], e.published ++ [], e.log ++ []⟩ : Effects) = e
  rw [List.append_nil, List.append_nil, List.append_nil]

theorem Effects.append_assoc (a b c : Effects) : a ++ b ++ c = a ++ (b ++ c) := by
  show (⟨a.answers ++ b.answers ++ c.answers, a.published ++ b.published ++ c.published,
    a.log ++ b.log ++ c.log⟩ : Effects) = _
  rw [List.append_assoc, List.append_assoc, List.append_assoc]
  rfl

/-! ## From one wait to the next -/

namespace Server

/-- Analyses a document under a project, and waits with the analysis. -/
def analyse (s : Server L) (d : L.Document) (loc : Location) (p : Purpose L)
    (project : Option Project) : Progress L :=
  let k := s.analyzed d loc project
  { server  := s.keep (L.uri d) k
    handler := some (.analysed d (.ok k) p)
    effects := { log := s.analysisLog loc k } }

/-- Takes up a document, as far as the first wait. -/
def takeUp (s : Server L) (d : L.Document) (p : Purpose L) : Progress L :=
  match s.current? d with
  | some k => { server := s, handler := some (.analysed d (.ok k) p) }
  | none   =>
      match L.locate (L.uri d) with
      | .error e => { server := s, handler := some (.analysed d (.error e) p) }
      | .ok loc  =>
          if (s.projectFile? loc).isSome then
            { server := s, handler := some (.reading d loc p) }
          else s.analyse d loc p none

/-- Takes up the first of the documents to publish. -/
def takeUpNext (s : Server L) : List L.Document → Progress L
  | []        => { server := s }
  | d :: rest => s.takeUp d (.publish rest)

/-- A handler goes on as far as its next wait. -/
def resume (s : Server L) (project : Project) : Handler L → Progress L
  | .reading d loc p                       => s.analyse d loc p (some project)
  | .analysed d (.ok k) (.publish rest)    =>
      { server  := s
        handler := some (.sent rest)
        effects := { published := [s.publication (L.uri d) k] } }
  | .analysed d (.error e) (.publish rest) =>
      { server  := s
        handler := some (.sent rest)
        effects :=
          { published := [⟨L.uri d, []⟩]
            log       := logger.say .error s!"validateTextDocument failed: {e}" } }
  | .analysed d (.ok k) (.answer of)       =>
      { server := s, effects := { answers := [of s.documents d k.analysis] } }
  | .analysed _ (.error e) (.answer _)     =>
      { server := s, effects := { answers := [.failure e] } }
  | .sent rest                             => s.takeUpNext rest

end Server

namespace BusyServer

/-! ## Moves -/

/-- A handler that has just begun waits behind the others. -/
def join (waiting : List (Handler L)) (p : Progress L) : BusyServer L × Effects :=
  (⟨p.server, waiting ++ p.handler.toList⟩, p.effects)

/-- The library has taken a notification: a document whose content is another one is taken up. -/
def renew (b : BusyServer L) : L.State × Option L.Document → BusyServer L × Effects
  | (o, none)   => (⟨{ b.server with documents := o }, b.waiting⟩, {})
  | (o, some d) => join b.waiting (Server.takeUpNext { b.server with documents := o } [d])

/-- The library has taken a notification: of a document that has been closed nothing is kept and
    nothing shown. The handlers that hold it do not learn of that. -/
def drop (b : BusyServer L) (p : L.State × Option L.Document) : BusyServer L × Effects :=
  let r := b.server.drop p
  (⟨r.server, b.waiting⟩, { published := r.published })

/-- Begins to answer a question about an open document. -/
def ask (b : BusyServer L) (uri : String) (unknown : Answer)
    (answer : L.State → L.Document → Analysis → Answer) : BusyServer L × Effects :=
  match b.server.document? uri with
  | none   => (b, { answers := [unknown] })
  | some d => join b.waiting (b.server.takeUp d (.answer answer))

/-- Begins with an event. -/
def receive (b : BusyServer L) : ServerEvent → BusyServer L × Effects
  | .connected capabilities =>
      let configuration := (capabilities.get? "workspace").bind (Json.get? "configuration")
      (⟨{ b.server with takesSettings := configuration.any Json.isAffirmative }, b.waiting⟩,
        { answers := [.capabilities] })
  | .configured settings =>
      let settings := if b.server.takesSettings then ServerSettings.read settings else {}
      let s := { b.server with settings := settings, kept := .empty }
      join b.waiting (s.takeUpNext (L.documents s.documents))
  | .opened uri version text => b.renew (L.didOpen b.server.documents uri version text)
  | .changed uri version changes =>
      b.renew (L.didChange b.server.documents uri version changes)
  | .closed uri          => b.drop (L.didClose b.server.documents uri)
  | .hover uri place     => b.ask uri (.description none) (Server.describeAt place)
  | .complete uri place  => b.ask uri (.proposals []) (Server.proposeAt place)
  | .outline uri         => b.ask uri (.entries []) Server.outlineOf

/-- One move. A handler that is not there does not go on. -/
def step (b : BusyServer L) : Move → BusyServer L × Effects
  | .event e           => b.receive e
  | .resumed n project =>
      match b.waiting[n]? with
      | none   => (b, {})
      | some h =>
          let p := b.server.resume project h
          (⟨p.server, b.waiting.take n ++ p.handler.toList ++ b.waiting.drop (n + 1)⟩, p.effects)

/-- Several moves. -/
def run : BusyServer L → List Move → BusyServer L × Effects
  | b, []      => (b, {})
  | b, m :: ms =>
      let next := b.step m
      let last := run next.1 ms
      (last.1, next.2 ++ last.2)

/-! ## A handler that runs alone -/

/-- A handler comes to its end alone, with what it does on the way. -/
def Finishes (p : Progress L) (s : Server L) (e : Effects) : Prop :=
  ∃ later, (∀ m ∈ later, ∃ project, m = .resumed 0 project) ∧ ∃ e',
    run ⟨p.server, p.handler.toList⟩ later = (⟨s, []⟩, e') ∧ p.effects ++ e' = e

variable {files : Files Id} {s s' : Server L} {d : L.Document} {purpose : Purpose L} {e : Effects}

theorem finishes_now (s : Server L) (e : Effects) : Finishes ⟨s, none, e⟩ s e :=
  ⟨[], fun _ hm => absurd hm List.not_mem_nil, {}, rfl, e.append_none⟩

theorem finishes_later (project : Project) (handler : Handler L)
    (hrest : Finishes (s.resume project handler) s' e) (e₀ : Effects) :
    Finishes ⟨s, some handler, e₀⟩ s' (e₀ ++ e) := by
  obtain ⟨later, hlater, e', hrun, rfl⟩ := hrest
  refine ⟨.resumed 0 project :: later, fun m hm => ?_, _, ?_, rfl⟩
  · rcases List.mem_cons.mp hm with rfl | hm
    · exact ⟨project, rfl⟩
    · exact hlater m hm
  · have hstep : step ⟨s, [handler]⟩ (.resumed 0 project) =
        (⟨(s.resume project handler).server, (s.resume project handler).handler.toList ++ []⟩,
          (s.resume project handler).effects) := rfl
    rw [Option.toList_some, run, hstep, List.append_nil, hrun]

/-- A document without an analysis is taken up, and the handler goes on with the reason. -/
theorem takeUp_fails {error : Text} (hnone : s.analysisOf (m := Id) files d = .error error)
    (hrest : Finishes (s.resume {} (.analysed d (.error error) purpose)) s' e) :
    Finishes (s.takeUp d purpose) s' e := by
  rw [Server.analysisOf] at hnone
  rw [Server.takeUp]
  cases hcurrent : s.current? d with
  | some k =>
      rw [hcurrent] at hnone
      cases hnone
  | none =>
      rw [hcurrent] at hnone
      cases hlocate : L.locate (L.uri d) with
      | error error' =>
          rw [hlocate] at hnone
          cases hnone
          exact finishes_later {} _ hrest {}
      | ok loc =>
          rw [hlocate] at hnone
          cases hnone

/-- A document is taken up, its project is read if it has one, and the handler goes on with the
    analysis. -/
theorem takeUp_succeeds {s₁ : Server L} {k : Kept} {said : List LogEvent}
    (hsome : s.analysisOf (m := Id) files d = .ok (s₁, k, said))
    (hrest : Finishes (s₁.resume {} (.analysed d (.ok k) purpose)) s' e) :
    Finishes (s.takeUp d purpose) s' ({ log := said } ++ e) := by
  rw [Server.analysisOf] at hsome
  rw [Server.takeUp]
  cases hcurrent : s.current? d with
  | some k' =>
      rw [hcurrent] at hsome
      cases hsome
      exact finishes_later {} _ hrest {}
  | none =>
      rw [hcurrent] at hsome
      cases hlocate : L.locate (L.uri d) with
      | error error =>
          rw [hlocate] at hsome
          cases hsome
      | ok loc =>
          rw [hlocate] at hsome
          dsimp only at hsome ⊢
          cases hfile : s.projectFile? loc with
          | none =>
              rw [Server.projectOf, hfile] at hsome
              cases hsome
              exact finishes_later {} _ hrest _
          | some file =>
              obtain ⟨project, hproject⟩ :
                  ∃ project, Server.projectOf (m := Id) files s loc = some project :=
                ⟨loadProject (m := Id) files file none, by rw [Server.projectOf, hfile]; rfl⟩
              rw [hproject] at hsome
              cases hsome
              have hread : Finishes (s.resume project (.reading d loc purpose)) s' _ :=
                finishes_later {}
                  (.analysed d (.ok (s.analyzed d loc (some project))) purpose) hrest _
              exact finishes_later project _ hread {}

/-- A document is taken up to be published, and then the handler goes on with the others. -/
theorem takeUp_publishes (files : Files Id) (s : Server L) (d : L.Document) : ∃ r : Reaction L,
    s.validate (m := Id) files d = r ∧ r.answer = .silence ∧
    ∀ rest s' published log, Finishes (r.server.takeUpNext rest) s' ⟨[], published, log⟩ →
      Finishes (s.takeUp d (.publish rest)) s' ⟨[], r.published ++ published, r.log ++ log⟩ := by
  rw [Server.validate]
  cases hanalysis : s.analysisOf (m := Id) files d with
  | error error =>
      refine ⟨_, rfl, rfl, fun rest s' published log hrest => ?_⟩
      exact takeUp_fails hanalysis (finishes_later {} (.sent rest) hrest _)
  | ok found =>
      obtain ⟨s₁, k, said⟩ := found
      refine ⟨⟨s₁, .silence, [s₁.publication (L.uri d) k], said⟩, rfl, rfl,
        fun rest s' published log hrest => ?_⟩
      have hsent : Finishes (s₁.resume {} (.analysed d (.ok k) (.publish rest))) s' _ :=
        finishes_later {} (.sent rest) hrest _
      exact takeUp_succeeds hanalysis hsent

/-- Documents that are taken up one after the other are published as `Server.validateAll` says. -/
theorem takeUpNext_finishes (files : Files Id) (docs : List L.Document) :
    ∀ s : Server L, ∃ r : Reaction L,
      s.validateAll (m := Id) files docs = r ∧ r.answer = .silence ∧
      Finishes (s.takeUpNext docs) r.server ⟨[], r.published, r.log⟩ := by
  induction docs with
  | nil => exact fun s => ⟨_, rfl, rfl, finishes_now s {}⟩
  | cons d rest ih =>
      intro s
      obtain ⟨first, hfirst, -, htake⟩ := takeUp_publishes files s d
      obtain ⟨last, hlast, -, hrest⟩ := ih first.server
      refine ⟨⟨last.server, .silence, first.published ++ last.published, first.log ++ last.log⟩,
        ?_, rfl, htake _ _ _ _ hrest⟩
      rw [Server.validateAll, hfirst]
      show (do let last ← Server.validateAll (m := Id) files first.server rest; _) = _
      rw [hlast]
      rfl

/-- What an answer brings to the editor; most events have none. -/
def given : Answer → List Answer
  | .silence => []
  | answer   => [answer]

/-- A handler that has begun alone goes on as a reaction says. -/
def BeginsAs (start : BusyServer L × Effects) (r : Reaction L) : Prop :=
  ∃ p : Progress L, start = (⟨p.server, p.handler.toList⟩, p.effects) ∧
    Finishes p r.server ⟨given r.answer, r.published, r.log⟩

/-- A document that has taken its place is published as `Server.validate` says. -/
theorem validate_alone (files : Files Id) (s : Server L) (d : L.Document) : ∃ r : Reaction L,
    s.validate (m := Id) files d = r ∧ BeginsAs (join [] (s.takeUpNext [d])) r := by
  obtain ⟨r, hr, hsilent, htake⟩ := takeUp_publishes files s d
  refine ⟨r, hr, _, rfl, ?_⟩
  have hfinishes := htake [] r.server [] [] (finishes_now r.server {})
  rw [List.append_nil, List.append_nil] at hfinishes
  rw [hsilent]
  exact hfinishes

/-- What the library reports is published as `Server.renew` says. -/
theorem renew_alone (files : Files Id) (s : Server L) (p : L.State × Option L.Document) :
    ∃ r : Reaction L, s.renew (m := Id) files p = r ∧ BeginsAs (renew ⟨s, []⟩ p) r := by
  obtain ⟨o, reported⟩ := p
  cases reported with
  | none => exact ⟨_, rfl, ⟨{ s with documents := o }, none, {}⟩, rfl, finishes_now _ _⟩
  | some d => exact validate_alone files { s with documents := o } d

theorem drop_alone (s : Server L) (p : L.State × Option L.Document) :
    ∃ r : Reaction L, s.drop p = r ∧ BeginsAs (drop ⟨s, []⟩ p) r := by
  obtain ⟨o, reported⟩ := p
  cases reported with
  | none => exact ⟨_, rfl, ⟨_, none, _⟩, rfl, finishes_now _ _⟩
  | some d => exact ⟨_, rfl, ⟨_, none, _⟩, rfl, finishes_now _ _⟩

/-- A question is answered as `Server.ask` says. -/
theorem ask_alone (files : Files Id) (s : Server L) (uri : String) {unknown : Answer}
    {answer : L.State → L.Document → Analysis → Answer} (hunknown : given unknown = [unknown])
    (hanswer : ∀ o d a, given (answer o d a) = [answer o d a]) : ∃ r : Reaction L,
    s.ask (m := Id) files uri unknown answer = r ∧ BeginsAs (ask ⟨s, []⟩ uri unknown answer) r := by
  rw [Server.ask, ask]
  cases s.document? uri with
  | none =>
      refine ⟨{ server := s, answer := unknown }, rfl, ⟨s, none, { answers := [unknown] }⟩, rfl, ?_⟩
      rw [hunknown]
      exact finishes_now s _
  | some d =>
      dsimp only
      cases hanalysis : s.analysisOf (m := Id) files d with
      | error error =>
          exact ⟨{ server := s, answer := .failure error }, rfl, _, rfl,
            takeUp_fails hanalysis (finishes_now s _)⟩
      | ok found =>
          obtain ⟨s₁, k, said⟩ := found
          have hanswered : Finishes (s₁.resume {} (.analysed d (.ok k) (.answer answer))) s₁
              { answers := [answer s₁.documents d k.analysis] } := finishes_now s₁ _
          have hfinishes := takeUp_succeeds hanalysis hanswered
          refine ⟨⟨s₁, answer s₁.documents d k.analysis, [], said⟩, rfl, _, rfl, ?_⟩
          rw [hanswer, ← List.append_nil said]
          exact hfinishes

/-- A handler that runs alone, from its event to its end, does what `Server.handle` says. -/
theorem receive_alone (files : Files Id) (s : Server L) (e : ServerEvent) : ∃ r : Reaction L,
    s.handle (m := Id) files e = r ∧
    ∃ later, (∀ m ∈ later, ∃ project, m = .resumed 0 project) ∧
      run ⟨s, []⟩ (.event e :: later) = (⟨r.server, []⟩, ⟨given r.answer, r.published, r.log⟩) := by
  suffices h : ∃ r : Reaction L, s.handle (m := Id) files e = r ∧ BeginsAs (receive ⟨s, []⟩ e) r by
    obtain ⟨r, hr, p, hstart, later, hlater, e', hrun, heffects⟩ := h
    refine ⟨r, hr, later, hlater, ?_⟩
    rw [run, step, hstart, hrun, heffects]
  cases e with
  | connected capabilities => exact ⟨_, rfl, ⟨_, none, _⟩, rfl, finishes_now _ _⟩
  | configured settings =>
      obtain ⟨r, hr, hsilent, hfinishes⟩ := takeUpNext_finishes files (L.documents s.documents)
        { s with
          settings := if s.takesSettings then ServerSettings.read settings else {}
          kept     := .empty }
      refine ⟨r, hr, _, rfl, ?_⟩
      rw [hsilent]
      exact hfinishes
  | opened uri version text => exact renew_alone files s _
  | changed uri version changes => exact renew_alone files s _
  | closed uri => exact drop_alone s _
  | hover uri place =>
      rw [Server.handle, receive]
      exact ask_alone files s uri rfl fun _ _ _ => rfl
  | complete uri place =>
      rw [Server.handle, receive]
      exact ask_alone files s uri rfl fun _ _ _ => rfl
  | outline uri =>
      rw [Server.handle, receive]
      exact ask_alone files s uri rfl fun _ _ _ => rfl

end BusyServer

end SceneScript
