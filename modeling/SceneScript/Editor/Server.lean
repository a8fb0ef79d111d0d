import SceneScript.Analysis
import SceneScript.Config.Project
import SceneScript.Editor.Library
import SceneScript.Editor.NamedTable
import SceneScript.Editor.Protocol

/-!
# Server — the language server

An editor opens, changes and closes documents, changes settings and asks about places. A library
keeps the open documents (`EditorLibrary`), and the server keeps the last analysis of each. An
analysis counts as long as the version of the document does not change; settings clear all of them.
Whenever a document may have new diagnostics they are published, and a closed document has none.

The server is a state machine: `Server.handle` takes an event to the next state, with the answer,
what is published and what is logged. Reading settings from files is the only effect, so an
analysis falls into what happens before it (`Server.projectFile?`) and after it
(`Server.analyzed`). What is sent to the editor is taken to arrive.
-/

namespace SceneScript

/-- The settings of an editor. The number of problems to show may be without bound. -/
structure ServerSettings where
  maxProblems       : Option Nat := some 200
  showsDiagnostics  : Bool := true
  lints             : Bool := true
  readsProjectFiles : Bool := true
deriving DecidableEq, Repr

namespace ServerSettings

/-- A count that is not negative; infinity is no bound. -/
def readLimit (j : Json) : Option (Option Nat) :=
  j.number?.bind fun x =>
    if !Binary64.zero.le x then none
    else if x.isFinite then some (some x.truncate.toNat)
    else some none

/-- The settings under the name of the language; what is missing or wrong has its default. -/
def read (raw : Json) : ServerSettings :=
  let g := Config.group raw languageId
  let d : ServerSettings := {}
  { maxProblems       := Config.setting g "maxNumberOfProblems" readLimit d.maxProblems
    showsDiagnostics  := Config.setting g "diagnosticsEnabled" Json.bool? d.showsDiagnostics
    lints             := Config.setting g "lintEnabled" Json.bool? d.lints
    readsProjectFiles := Config.setting g "useProjectConfig" Json.bool? d.readsProjectFiles }

end ServerSettings

/-- An analysis that is kept: of which version, and under which project. -/
structure Kept where
  version  : Int
  analysis : Analysis
  project  : Option Project

/-- The state of a server: its settings, whether the editor sends any, the documents, and the
    analyses that are kept under their names. -/
structure Server (L : EditorLibrary) where
  settings      : ServerSettings := {}
  takesSettings : Bool := false
  documents     : L.State := L.start
  kept          : NamedTable Kept := .empty

/-- The diagnostics that are shown from now on for a document. -/
structure Publication where
  uri         : String
  diagnostics : List Diagnostic

/-- What an editor tells or asks. -/
inductive ServerEvent where
  | connected (capabilities : Json)
  | configured (settings : Json)
  | opened (uri : String) (version : Int) (text : Text)
  | changed (uri : String) (version : Int) (changes : List Change)
  | closed (uri : String)
  | hover (uri : String) (place : Place)
  | complete (uri : String) (place : Place)
  | outline (uri : String)

/-- The answer to a question. -/
inductive Answer where
  | silence
  | capabilities
  | description (text : Option String)
  | proposals (items : List CompletionItem)
  | entries (list : List OutlineEntry)
  | failure (message : Text)

/-- What a server does about an event. -/
structure Reaction (L : EditorLibrary) where
  server    : Server L
  answer    : Answer := .silence
  published : List Publication := []
  log       : List LogEvent := []

namespace Server

/-- The logger of the server. -/
def logger : Logger := { name := "glint-lsp", level := .info, stamped := false }

/-- What the server logs when it starts. -/
def startLog : List LogEvent := logger.say .info "Glint language server started"

variable {L : EditorLibrary} {m : Type → Type} [Monad m]

/-- The open document of a name. -/
def document? (s : Server L) (uri : String) : Option L.Document := L.document? s.documents uri

/-- With an analysis kept. -/
def keep (s : Server L) (uri : String) (k : Kept) : Server L :=
  { s with kept := s.kept.insert uri k }

/-! ## Analyses -/

/-- The analysis that is kept for the version of a document. -/
def current? (s : Server L) (d : L.Document) : Option Kept :=
  (s.kept.get? (L.uri d)).filter fun k => k.version = L.version s.documents d

/-- The file whose project has settings for a document: only files have projects, and only if
    the editor wants them read. -/
def projectFile? (s : Server L) (loc : Location) : Option String :=
  if s.settings.readsProjectFiles ∧ loc.scheme = "file" then some loc.filePath else none

/-- How a document is analysed; editor and project may both switch linting off. -/
def options (s : Server L) (loc : Location) (project : Option Project) : AnalysisOptions :=
  { filename := some loc.path
    lint     :=
      if !s.settings.lints then none
      else
        match project with
        | some p => p.config.lintRules?
        | none   => some {} }

/-- The analysis of a document under a project, as it is kept. -/
def analyzed (s : Server L) (d : L.Document) (loc : Location) (project : Option Project) :
    Kept :=
  ⟨L.version s.documents d, analyze (L.text s.documents d) (s.options loc project), project⟩

/-- What an analysis under a project logs. -/
def analysisLog (s : Server L) (loc : Location) (k : Kept) : List LogEvent :=
  k.project.toList.flatMap (fun p => p.log logger) ++
    k.analysis.log (s.options loc k.project) logger

/-- The project of a document. -/
def projectOf (files : Files m) (s : Server L) (loc : Location) : m (Option Project) :=
  match s.projectFile? loc with
  | some file => some <$> loadProject files file none
  | none      => pure none

/-- The analysis of a document, kept or made anew. -/
def analysisOf (files : Files m) (s : Server L) (d : L.Document) :
    m (Except Text (Server L × Kept × List LogEvent)) :=
  match s.current? d with
  | some k => pure (.ok (s, k, []))
  | none   =>
      match L.locate (L.uri d) with
      | .error e => pure (.error e)
      | .ok loc  => do
          let project ← projectOf files s loc
          let k := s.analyzed d loc project
          pure (.ok (s.keep (L.uri d) k, k, s.analysisLog loc k))

/-! ## Publishing -/

/-- The greatest number of diagnostics that are shown, if there is one: the lesser of what the
    editor and the project set. -/
def limit? (s : Server L) (project : Option Project) : Option Nat :=
  match s.settings.maxProblems, project with
  | some n, some p => some (min n p.config.diagnostics.maxProblems)
  | none, some p   => some p.config.diagnostics.maxProblems
  | bound, none    => bound

/-- Whether diagnostics are shown at all. -/
def shows (s : Server L) (project : Option Project) : Bool :=
  s.settings.showsDiagnostics && project.all fun p => p.config.diagnostics.enabled

/-- The diagnostics of an analysis that are shown. -/
def shown (s : Server L) (k : Kept) : List Diagnostic :=
  if !s.shows k.project then []
  else
    match s.limit? k.project with
    | some n => firstDiagnostics k.analysis.kept n
    | none   => k.analysis.kept

/-- What is published about a document with an analysis. -/
def publication (s : Server L) (uri : String) (k : Kept) : Publication := ⟨uri, s.shown k⟩

/-- Publishes the diagnostics of a document. -/
def validate (files : Files m) (s : Server L) (d : L.Document) : m (Reaction L) := do
  match ← s.analysisOf files d with
  | .error e          =>
      pure
        { server    := s
          published := [⟨L.uri d, []⟩]
          log       := logger.say .error s!"validateTextDocument failed: {e}" }
  | .ok (s', k, said) =>
      pure { server := s', published := [s'.publication (L.uri d) k], log := said }

/-- Publishes the diagnostics of documents, one after the other. -/
def validateAll (files : Files m) : Server L → List L.Document → m (Reaction L)
  | s, []      => pure { server := s }
  | s, d :: ds => do
      let first ← s.validate files d
      let rest ← validateAll files first.server ds
      pure
        { server    := rest.server
          published := first.published ++ rest.published
          log       := first.log ++ rest.log }

/-! ## Events -/

/-- Goes on after the library has taken a notification: a document whose content is another one is
    published. -/
def renew (files : Files m) (s : Server L) : L.State × Option L.Document → m (Reaction L)
  | (o, none)   => pure { server := { s with documents := o } }
  | (o, some d) => validate files { s with documents := o } d

/-- Goes on after the library has taken a notification: of a document that has been closed nothing
    is kept and nothing shown. -/
def drop (s : Server L) : L.State × Option L.Document → Reaction L
  | (o, none)   => { server := { s with documents := o } }
  | (o, some d) =>
      { server    := { s with documents := o, kept := s.kept.erase (L.uri d) }
        published := [⟨L.uri d, []⟩] }

/-- Answers a question about an open document from its analysis. -/
def ask (files : Files m) (s : Server L) (uri : String) (unknown : Answer)
    (answer : L.State → L.Document → Analysis → Answer) : m (Reaction L) :=
  match s.document? uri with
  | none   => pure { server := s, answer := unknown }
  | some d => do
      match ← s.analysisOf files d with
      | .error e          => pure { server := s, answer := .failure e }
      | .ok (s', k, said) =>
          pure { server := s', answer := answer s'.documents d k.analysis, log := said }

/-- The greatest number of proposals. -/
def maxProposals : Int := 200

/-- The description of what is at a place of a document. At a place that is unset, the whole
    text is the word. -/
def describeAt (place : Place) (o : L.State) (d : L.Document) (a : Analysis) : Answer :=
  let text := L.text o d
  .description <|
    match L.offsetAt o d place with
    | .known n => SceneScript.hover text n a.checked?
    | .unset   =>
        if text.units.head?.any isNameStart then
          wordHover text ⟨text, 0⟩ text.length a.checked?
        else none
    | .lost    => none

/-- The proposals at a place of a document, judged by what stands before it. -/
def proposeAt (place : Place) (o : L.State) (d : L.Document) (a : Analysis) : Answer :=
  let text := L.text o d
  let offset : Int :=
    match L.offsetAt o d place with
    | .known n => n
    | .unset   => text.length
    | .lost    => 0
  .proposals (completions text offset a.checked? maxProposals)

/-- The outline of a document. -/
def outlineOf (_ : L.State) (_ : L.Document) (a : Analysis) : Answer :=
  .entries ((a.program?.map Program.outline).getD [])

/-- Takes an event to the next state. -/
def handle (files : Files m) (s : Server L) : ServerEvent → m (Reaction L)
  | .connected capabilities =>
      let configuration := (capabilities.get? "workspace").bind (Json.get? "configuration")
      pure
        { server := { s with takesSettings := configuration.any Json.isAffirmative }
          answer := .capabilities }
  | .configured settings =>
      let settings := if s.takesSettings then ServerSettings.read settings else {}
      validateAll files { s with settings := settings, kept := .empty } (L.documents s.documents)
  | .opened uri version text     => s.renew files (L.didOpen s.documents uri version text)
  | .changed uri version changes => s.renew files (L.didChange s.documents uri version changes)
  | .closed uri                  => pure (s.drop (L.didClose s.documents uri))
  | .hover uri place             => s.ask files uri (.description none) (describeAt place)
  | .complete uri place          => s.ask files uri (.proposals []) (proposeAt place)
  | .outline uri                 => s.ask files uri (.entries []) outlineOf

end Server

/-! ## In the shape that editors expect -/

/-- What the server can do. -/
def capabilitiesJson : Json :=
  Json.obj
    [("capabilities", Json.obj
      [("textDocumentSync", Json.int 2),
       ("completionProvider", Json.obj
         [("resolveProvider", .bool false),
          ("triggerCharacters", .array [Json.str ".", Json.str "(", Json.str "\""])]),
       ("hoverProvider", .bool true),
       ("documentSymbolProvider", .bool true)])]

/-- A description as an editor shows it. -/
def descriptionJson : Option String → Json
  | some text =>
      Json.obj
        [("contents", Json.obj [("kind", Json.str "markdown"), ("value", Json.str text)])]
  | none      => .null

/-- An answer, if there is one to send; a failure is sent as an error and not as an answer. -/
def Answer.editorJson? : Answer → Option Json
  | .silence          => none
  | .capabilities     => some capabilitiesJson
  | .description text => some (descriptionJson text)
  | .proposals items  => some (.array (items.map CompletionItem.editorJson))
  | .entries list     => some (.array (list.map OutlineEntry.editorJson))
  | .failure _        => none

/-- Published diagnostics. -/
def Publication.editorJson (p : Publication) : Json :=
  Json.obj
    [("uri", Json.str p.uri), ("diagnostics", .array (p.diagnostics.map Diagnostic.editorJson))]

end SceneScript
