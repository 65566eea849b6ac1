/-
This file proves that a session with an editor is a run of the engine, and that
the editor hears of everything that the engine publishes.

The server would drop a publication whose path has no address, without the
engine noticing. That never happens if the library for addresses does what it
documents: the root of a workspace comes from an address and is absolute, every
path that is tracked or remembered for clearing has its place below the root, a
lint tool reports on tracked files only, and absolute paths have addresses.

A session consists of a request to begin, its confirmation and messages about
documents. Until the confirmation loads a workspace, and throughout if it loads
none, messages about documents are ignored. From then on the server does one
step of the engine for each message that stands for an event.
-/
import Mathlib.Data.List.Forall2
import WorkspaceSync.Proofs.Addressing
import WorkspaceSync.Proofs.Message
import WorkspaceSync.Proofs.Reversion
import WorkspaceSync.Proofs.Rounds

namespace WorkspaceSync

/-! ### The paths of addresses -/

/-- A path that is placed below an absolute root is absolute. -/
theorem Layout.isAbsolute_of_home? {layout : Layout} (absolute : layout.root.isAbsolute = true)
    {path : Path} {id : PackageId} (home : layout.home? path = some id) :
    path.isAbsolute = true := by
  obtain ⟨directory, located⟩ := (layout.home?_eq_some_iff path id).mp home
  obtain ⟨names, _, below⟩ := layout.exists_names_of_locate absolute located
  exact layout.isAbsolute_of_below absolute below

/-- The root that a workspace address stands for is absolute. -/
theorem Addressing.Documented.isAbsolute_of_resolveWorkspace {addressing : Addressing}
    (documented : addressing.Documented) {uri : String} {root : Path}
    (resolved : resolveWorkspace addressing uri = .ok root) : root.isAbsolute = true := by
  unfold resolveWorkspace at resolved
  split at resolved
  · exact nomatch resolved
  · split at resolved
    · exact nomatch resolved
    · split at resolved
      · next path found =>
        obtain rfl := Except.ok.inj resolved
        exact documented.isAbsolute_of_toPath? _ _ found
      · exact nomatch resolved

/-- A workspace is loaded under the rules for the root that its address stands for. -/
theorem Engine.exists_root_of_load {addressing : Addressing} (documented : addressing.Documented)
    {session : Session} {connect : Path → Layout} {disk : Disk} {engine : Engine}
    (loaded : Engine.load addressing session connect disk = .ok engine) :
    ∃ root : Path, root.isAbsolute = true ∧ engine.layout = connect root := by
  unfold Engine.load at loaded
  split at loaded
  · exact nomatch loaded
  · next root resolved =>
    simp only at loaded
    split at loaded
    · exact nomatch loaded
    · obtain rfl := Except.ok.inj loaded
      exact ⟨root, documented.isAbsolute_of_resolveWorkspace resolved, rfl⟩

/-! ### Paths in a session -/

/-- Every path that a set tracks, or remembers for clearing, is absolute. -/
def PackageSet.IsAbsolute (set : PackageSet) : Prop :=
  ∀ package ∈ set.packages, ∀ path,
    path ∈ package.files.paths ∨ path ∈ package.removed.paths → path.isAbsolute = true

theorem PackageSet.WellFormed.isAbsolute {layout : Layout} {set : PackageSet}
    (wellFormed : set.WellFormed layout) (absolute : layout.root.isAbsolute = true) :
    set.IsAbsolute := by
  intro package member path present
  refine layout.isAbsolute_of_home? absolute
    ((wellFormed.consistent package member).located path ?_)
  rcases present with tracked | remembered
  · obtain ⟨entry, inFiles, rfl⟩ := List.mem_map.mp tracked
    exact .inl (package.files.contains_of_mem inFiles)
  · obtain ⟨entry, inRemoved, rfl⟩ := List.mem_map.mp remembered
    exact .inr (package.removed.contains_of_mem inRemoved)

/-- With the tracked paths also their other spellings are absolute. -/
theorem PackageSet.IsAbsolute.of_contains {set : PackageSet} (absolute : set.IsAbsolute)
    {package : Package} (member : package ∈ set.packages) {path : Path}
    (tracked : package.files.contains path = true) : path.isAbsolute = true := by
  obtain ⟨entry, inFiles, same⟩ := (package.files.contains_iff path).mp tracked
  refine (Path.isAbsolute_congr same).mp (absolute package member entry.1 (.inl ?_))
  exact List.mem_map_of_mem inFiles

namespace Engine

variable {engine : Engine} {overlay : Overlay}

/-- In a workspace with an absolute root every path that an event publishes is absolute. -/
theorem InStep.isAbsolute_of_mem_published (inStep : engine.InStep overlay)
    (absolute : engine.layout.root.isAbsolute = true) {world : World}
    (calm : world.fetcher = Engine.fetcher) (confined : world.linter.Confined) (event : Event)
    {publication : Publication}
    (member : publication ∈ (engine.handle world event).2.sweep.published) :
    publication.file.isAbsolute = true := by
  have contained := inStep.contained calm event
  have nextWellFormed := (inStep.handle calm event).2.represents.wellFormed
  rw [(frame_handle engine world event).2] at nextWellFormed
  cases registration : (engine.handle world event).2.registration with
  | error error =>
    rw [(contained.refused error registration).2] at member
    exact absurd member List.not_mem_nil
  | ok =>
    obtain ⟨id, directory, located, _, _, published⟩ := contained.accepted registration
    have file := ((published (.inr confined)).2 publication.file).mp (List.mem_map_of_mem member)
    rcases file with tracked | ⟨closed, _⟩
    · cases found : (engine.handle world event).1.packages.get? id with
      | none =>
        rw [found] at tracked
        exact absurd tracked List.not_mem_nil
      | some package =>
        rw [found] at tracked
        exact nextWellFormed.isAbsolute absolute package (PackageSet.mem_of_get? found) _
          (.inl tracked)
    · have home := (engine.layout.home?_eq_some_iff event.path id).mpr ⟨directory, located⟩
      rw [closed] at home
      exact engine.layout.isAbsolute_of_home? absolute home

/-- The same holds for a request of any kind. -/
theorem InStep.isAbsolute_of_mem_serve (inStep : engine.InStep overlay)
    (absolute : engine.layout.root.isAbsolute = true) {step : World × Request}
    (calm : step.1.fetcher = Engine.fetcher) (confined : step.1.linter.Confined)
    {publication : Publication} (member : publication ∈ (Engine.serve (engine, []) step).2) :
    publication.file.isAbsolute = true := by
  unfold Engine.serve at member
  cases request : step.2 with
  | event event =>
    rw [request] at member
    exact inStep.isAbsolute_of_mem_published absolute calm confined event member
  | sweep =>
    rw [request, sweep_of_clean inStep.clean] at member
    exact absurd member List.not_mem_nil

/-- In a workspace with an absolute root every path that is ever published is absolute. -/
theorem InStep.isAbsolute_of_mem_run (inStep : engine.InStep overlay)
    (absolute : engine.layout.root.isAbsolute = true) {steps : List (World × Request)}
    (calm : ∀ step ∈ steps, step.1.fetcher = Engine.fetcher)
    (confined : ∀ step ∈ steps, step.1.linter.Confined)
    {publication : Publication} (member : publication ∈ (engine.run steps).2) :
    publication.file.isAbsolute = true := by
  induction steps generalizing engine overlay with
  | nil => exact absurd member List.not_mem_nil
  | cons step later inductionHypothesis =>
    obtain ⟨calmHere, calmLater⟩ := List.forall_mem_cons.mp calm
    obtain ⟨confinedHere, confinedLater⟩ := List.forall_mem_cons.mp confined
    obtain ⟨next, nextInStep⟩ := inStep.serve calmHere []
    rw [run_cons] at member
    rcases List.mem_append.mp member with here | further
    · exact inStep.isAbsolute_of_mem_serve absolute calmHere confinedHere here
    · refine inductionHypothesis nextInStep ?_ calmLater confinedLater further
      rwa [(frame_serve (engine, []) step).2]

/-- Registering an event keeps all paths absolute. -/
theorem InStep.isAbsolute_register (inStep : engine.InStep overlay)
    (absolute : engine.layout.root.isAbsolute = true) {read : Path → Reading} {event : Event}
    {packages : PackageSet} (registered : engine.register read event = .ok packages) :
    packages.IsAbsolute :=
  have wellFormed := inStep.represents.wellFormed
  ((writesAt_register wellFormed registered).writes.wellFormed wellFormed).isAbsolute absolute

end Engine

namespace Server

/-- The linter of a workspace reports only on files of the package. -/
theorem Workspace.confined_linter (workspace : Workspace) (runner : Lint.Runner) :
    (workspace.linter runner).Confined := by
  intro set package file found
  cases tool : workspace.tool with
  | none =>
    rw [linter, tool] at found
    exact absurd found (by simp [Lint.silent, PathMap.contains_empty])
  | some command =>
    rw [linter, tool] at found
    exact Lint.confined_ofTool _ _ set package file found

/-! ### Steps -/

variable {addressing : Addressing} {server : Server addressing} {host : Host} {message : Message}

/-- A message about a document is never refused; it is heard while the session runs. -/
theorem step_of_document {uri : String} (about : message.document? = some uri) :
    server.step host message =
      match server.phase with
      | .running =>
        match event? addressing message with
        | some event => server.handle host event
        | none => .idle server
      | _ => .idle server := by
  unfold step
  cases message with
  | opened other text => cases server.phase <;> rfl
  | changed other changes => cases server.phase <;> rfl
  | closed other => cases server.phase <;> rfl
  | _ => exact absurd about (by simp [Message.document?])

/-- Without a workspace a message about a document changes and says nothing. -/
theorem step_without_workspace {uri : String} (about : message.document? = some uri)
    (unloaded : server.workspace = none) : server.step host message = .idle server := by
  have idle (event : Event) : server.handle host event = .idle server := by
    rw [handle, unloaded]
  rw [step_of_document about]
  cases server.phase with
  | running =>
    cases event? addressing message with
    | some event => exact idle event
    | none => rfl
  | _ => rfl

/-- A message about a document without a local path changes and says nothing. -/
theorem step_of_foreign {uri : String} (about : message.document? = some uri)
    (foreign : ∀ path, ¬ LeadsTo addressing uri path) :
    server.step host message = .idle server := by
  rw [step_of_document about, event?_of_foreign about foreign]
  cases server.phase <;> rfl

/-- The server with another engine in its workspace. -/
def withEngine (server : Server addressing) (workspace : Workspace) (engine : Engine) :
    Server addressing :=
  { server with workspace := some { workspace with engine } }

/-- A running session with a workspace hands the event to its engine. -/
theorem step_of_standsFor (host : Host) {event : Event}
    (stands : StandsFor addressing message event) (running : server.phase = .running)
    {workspace : Workspace} (loaded : server.workspace = some workspace) :
    server.step host message =
      { server :=
          server.withEngine workspace (workspace.engine.handle (workspace.world host) event).1
        reply := none
        notices :=
          (workspace.engine.handle (workspace.world host) event).2.sweep.published.filterMap
            (notice? addressing) } := by
  obtain ⟨uri, about⟩ := stands.exists_document?
  rw [step_of_document about, running, stands.event?_eq]
  simp only [handle, loaded]
  rfl

/-! ### Runs -/

/-- The server after a row of messages, each with what the server runs on at that time. -/
def after (server : Server addressing) : List (Host × Message) → Server addressing
  | [] => server
  | (host, message) :: later => (server.step host message).server.after later

/-- What the server says of its own accord during a row of messages. -/
def said (server : Server addressing) : List (Host × Message) → List Notice
  | [] => []
  | (host, message) :: later =>
    (server.step host message).notices ++ (server.step host message).server.said later

/-- Each of the messages changes nothing and gets no answer and no notice. -/
def Ignores (server : Server addressing) (messages : List (Host × Message)) : Prop :=
  ∀ entry ∈ messages, server.step entry.1 entry.2 = .idle server

theorem Ignores.after_append {messages : List (Host × Message)} (ignores : server.Ignores messages)
    (later : List (Host × Message)) : server.after (messages ++ later) = server.after later := by
  induction messages with
  | nil => rfl
  | cons entry others inductionHypothesis =>
    obtain ⟨here, further⟩ := List.forall_mem_cons.mp ignores
    rw [List.cons_append, after, here]
    exact inductionHypothesis further

/-- The world in which the engine of a workspace hears of a message: the disk as it is then, and
the tool of the session, if it has one. -/
structure Sees (workspace : Workspace) (host : Host) (world : World) : Prop where
  read : world.read = host.disk.read
  fetcher : world.fetcher = Engine.fetcher
  silent : workspace.tool = none → world.linter = Lint.silent
  linted : ∀ command, workspace.tool = some command →
    world.linter = command.linter host.runner workspace.engine.layout.root

/-- The world is determined, and it is the one that the server shows. -/
theorem sees_iff (workspace : Workspace) (host : Host) (world : World) :
    Sees workspace host world ↔ world = workspace.world host := by
  constructor
  · rintro ⟨read, fetcher, silent, linted⟩
    have linter : world.linter = workspace.linter host.runner := by
      cases tool : workspace.tool with
      | none => rw [silent tool, Workspace.linter, tool]
      | some command => rw [linted command tool, Workspace.linter, tool]
    cases world
    simp only at read fetcher linter
    rw [read, fetcher, linter, Workspace.world]
  · rintro rfl
    refine ⟨rfl, rfl, fun tool => ?_, fun command tool => ?_⟩
    · show workspace.linter host.runner = _
      rw [Workspace.linter, tool]
    · show workspace.linter host.runner = _
      rw [Workspace.linter, tool]

/-- What the engine of a workspace hears of a row of messages: the events that they stand for,
each in the world of its time. Messages about documents without a local path are skipped. -/
inductive Heard (addressing : Addressing) (workspace : Workspace) :
    List (Host × Message) → List (World × Request) → Prop
  | nil : Heard addressing workspace [] []
  | event {host : Host} {world : World} (sees : Sees workspace host world) {message : Message}
      {event : Event} (stands : StandsFor addressing message event)
      {messages : List (Host × Message)} {steps : List (World × Request)}
      (later : Heard addressing workspace messages steps) :
    Heard addressing workspace ((host, message) :: messages) ((world, .event event) :: steps)
  | skip (host : Host) {message : Message} {uri : String} (about : message.document? = some uri)
      (foreign : ∀ path, ¬ LeadsTo addressing uri path)
      {messages : List (Host × Message)} {steps : List (World × Request)}
      (later : Heard addressing workspace messages steps) :
    Heard addressing workspace ((host, message) :: messages) steps

theorem exists_heard (addressing : Addressing) (workspace : Workspace)
    {messages : List (Host × Message)}
    (documents : ∀ entry ∈ messages, entry.2.document?.isSome = true) :
    ∃ steps, Heard addressing workspace messages steps := by
  induction messages with
  | nil => exact ⟨[], .nil⟩
  | cons entry others inductionHypothesis =>
    obtain ⟨here, further⟩ := List.forall_mem_cons.mp documents
    obtain ⟨steps, later⟩ := inductionHypothesis further
    obtain ⟨uri, about⟩ := Option.isSome_iff_exists.mp here
    by_cases leads : ∃ path, LeadsTo addressing uri path
    · obtain ⟨path, leads⟩ := leads
      obtain ⟨event, stands⟩ := exists_standsFor about leads
      exact ⟨_, .event ((sees_iff workspace entry.1 _).mpr rfl) stands later⟩
    · exact ⟨steps, .skip entry.1 about (not_exists.mp leads) later⟩

/-- The engine hears of every event in a world that nothing disturbs. -/
theorem Heard.worlds {workspace : Workspace} {messages : List (Host × Message)}
    {steps : List (World × Request)} (heard : Heard addressing workspace messages steps) :
    ∀ step ∈ steps, step.1.fetcher = Engine.fetcher ∧ step.1.linter.Confined := by
  induction heard with
  | nil => exact fun _ member => absurd member List.not_mem_nil
  | @event host world sees message event stands messages steps later inductionHypothesis =>
    obtain rfl := (sees_iff workspace host world).mp sees
    exact List.forall_mem_cons.mpr
      ⟨⟨rfl, workspace.confined_linter host.runner⟩, inductionHypothesis⟩
  | skip host about foreign later inductionHypothesis => exact inductionHypothesis

/-- The world does not depend on the packages of the workspace. -/
theorem Workspace.world_eq (workspace : Workspace) {engine : Engine}
    (sameLayout : engine.layout = workspace.engine.layout) (host : Host) :
    { workspace with engine }.world host = workspace.world host := by
  simp only [world, linter, sameLayout]

/-- A running session with a workspace is a run of its engine. -/
theorem Heard.run {workspace : Workspace} {messages : List (Host × Message)}
    {steps : List (World × Request)} (heard : Heard addressing workspace messages steps)
    (running : server.phase = .running) {engine : Engine}
    (sameLayout : engine.layout = workspace.engine.layout) :
    (server.withEngine workspace engine).after messages =
        server.withEngine workspace (engine.run steps).1 ∧
      (server.withEngine workspace engine).said messages =
        (engine.run steps).2.filterMap (notice? addressing) := by
  induction heard generalizing engine with
  | nil => exact ⟨rfl, rfl⟩
  | @event host world sees message event stands messages steps later inductionHypothesis =>
    obtain rfl := (sees_iff workspace host world).mp sees
    have current : (server.withEngine workspace engine).phase = .running := running
    have stepped := step_of_standsFor host stands current rfl
    rw [workspace.world_eq sameLayout host] at stepped
    have nextLayout : (engine.handle (workspace.world host) event).1.layout =
        workspace.engine.layout := (Engine.frame_handle ..).2.trans sameLayout
    obtain ⟨sameServer, sameNotices⟩ := inductionHypothesis nextLayout
    rw [after, said, stepped, engine.run_cons, List.filterMap_append]
    exact ⟨sameServer, congrArg (_ ++ ·) sameNotices⟩
  | skip host about foreign later inductionHypothesis =>
    rw [after, said, step_of_foreign about foreign]
    exact inductionHypothesis sameLayout

/-! ### Beginning -/

/-- A request to begin, whether it can be understood or not. -/
def Message.AsksToBegin : Message → Prop
  | .startRequest .. => True
  | .malformedStart _ => True
  | _ => False

/-- The settings that a workspace is loaded with: those of the server under the options of the
request and the settings of the project. -/
def settingsAt {addressing : Addressing} (config : Config) (options : Option Value) (disk : Disk)
    (root : addressing.Address) : Config :=
  (loadProject (withOptions config options) disk root).1

/-- A request to begin leads to a workspace once it is confirmed. All addresses in the request can
be read, the first folder or else the root that it names is the root of the workspace, and the
packages there can be loaded. -/
inductive Loads (addressing : Addressing) (config : Config) (disk : Disk) :
    Message → Workspace → Prop
  | intro {folders : List String} {root : Option String} {options : Option Value}
      (readable : ∀ uri ∈ folders ++ root.toList, ∃ address, addressing.read uri = .ok address)
      {uri : String} {address : addressing.Address}
      (first : (folders ++ root.toList).head? = some uri)
      (named : addressing.read uri = .ok address) {engine : Engine}
      (loaded : Engine.load addressing
        ⟨addressing.text address, (settingsAt config options disk address).lint⟩
        (settingsAt config options disk address).layout disk = .ok engine) :
    Loads addressing config disk (.startRequest folders root options)
      ⟨engine, (settingsAt config options disk address).lintTool?⟩

/-- What a session loads when its request is confirmed: nothing if the request was refused, named
no root, or the root cannot be loaded. -/
def loaded? (addressing : Addressing) (config : Config) (disk : Disk) (request : Message) :
    Option Workspace :=
  match request with
  | .startRequest folders root options =>
    match readRoot addressing folders root with
    | .ok (some address) =>
      let settled := settingsAt config options disk address
      match Engine.load addressing ⟨addressing.text address, settled.lint⟩ settled.layout disk with
      | .ok engine => some ⟨engine, settled.lintTool?⟩
      | .error _ => none
    | _ => none
  | _ => none

theorem loaded?_eq_some_iff (config : Config) (disk : Disk) (request : Message)
    (workspace : Workspace) :
    loaded? addressing config disk request = some workspace ↔
      Loads addressing config disk request workspace := by
  constructor
  · intro loaded
    unfold loaded? at loaded
    split at loaded
    · next folders root options =>
      split at loaded
      · next address named =>
        obtain ⟨readable, uri, first, read⟩ := (readRoot_eq_some_iff folders root address).mp named
        simp only at loaded
        split at loaded
        · next engine load =>
          obtain rfl := Option.some.inj loaded
          exact .intro readable first read load
        · exact nomatch loaded
      · exact nomatch loaded
    · exact nomatch loaded
  · rintro ⟨readable, first, named, load⟩
    have found := (readRoot_eq_some_iff _ _ _).mpr ⟨readable, _, first, named⟩
    simp only [loaded?, found, load]

/-- The server after a request to begin that can be understood. -/
theorem step_startRequest (config : Config) (asking : Host) (folders : List String)
    (root : Option String) (options : Option Value) :
    ((start addressing config).step asking (.startRequest folders root options)).server =
      match readRoot addressing folders root with
      | .error _ => start addressing config
      | .ok found =>
        { start addressing config with
          phase := .running
          config := withOptions config options
          root := found } := by
  show ((start addressing config).accept folders root options).server = _
  rw [accept]
  cases readRoot addressing folders root <;> rfl

/-- Until the request is confirmed there is no workspace. -/
theorem workspace_of_request (config : Config) (asking : Host) {request : Message}
    (begins : request.AsksToBegin) :
    ((start addressing config).step asking request).server.workspace = none := by
  cases request with
  | startRequest folders root options =>
    rw [step_startRequest]
    cases readRoot addressing folders root <;> rfl
  | malformedStart reason => rfl
  | _ => exact begins.elim

/-- The confirmation of the request loads the workspace, and a session with a workspace runs. -/
theorem step_startConfirmed (config : Config) (asking confirming : Host) {request : Message}
    (begins : request.AsksToBegin) :
    let opened := (((start addressing config).step asking request).server.step confirming
      .startConfirmed).server
    opened.workspace = loaded? addressing config confirming.disk request ∧
      (opened.workspace.isSome = true → opened.phase = .running) := by
  cases request with
  | malformedStart reason => exact ⟨rfl, fun some => absurd some Bool.false_ne_true⟩
  | startRequest folders root options =>
    rw [step_startRequest]
    unfold loaded?
    simp only
    cases readRoot addressing folders root with
    | error refusal => exact ⟨rfl, fun some => absurd some Bool.false_ne_true⟩
    | ok found =>
      cases found with
      | none => exact ⟨rfl, fun _ => rfl⟩
      | some address =>
        simp only [settingsAt]
        cases read : Engine.load addressing
          ⟨addressing.text address,
            (loadProject (withOptions config options) confirming.disk address).1.lint⟩
          (loadProject (withOptions config options) confirming.disk address).1.layout
          confirming.disk with
        | error error => simp [step, refusal?, loadWorkspace, read, start]
        | ok engine => simp [step, refusal?, loadWorkspace, read]
  | _ => exact begins.elim

/-! ### Sessions -/

/-- Without a workspace messages about documents are ignored. -/
theorem ignores_documents (unloaded : server.workspace = none)
    {messages : List (Host × Message)}
    (documents : ∀ entry ∈ messages, entry.2.document?.isSome = true) :
    server.Ignores messages := by
  intro entry member
  obtain ⟨uri, about⟩ := Option.isSome_iff_exists.mp (documents entry member)
  exact step_without_workspace about unloaded

theorem withEngine_self {workspace : Workspace} (loaded : server.workspace = some workspace) :
    server.withEngine workspace workspace.engine = server := by
  cases server
  simp_all [withEngine]

/-- A session from its load on, seen as a run of the engine. -/
structure RunsEngine (opened : Server addressing) (workspace : Workspace)
    (later : List (Host × Message)) (steps : List (World × Request)) : Prop where
  /-- The packages are those of the engine after the steps. -/
  packages : (opened.after later).workspace =
    some { workspace with engine := (workspace.engine.run steps).1 }
  /-- Every publication of the engine reaches the editor once, in order, and nothing else does. -/
  delivered : List.Forall₂ (Delivers addressing) (workspace.engine.run steps).2 (opened.said later)
  /-- All paths in the packages are absolute. -/
  absolute : (workspace.engine.run steps).1.packages.IsAbsolute
  /-- They are so once a further event is registered, and the linter, which is run then, reports
  on absolute paths only. -/
  registered : ∀ (host : Host) (world : World), Sees workspace host world →
    ∀ (event : Event) (packages : PackageSet),
      (workspace.engine.run steps).1.register world.read event = .ok packages →
        packages.IsAbsolute ∧ ∀ package ∈ packages.packages,
          ∀ file ∈ (world.linter packages package).paths, file.isAbsolute = true

/-- A server that has just loaded a workspace runs its engine on what the engine hears. -/
theorem Heard.runsEngine (documented : addressing.Documented) {opened : Server addressing}
    (running : opened.phase = .running) {workspace : Workspace}
    (loaded : opened.workspace = some workspace) {disk : Disk} {session : Session}
    {connect : Path → Layout} (sound : disk.root.isSound = true)
    (read : Engine.load addressing session connect disk = .ok workspace.engine)
    (absolute : workspace.engine.layout.root.isAbsolute = true) {later : List (Host × Message)}
    {steps : List (World × Request)} (heard : Heard addressing workspace later steps) :
    opened.RunsEngine workspace later steps := by
  have calm : ∀ step ∈ steps, step.1.fetcher = Engine.fetcher := fun step member =>
    (heard.worlds step member).1
  have confined : ∀ step ∈ steps, step.1.linter.Confined := fun step member =>
    (heard.worlds step member).2
  have inStep := Engine.inStep_load sound read
  obtain ⟨overlay, nextInStep⟩ := inStep.run calm
  have nextAbsolute : (workspace.engine.run steps).1.layout.root.isAbsolute = true := by
    rw [(workspace.engine.frame_run steps).2]
    exact absolute
  obtain ⟨server, notices⟩ := heard.run running rfl
  rw [withEngine_self loaded] at server notices
  refine ⟨?_, ?_, nextInStep.represents.wellFormed.isAbsolute nextAbsolute, ?_⟩
  · rw [server]
    rfl
  · rw [notices]
    exact forall₂_delivers documented fun publication member =>
      inStep.isAbsolute_of_mem_run absolute calm confined member
  · intro host world sees event packages registered
    obtain rfl := (sees_iff workspace host world).mp sees
    have allAbsolute := nextInStep.isAbsolute_register nextAbsolute registered
    refine ⟨allAbsolute, fun package member file reported => ?_⟩
    obtain ⟨entry, found, rfl⟩ := List.mem_map.mp reported
    exact allAbsolute.of_contains member (workspace.confined_linter host.runner packages package _
      (PathMap.contains_of_mem _ found))

/-- A session is a run of the engine that it loads, if addresses are what their library documents.
Until the load, and throughout without one, messages about documents are ignored. From then on the
engine hears the events that they stand for. -/
theorem session_runs_engine (documented : addressing.Documented) (config : Config)
    (asking confirming : Host) (request : Message) (begins : request.AsksToBegin)
    (before between later : List (Host × Message))
    (documents : ∀ entry ∈ before ++ between ++ later, entry.2.document?.isSome = true)
    (sound : confirming.disk.root.isSound = true) :
    let asked := (start addressing config).after (before ++ [(asking, request)])
    let opened := asked.after (between ++ [(confirming, .startConfirmed)])
    -- A confirmation that comes before the request is not heard.
    let early := (start addressing config).after (before ++ [(confirming, .startConfirmed)])
    let late := early.after (between ++ [(asking, request)])
    ((start addressing config).Ignores before ∧ asked.Ignores between) ∧
    (early.Ignores between ∧ late.Ignores later) ∧
    (∀ workspace, opened.workspace = some workspace ↔
      Loads addressing config confirming.disk request workspace) ∧
    (opened.workspace = none → opened.Ignores later) ∧
    ∀ workspace, opened.workspace = some workspace →
      (∃ steps, Heard addressing workspace later steps) ∧
      ∀ steps, Heard addressing workspace later steps →
        opened.RunsEngine workspace later steps := by
  intro asked opened early late
  obtain ⟨documentsUntil, documentsLater⟩ := List.forall_mem_append.mp documents
  obtain ⟨documentsBefore, documentsBetween⟩ := List.forall_mem_append.mp documentsUntil
  have ignoresBefore : (start addressing config).Ignores before :=
    ignores_documents rfl documentsBefore
  have askedIs : asked = ((start addressing config).step asking request).server :=
    ignoresBefore.after_append _
  have askedUnloaded : asked.workspace = none := by
    rw [askedIs]
    exact workspace_of_request config asking begins
  have ignoresBetween : asked.Ignores between := ignores_documents askedUnloaded documentsBetween
  have openedIs : opened = (((start addressing config).step asking request).server.step confirming
      .startConfirmed).server := by
    rw [← askedIs]
    exact ignoresBetween.after_append _
  have earlyIs : early = start addressing config := ignoresBefore.after_append _
  have ignoresEarly : early.Ignores between := by
    rw [earlyIs]
    exact ignores_documents rfl documentsBetween
  have lateIs : late = ((start addressing config).step asking request).server := by
    rw [← earlyIs]
    exact ignoresEarly.after_append _
  have lateUnloaded : late.workspace = none := by
    rw [lateIs]
    exact workspace_of_request config asking begins
  obtain ⟨workspaceIs, runs⟩ := step_startConfirmed config asking confirming begins
  rw [← openedIs] at workspaceIs runs
  have loads (workspace : Workspace) : opened.workspace = some workspace ↔
      Loads addressing config confirming.disk request workspace := by
    rw [workspaceIs, loaded?_eq_some_iff]
  refine ⟨⟨ignoresBefore, ignoresBetween⟩,
    ⟨ignoresEarly, ignores_documents lateUnloaded documentsLater⟩, loads,
    fun unloaded => ignores_documents unloaded documentsLater, fun workspace loaded => ?_⟩
  have running : opened.phase = .running := runs (by rw [loaded]; rfl)
  refine ⟨exists_heard addressing workspace documentsLater, fun steps heard => ?_⟩
  obtain ⟨_, _, _, read⟩ := (loads workspace).mp loaded
  obtain ⟨place, absolute, layout⟩ := Engine.exists_root_of_load documented read
  refine heard.runsEngine documented running loaded sound read ?_
  rw [layout]
  exact absolute

/-- A host with a single directory, which is empty, and no tools. -/
def emptyHost : Host :=
  { disk := .hidden [], runner := fun _ => .failed }

/-- The workspace in the empty directory. -/
def emptyWorkspace : Workspace :=
  { engine := { Engine.bare with session := ⟨"file:///.ws", false⟩ }, tool := none }

theorem settingsAt_emptyHost {address : Url.addressing.Address}
    (place : Url.addressing.toPath? address = some ⟨"/.ws"⟩) :
    settingsAt .default none emptyHost.disk address = .default := by
  have noFile : emptyHost.disk.isFile (Config.projectFile ⟨"/.ws"⟩) = false := by
    have linkFree : emptyHost.disk.root.isLinkFree = true := rfl
    rw [Disk.isFile, Disk.entry, Disk.locate_eq_foldlM linkFree]
    rfl
  have options : withOptions .default none = .default := rfl
  simp only [settingsAt, options, loadProject, place, Config.loadProject, noFile]
  rfl

theorem load_emptyHost :
    Engine.load Url.addressing ⟨"file:///.ws", Config.default.lint⟩ Config.default.layout
      emptyHost.disk = .ok emptyWorkspace.engine := by
  have layout : Config.default.layout ⟨"/.ws"⟩ = Layout.ofRoot ⟨"/.ws"⟩ := by decide
  have resolved : resolveWorkspace Url.addressing "file:///.ws" = .ok ⟨"/.ws"⟩ := by
    decide +kernel
  have packages : (Layout.ofRoot ⟨"/.ws"⟩).load emptyHost.disk = .ok .empty :=
    Engine.load_hidden rfl
  simp only [Engine.load, resolved, layout, packages]
  rfl

/-- Naming the empty directory loads the workspace in it. -/
theorem loads_emptyHost :
    Loads Url.addressing .default emptyHost.disk (.startRequest [] (some "file:///.ws") none)
      emptyWorkspace := by
  obtain ⟨address, named, text, place⟩ : ∃ address,
      Url.addressing.read "file:///.ws" = .ok address ∧
        Url.addressing.text address = "file:///.ws" ∧
          Url.addressing.toPath? address = some ⟨"/.ws"⟩ :=
    ⟨Url.mk "file".toList true [] none none "/.ws".toList none none,
      Url.read_addressing (by decide +kernel), by decide +kernel, by decide +kernel⟩
  have readable : ∀ uri ∈ [] ++ (some "file:///.ws").toList,
      ∃ address, Url.addressing.read uri = .ok address := by
    intro uri member
    obtain rfl := List.mem_singleton.mp member
    exact ⟨address, named⟩
  have settled := settingsAt_emptyHost place
  have tool : emptyWorkspace =
      ⟨emptyWorkspace.engine, (settingsAt .default none emptyHost.disk address).lintTool?⟩ := by
    rw [settled]
    rfl
  rw [tool]
  refine .intro readable rfl named ?_
  rw [settled, text]
  exact load_emptyHost

theorem leadsTo_document : LeadsTo Url.addressing "file:///.ws/a.gunk" ⟨"/.ws/a.gunk"⟩ :=
  ⟨Url.mk "file".toList true [] none none "/.ws/a.gunk".toList none none,
    Url.read_addressing (by decide +kernel), by decide +kernel⟩

theorem not_leadsTo_mail (path : Path) : ¬ LeadsTo Url.addressing "mailto:a" path := by
  rintro ⟨address, read, place⟩
  have mail : Url.addressing.read "mailto:a" =
      .ok (Url.mk "mailto".toList false [] none none "a".toList none none) :=
    Url.read_addressing (by decide +kernel)
  obtain rfl := Except.ok.inj (mail.symm.trans read)
  exact nomatch place

/-- What the engine hears of when a document in the empty directory is opened and then changed in
part. -/
def openedAndChanged : List (World × Request) :=
  let world : World := ⟨emptyHost.disk.read, Engine.fetcher, Lint.silent⟩
  [(world, .event (.opened ⟨"/.ws/a.gunk"⟩ "nonsense")),
    (world, .event (.updateRejected ⟨"/.ws/a.gunk"⟩))]

/-- The engine publishes one list for it. -/
theorem run_openedAndChanged :
    (emptyWorkspace.engine.run openedAndChanged).2 =
      [⟨⟨"/.ws/a.gunk"⟩, [{
        file := ⟨"/.ws/a.gunk"⟩
        message := "expected package clause, found `nonsense`"
        severity := .error
        span := ⟨0, 0, 0, 8⟩
        source := some "gunk" }]⟩] := by
  decide +kernel

/-- A document is heard of before the request, between the request and its confirmation and
afterwards, when it is opened and partly changed; one without a local path is opened, too. The
editor is told once what is wrong with the text. -/
theorem session_runs_engine_emptyHost :
    let document := "file:///.ws/a.gunk"
    let request := Message.startRequest [] (some "file:///.ws") none
    let before := [(emptyHost, Message.opened document "early")]
    let between := [(emptyHost, Message.closed document)]
    let later := [(emptyHost, Message.opened document "nonsense"),
      (emptyHost, .opened "mailto:a" ""), (emptyHost, .changed document [⟨true, "x"⟩])]
    let asked := (start Url.addressing .default).after (before ++ [(emptyHost, request)])
    let opened := asked.after (between ++ [(emptyHost, .startConfirmed)])
    (Url.addressing.Documented ∧ request.AsksToBegin ∧
        (∀ entry ∈ before ++ between ++ later, entry.2.document?.isSome = true) ∧
        emptyHost.disk.root.isSound = true) ∧
      opened.workspace = some emptyWorkspace ∧
      Heard Url.addressing emptyWorkspace later openedAndChanged ∧
      opened.RunsEngine emptyWorkspace later openedAndChanged ∧
      opened.said later = [.publish document [{
        range := ⟨0, 0, 0, 8⟩
        severity := 1
        source := "gunk"
        message := "expected package clause, found `nonsense`" }]] := by
  intro document request before between later asked opened
  have documents : ∀ entry ∈ before ++ between ++ later, entry.2.document?.isSome = true := by
    simp [before, between, later, Message.document?]
  have sound : emptyHost.disk.root.isSound = true := by decide
  obtain ⟨-, -, loads, -, runs⟩ := session_runs_engine Url.documented_addressing .default emptyHost
    emptyHost request trivial before between later documents sound
  have loaded := (loads emptyWorkspace).mpr loads_emptyHost
  have sees : Sees emptyWorkspace emptyHost ⟨emptyHost.disk.read, Engine.fetcher, Lint.silent⟩ :=
    (sees_iff emptyWorkspace emptyHost _).mpr rfl
  have heard : Heard Url.addressing emptyWorkspace later openedAndChanged := by
    refine .event sees (.opened leadsTo_document "nonsense") ?_
    refine .skip emptyHost rfl not_leadsTo_mail ?_
    exact .event sees (.updateRejected leadsTo_document (by simp)) .nil
  have run := (runs emptyWorkspace loaded).2 openedAndChanged heard
  refine ⟨⟨Url.documented_addressing, trivial, documents, sound⟩, loaded, heard, run, ?_⟩
  have delivered := run.delivered
  rw [run_openedAndChanged] at delivered
  generalize opened.said later = said at delivered ⊢
  obtain _ | ⟨told, nothing⟩ := delivered
  obtain rfl := List.forall₂_nil_left_iff.mp nothing
  have notice := (delivers_iff _ _).mp told
  have address : Url.addressing.ofPath? ⟨"/.ws/a.gunk"⟩ = some document := by decide +kernel
  rw [notice?, address] at notice
  rw [← Option.some.inj notice]
  rfl

end Server

end WorkspaceSync
