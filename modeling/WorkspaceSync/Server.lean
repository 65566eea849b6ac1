/-
This file leads the conversation with an editor.

A session begins with a request, which tells the root of the workspace and the
options, and its confirmation, which loads the workspace. Events on documents
are handed to the engine once there is one, and what the engine publishes is
passed on. A workspace that cannot be loaded leaves the engine of an earlier
load in place. The library that reads and writes addresses is a parameter of the
server.
-/
import WorkspaceSync.Config
import WorkspaceSync.Server.Message
import WorkspaceSync.Sync.Engine
import WorkspaceSync.Text.Shown

namespace WorkspaceSync

/-- How far the conversation has come. -/
inductive Server.Phase where
  | fresh
  | running
  | stopped
  deriving DecidableEq, Repr

/-- The engine of a loaded workspace with the lint tool of its session. -/
structure Server.Workspace where
  engine : Engine
  tool : Option Lint.Command

/-- The state of the server. -/
structure Server (addressing : Addressing) where
  phase : Server.Phase
  config : Config
  /-- The root of the workspace as the editor named it. -/
  root : Option addressing.Address
  workspace : Option Server.Workspace

namespace Server

/-- The server before the first message. -/
def start (addressing : Addressing) (config : Config) : Server addressing :=
  { phase := .fresh, config, root := none, workspace := none }

/-- What the server runs on. -/
structure Host where
  disk : Disk
  runner : Lint.Runner

/-- What handling one message leads to. -/
structure Step (addressing : Addressing) where
  server : Server addressing
  reply : Option Reply
  notices : List Notice

variable {addressing : Addressing}

/-- A step that changes and says nothing. -/
def Step.idle (server : Server addressing) : Step addressing := ⟨server, none, []⟩

/-- A step that refuses a request. -/
def Step.refuse (server : Server addressing) (refusal : Refusal) : Step addressing :=
  ⟨server, some (.refused refusal), []⟩

/-! ### Documents -/

/-- The linter of a loaded workspace. -/
def Workspace.linter (workspace : Workspace) (runner : Lint.Runner) : Linter :=
  match workspace.tool with
  | none => Lint.silent
  | some command => command.linter runner workspace.engine.layout.root

/-- The world that the engine runs in. -/
def Workspace.world (workspace : Workspace) (host : Host) : World :=
  { read := host.disk.read
    fetcher := Engine.fetcher
    linter := workspace.linter host.runner }

/-- What is sent for one publication; a path that is not absolute has no address to send to. -/
def notice? (addressing : Addressing) (publication : Publication) : Option Notice :=
  (addressing.ofPath? publication.file).map fun uri =>
    .publish uri (publication.diagnostics.map Marker.ofDiagnostic)

/-- Hands an event to the engine, if there is one, and passes on what it publishes. -/
def handle (server : Server addressing) (host : Host) (event : Event) : Step addressing :=
  match server.workspace with
  | none => .idle server
  | some workspace =>
    let (engine, outcome) := workspace.engine.handle (workspace.world host) event
    { server := { server with workspace := some { workspace with engine } }
      reply := none
      notices := outcome.sweep.published.filterMap (notice? addressing) }

/-- The path of a document; none if its address is no local path. -/
def documentPath? (addressing : Addressing) (uri : String) : Option Path :=
  match addressing.read uri with
  | .ok address => addressing.toPath? address
  | .error _ => none

/-- The event that a message about a document stands for. -/
def event? (addressing : Addressing) : Message → Option Event
  | .opened uri text => (documentPath? addressing uri).map fun path => .opened path text
  | .changed uri changes =>
    (documentPath? addressing uri).map fun path =>
      match fullText? changes with
      | some text => .updated path text
      | none => .updateRejected path
  | .closed uri => (documentPath? addressing uri).map .closed
  | _ => none

/-! ### The workspace -/

/-- Lays the project's settings on; a file that cannot be used is reported and left out. -/
def loadProject (config : Config) (disk : Disk) (root : addressing.Address) :
    Config × List Notice :=
  match addressing.toPath? root with
  | none => (config, [])
  | some path =>
    match config.loadProject disk path with
    | (layered, .ok _) => (layered, [])
    | (layered, .error error) => (layered, [.showMessage .warning error.message])

/-- Loads the workspace anew. -/
def loadWorkspace (server : Server addressing) (host : Host) :
    Server addressing × List Notice :=
  match server.root with
  | none => (server, [])
  | some root =>
    let (config, warnings) := loadProject server.config host.disk root
    let session : Session := ⟨addressing.text root, config.lint⟩
    match Engine.load addressing session config.layout host.disk with
    | .ok engine =>
      ({ server with config, workspace := some ⟨engine, config.lintTool?⟩ }, warnings)
    | .error error =>
      ({ server with config }, warnings ++ [.showMessage .error error.message])

/-- Reads an address that came with a request; the error says what is wrong with the request. -/
def readAddress (addressing : Addressing) (uri : String) : Except Refusal addressing.Address :=
  match addressing.read uri with
  | .ok address => .ok address
  | .error reason =>
    .error (.invalidParameters
      ("invalid value: string " ++ Text.shown uri ++ ", expected " ++ reason))

/-- Reads the root of a workspace: the first folder, or else the root that was named. All addresses
have to be sound. -/
def readRoot (addressing : Addressing) (folders : List String) (root : Option String) :
    Except Refusal (Option addressing.Address) := do
  let rootAddress ← root.mapM (readAddress addressing)
  let folderAddresses ← folders.mapM (readAddress addressing)
  return folderAddresses.head?.or rootAddress

/-- The settings with the options of the client; options that cannot be read do not count. -/
def withOptions (config : Config) (options : Option Value) : Config :=
  match options.map Settings.ofOptions with
  | some (.ok settings) => config.applyClient settings
  | _ => config

/-- Begins a session. -/
def accept (server : Server addressing) (folders : List String) (root : Option String)
    (options : Option Value) : Step addressing :=
  match readRoot addressing folders root with
  | .error refusal => .refuse server refusal
  | .ok found =>
    { server :=
        { server with
          phase := .running, config := withOptions server.config options, root := found }
      reply := some .ready
      notices := [] }

/-! ### The conversation -/

/-- Why a message is refused in a phase, if it is. -/
def refusal? : Phase → Message → Option Refusal
  | .fresh, .malformedStart reason => some (.invalidParameters reason)
  | .fresh, .stopRequest => some .notInitialized
  | .fresh, .malformedStop _ => some .notInitialized
  | .fresh, .unknownRequest => some .notInitialized
  | .running, .startRequest .. => some .invalidRequest
  | .running, .malformedStart _ => some .invalidRequest
  | .running, .malformedStop reason => some (.invalidParameters reason)
  | .running, .unknownRequest => some .methodNotFound
  | .stopped, .startRequest .. => some .invalidRequest
  | .stopped, .malformedStart _ => some .invalidRequest
  | .stopped, .stopRequest => some .invalidRequest
  | .stopped, .malformedStop _ => some .invalidRequest
  | .stopped, .unknownRequest => some .invalidRequest
  | _, _ => none

/-- The server after it refused a message: a request to end that cannot be understood ends the
session all the same. -/
def afterRefusal (server : Server addressing) : Message → Server addressing
  | .malformedStop _ =>
    if server.phase = .running then { server with phase := .stopped } else server
  | _ => server

/-- Handles one message. -/
def step (server : Server addressing) (host : Host) (message : Message) : Step addressing :=
  match refusal? server.phase message with
  | some refusal => .refuse (server.afterRefusal message) refusal
  | none =>
    match server.phase, message with
    | .fresh, .startRequest folders root options => server.accept folders root options
    | .running, .startConfirmed =>
      let (loaded, notices) := server.loadWorkspace host
      ⟨loaded, none, notices ++ [.logMessage .info (serverName ++ " initialized")]⟩
    | .running, .stopRequest => ⟨{ server with phase := .stopped }, some .done, []⟩
    | .running, document =>
      match event? addressing document with
      | some event => server.handle host event
      | none => .idle server
    | _, _ => .idle server

end Server

end WorkspaceSync
