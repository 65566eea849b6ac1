/-
This file keeps the packages of a workspace in step with the documents of an
editor.

An event on a document is registered first and then a sweep publishes what it
changed. An event that is refused changes nothing, but is followed by a sweep
all the same, which takes up the packages that earlier sweeps left dirty.
-/
import WorkspaceSync.Addressing
import WorkspaceSync.Sync.Sweep

namespace WorkspaceSync

/-- What a session is started with. -/
structure Session where
  /-- The address of the workspace root. -/
  workspaceUri : String
  /-- Whether advisory findings are added for packages without errors. -/
  lint : Bool
  deriving DecidableEq, Repr

/-- The local directory path that a workspace address stands for. -/
def resolveWorkspace (addressing : Addressing) (uri : String) : Except SyncError Path :=
  match addressing.read uri with
  | .error reason => .error (.invalidRoot uri reason)
  | .ok address =>
    if addressing.scheme address ≠ "file" then
      .error (.invalidRoot uri ("unsupported scheme `" ++ addressing.scheme address ++ "`"))
    else
      match addressing.toPath? address with
      | some path => .ok path
      | none => .error (.invalidRoot uri "not a local file path")

/-- Something that happened to a document. -/
inductive Event where
  /-- The document became visible with this text. -/
  | opened (path : Path) (text : String)
  /-- The whole text of the document is now this one. -/
  | updated (path : Path) (text : String)
  /-- A change came without the whole text. -/
  | updateRejected (path : Path)
  /-- The editor let go of the document. -/
  | closed (path : Path)
  deriving DecidableEq, Repr

/-- The world that an event runs in. -/
structure World where
  /-- What reading a path from the disk gives. -/
  read : Path → Reading
  fetcher : Fetcher
  linter : Linter

/-- What one event led to. -/
structure Outcome where
  registration : Except SyncError Unit
  sweep : Sweep

/-- Whether the event itself was accepted. -/
def Outcome.isAccepted (outcome : Outcome) : Bool :=
  outcome.registration.isOk

/-- The state of a session. -/
structure Engine where
  session : Session
  layout : Layout
  packages : PackageSet

namespace Engine

/-- Starts a session: resolves the workspace root, lets `connect` say what its rules are, and loads
its packages from the disk. -/
def load (addressing : Addressing) (session : Session) (connect : Path → Layout) (disk : Disk) :
    Except SyncError Engine :=
  match resolveWorkspace addressing session.workspaceUri with
  | .error error => .error error
  | .ok root =>
    let layout := connect root
    match layout.load disk with
    | .error cause => .error (.workspaceLoad root cause)
    | .ok packages => .ok { session, layout, packages }

/-- The packages once an event is registered. -/
def register (engine : Engine) (read : Path → Reading) : Event → Except SyncError PackageSet
  | .opened path text =>
    match engine.layout.addFile engine.packages path text with
    | .ok (packages, _) => .ok packages
    | .error cause => .error (.registration .opening path cause)
  | .updated path text =>
    match Layout.updateFile engine.packages path text with
    | .ok packages => .ok packages
    | .error cause => .error (.registration .updating path cause)
  | .updateRejected path => .error (.incompleteUpdate path)
  | .closed path =>
    match Layout.closeFile read engine.packages path with
    | .ok packages => .ok packages
    | .error cause => .error (.registration .closing path cause)

/-- Publishes the diagnostics of every dirty package. -/
def sweep (engine : Engine) (world : World) : Engine × Sweep :=
  let (packages, sweep) := Sweep.run world.fetcher world.linter engine.session.lint engine.packages
  ({ engine with packages }, sweep)

/-- Registers an event and publishes what it changed. -/
def handle (engine : Engine) (world : World) (event : Event) : Engine × Outcome :=
  match engine.register world.read event with
  | .ok packages =>
    let (next, sweep) := { engine with packages }.sweep world
    (next, ⟨.ok (), sweep⟩)
  | .error error =>
    let (next, sweep) := engine.sweep world
    (next, ⟨.error error, sweep⟩)

/-- The fetcher of a session that nothing disturbs. -/
def fetcher : Fetcher := fun _ set id => Layout.errorsOf set id

/-- The fetcher whose first calls fail, as many as the number says. -/
def failingFetcher (failures : Nat) : Fetcher := fun call set id =>
  if call < failures then .error (.unknownPackage id) else Layout.errorsOf set id

end Engine

end WorkspaceSync
