/-
This file follows the documents that an editor opens, changes and closes.

The editor's text overlays the text on the disk. A request that succeeds leaves
the package of the file dirty and analysed anew; a request that fails has no
result, so that its caller keeps the set it had.
-/
import WorkspaceSync.Loading

namespace WorkspaceSync.Layout

/-- The package of a newly visible file, and whether the file brought it into being. -/
structure Added where
  package : PackageId
  isNew : Bool
  deriving DecidableEq, Repr

/-- The package with its files changed: dirty and analysed anew. -/
def touched (package : Package) : Package :=
  { package with state := .dirty }.analyzed

/-- Shows a file with the editor's text. -/
def addFile (layout : Layout) (set : PackageSet) (path : Path) (text : String) :
    Except PackageError (PackageSet × Added) :=
  match layout.locate path with
  | .error error => .error error
  | .ok (id, directory) =>
    match set.get? id with
    | some _ =>
      let next := set.modify id fun package =>
        touched
          { package with
            removed := package.removed.erase path
            files := package.files.insert path (.ofEditor text) }
      .ok (next, ⟨id, false⟩)
    | none =>
      let fresh := Package.new id directory
      let package := touched { fresh with files := fresh.files.insert path (.ofEditor text) }
      .ok (set.upsert package, ⟨id, true⟩)

/-- Replaces the whole text of a tracked file. -/
def updateFile (set : PackageSet) (path : Path) (text : String) :
    Except PackageError PackageSet :=
  match set.ownerOf? path with
  | none => .error (.unknownFile path)
  | some owner =>
    .ok <| set.modify owner.id fun package =>
      touched { package with files := package.files.insert path (.ofEditor text) }

/-- Gives a package what reading one of its files from the disk gave. A file that is gone leaves
the package and is remembered as removed. -/
def revert (path : Path) (reading : Reading) (package : Package) : Package :=
  match reading with
  | .text text => { package with files := package.files.insert path (.ofDisk text) }
  | .absent =>
    { package with
      files := package.files.erase path
      removed := package.removed.insert path () }
  | .failed reason => { package with files := package.files.insert path (.unreadable reason) }

/-- Takes the editor's text of a tracked file away and falls back to the disk. -/
def closeFile (read : Path → Reading) (set : PackageSet) (path : Path) :
    Except PackageError PackageSet :=
  match set.ownerOf? path with
  | none => .error (.unknownFile path)
  | some owner =>
    .ok <| set.modify owner.id fun package => touched (revert path (read path) package)

/-- The diagnostics of one package: every file it has or had since the last publication is
present, and the errors are added to their files. -/
def errorsOf (set : PackageSet) (id : PackageId) : Except PackageError FileDiagnostics :=
  match set.get? id with
  | none => .error (.unknownPackage id)
  | some package =>
    let present := (package.files.paths ++ package.removed.paths).foldl FileDiagnostics.touch .empty
    .ok (package.errors.foldl FileDiagnostics.push present)

end WorkspaceSync.Layout
