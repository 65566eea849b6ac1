/-
This file loads the packages of a workspace from the disk.

The tree below the root is walked without following links. Every directory that
is not left out and holds source files becomes a package with those files; a
link with the name of a source file is a file, read through the link.
-/
import WorkspaceSync.Analysis
import WorkspaceSync.Layout
import WorkspaceSync.PackageSet

namespace WorkspaceSync

/-- The tracked content of a file that is listed in its directory. -/
def SourceFile.ofReading : Reading → SourceFile
  | .text text => .ofDisk text
  | .absent => .unreadable DiskError.notFound.message
  | .failed reason => .unreadable reason

namespace Layout

/-- The source files among the entries of a directory. -/
def filesIn (layout : Layout) (read : Path → Reading) (directory : Path)
    (entries : List (String × Node)) : PathMap SourceFile :=
  entries.foldl
    (fun files (name, node) =>
      let path := directory.join ⟨name⟩
      if !node.isDirectory && layout.isSource path then
        files.insert path (.ofReading (read path))
      else files)
    .empty

/-- The package of a directory itself, if it has source files. -/
def packageIn (layout : Layout) (read : Path → Reading) (directory : Path)
    (entries : List (String × Node)) : Except PackageError (List Package) :=
  let files := layout.filesIn read directory entries
  if files.isEmpty then .ok []
  else do
    let id ← layout.packageId directory
    .ok [{ Package.new id directory with files }.analyzed]

mutual

/-- The packages of a directory and of all that is below it. -/
def packagesUnder (layout : Layout) (read : Path → Reading) (directory : Path) :
    Node → Except PackageError (List Package)
  | .directory entries => do
    let own ← layout.packageIn read directory entries
    let others ← packagesBelow layout read directory entries
    .ok (own ++ others)
  | _ => .ok []

/-- The packages of the directories among the entries. -/
def packagesBelow (layout : Layout) (read : Path → Reading) (directory : Path) :
    List (String × Node) → Except PackageError (List Package)
  | [] => .ok []
  | (name, node) :: rest => do
    let first ←
      if layout.skips name.toList then .ok []
      else packagesUnder layout read (directory.join ⟨name⟩) node
    let others ← packagesBelow layout read directory rest
    .ok (first ++ others)

end

/-- Loads every package below the root. -/
def load (layout : Layout) (disk : Disk) : Except PackageError PackageSet :=
  match disk.entry layout.root with
  | .error error => .error (.disk layout.root error)
  | .ok (.directory entries) => do
    let packages ← packagesUnder layout disk.read layout.root (.directory entries)
    .ok (.ofList packages)
  | .ok _ => .error (.notADirectory layout.root)

end Layout

end WorkspaceSync
