/-
This file collects diagnostics by file.

The files stand in path order. A file may be present without any diagnostic, so
that publishing the collection clears it. Within a file, diagnostics keep the
order in which they were delivered.
-/
import WorkspaceSync.Diagnostic
import WorkspaceSync.PathMap

namespace WorkspaceSync

/-- Diagnostics by file. -/
abbrev FileDiagnostics := PathMap (List Diagnostic)

namespace FileDiagnostics

/-- Adds diagnostics to a file after those it has, and makes the file present if it was not. -/
def extend (collection : FileDiagnostics) (file : Path) (delivered : List Diagnostic) :
    FileDiagnostics :=
  collection.alter file fun present => present.getD [] ++ delivered

/-- Makes a file present. -/
def touch (collection : FileDiagnostics) (file : Path) : FileDiagnostics :=
  extend collection file []

/-- Adds one diagnostic to its file. -/
def push (collection : FileDiagnostics) (diagnostic : Diagnostic) : FileDiagnostics :=
  extend collection diagnostic.file [diagnostic]

/-- Adds all of another collection, file by file, after what is present. -/
def append (collection other : FileDiagnostics) : FileDiagnostics :=
  other.entries.foldl (fun result entry => extend result entry.1 entry.2) collection

/-- The collection of a list of diagnostics. -/
def ofList (diagnostics : List Diagnostic) : FileDiagnostics :=
  diagnostics.foldl push .empty

/-- The number of diagnostics of all files together. -/
def count (collection : FileDiagnostics) : Nat :=
  collection.entries.foldr (fun entry total => entry.2.length + total) 0

end FileDiagnostics

end WorkspaceSync
