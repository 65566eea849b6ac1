/-
This file defines packages: the source files of one directory, with what is
known about them.
-/
import WorkspaceSync.FileDiagnostics

namespace WorkspaceSync

/-- The name a package is known by: its directory below the workspace root. -/
structure PackageId where
  text : String
  deriving DecidableEq, Repr, Inhabited

namespace PackageId

/-- Ids are ordered by the codes of their characters. -/
instance : LT PackageId := ⟨fun left right => left.text < right.text⟩

instance (left right : PackageId) : Decidable (left < right) :=
  inferInstanceAs (Decidable (left.text < right.text))

instance : LE PackageId := ⟨fun left right => ¬ right < left⟩

instance (left right : PackageId) : Decidable (left ≤ right) :=
  inferInstanceAs (Decidable (¬ right < left))

end PackageId

/-- Whether the published diagnostics of a package are current. -/
inductive Freshness where
  | clean
  | dirty
  deriving DecidableEq, Repr

/-- Where the tracked text of a file came from. -/
inductive Origin where
  | disk
  | editor
  deriving DecidableEq, Repr

/-- The tracked content of one file. -/
structure SourceFile where
  text : String
  origin : Origin
  /-- Why the file could not be read, if it could not. -/
  readError : Option String
  deriving DecidableEq, Repr

namespace SourceFile

/-- A file as it was read from the disk. -/
def ofDisk (text : String) : SourceFile := ⟨text, .disk, none⟩

/-- A file as the editor shows it. -/
def ofEditor (text : String) : SourceFile := ⟨text, .editor, none⟩

/-- A file that is there but cannot be read. -/
def unreadable (reason : String) : SourceFile := ⟨"", .disk, some reason⟩

end SourceFile

/-- The source files of one directory, with what is known about them. -/
structure Package where
  id : PackageId
  directory : Path
  /-- The declared name, if a file declares one. -/
  name : Option String
  files : PathMap SourceFile
  state : Freshness
  /-- The errors of the analysis, in the order of their files. -/
  errors : List Diagnostic
  /-- The files that left the package since its diagnostics were last published. -/
  removed : PathSet

namespace Package

/-- A package without files. -/
def new (id : PackageId) (directory : Path) : Package :=
  { id, directory, name := none, files := .empty, state := .clean, errors := [], removed := .empty }

/-- Whether the diagnostics of the package wait to be published. -/
def isDirty (package : Package) : Bool :=
  package.state = .dirty

/-- The package once its diagnostics are published: it is clean, and the files that left it are
forgotten. -/
def settled (package : Package) : Package :=
  { package with state := .clean, removed := .empty }

end Package

end WorkspaceSync
