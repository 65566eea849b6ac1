/-
This file says which files of a workspace are sources and to which package each
of them belongs.

Every directory below the root is the home of one package, whose id is the path
of the directory below the root. Hidden directories and those on the skip list
are left out with all that is in them; the root's own path is not judged.
-/
import WorkspaceSync.PackageError

namespace WorkspaceSync

/-- The rules of one workspace. -/
structure Layout where
  root : Path
  /-- The extension of source files, without a dot. -/
  extension : String
  /-- The names of directories that are left out. -/
  skipList : List String
  deriving DecidableEq, Repr

namespace Layout

/-- The extension of source files unless another is asked for. -/
def defaultExtension : String := "gunk"

/-- The directories that are left out unless others are asked for. -/
def defaultSkipList : List String := ["vendor", "node_modules", "target"]

/-- An extension without the dots it starts with. -/
def bareExtension (extension : String) : String :=
  String.ofList (extension.toList.dropWhile (· = '.'))

/-- The rules of a workspace that asks for nothing. -/
def ofRoot (root : Path) : Layout :=
  ⟨root, defaultExtension, defaultSkipList⟩

/-- The same rules for another extension. -/
def withExtension (layout : Layout) (extension : String) : Layout :=
  { layout with extension := bareExtension extension }

/-- The same rules with another skip list. -/
def withSkipList (layout : Layout) (skipList : List String) : Layout :=
  { layout with skipList }

/-- Whether a path has the extension of source files. -/
def isSource (layout : Layout) (path : Path) : Bool :=
  path.extension? == some layout.extension.toList

/-- Whether a directory of this name is left out. -/
def skips (layout : Layout) (name : List Char) : Bool :=
  name.head? == some '.' || layout.skipList.any fun skipped => skipped.toList == name

/-- The names that lead from the root to a directory. -/
def namesBelow? (layout : Layout) (directory : Path) : Option (List (List Char)) := do
  let components ← directory.below? layout.root
  (components.filter (· ≠ .current)).mapM fun component =>
    match component with
    | .entry name => some name
    | _ => none

/-- The id for a row of names; the root itself is called `.`. -/
def idOfNames : List (List Char) → PackageId
  | [] => ⟨"."⟩
  | names => ⟨String.ofList (List.intercalate ['/'] names)⟩

/-- The id of the package of a directory. -/
def packageId (layout : Layout) (directory : Path) : Except PackageError PackageId :=
  match layout.namesBelow? directory with
  | some names => .ok (idOfNames names)
  | none => .error (.outsideWorkspace directory)

/-- Whether a directory with this id is left out: one of the names that the id is made of is. The
root has no names to judge. -/
def leavesOut (layout : Layout) (id : PackageId) : Bool :=
  id.text != "." && (List.splitOn '/' id.text.toList).any layout.skips

/-- The package that a source file belongs to and the directory it lies in. -/
def locate (layout : Layout) (path : Path) : Except PackageError (PackageId × Path) :=
  if !layout.isSource path then .error (.unsupportedFile path layout.extension)
  else
    match path.parent? with
    | none => .error (.outsideWorkspace path)
    | some directory =>
      match layout.packageId directory with
      | .error error => .error error
      | .ok id =>
        if layout.leavesOut id then .error (.skipped path)
        else .ok (id, directory)

end Layout

end WorkspaceSync
