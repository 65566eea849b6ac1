/-
This file lists the ways in which a request about packages can fail, and says
how each of them is worded.
-/
import WorkspaceSync.Disk
import WorkspaceSync.Package

namespace WorkspaceSync

/-- Why a request about packages failed. -/
inductive PackageError where
  /-- The workspace root is no directory. -/
  | notADirectory (path : Path)
  /-- The disk refused to answer. -/
  | disk (path : Path) (error : DiskError)
  /-- The path does not lie below the workspace root. -/
  | outsideWorkspace (path : Path)
  /-- The file has not the extension of source files. -/
  | unsupportedFile (path : Path) (extension : String)
  /-- The file lies in a directory that is left out. -/
  | skipped (path : Path)
  /-- No package has the file. -/
  | unknownFile (path : Path)
  /-- There is no such package. -/
  | unknownPackage (id : PackageId)
  deriving DecidableEq, Repr

/-- The text of an error. -/
def PackageError.message : PackageError → String
  | .notADirectory path => path.text ++ " is not a directory"
  | .disk path error => "i/o error on " ++ path.text ++ ": " ++ error.message
  | .outsideWorkspace path => path.text ++ " is outside the workspace"
  | .unsupportedFile path extension => path.text ++ " is not a ." ++ extension ++ " file"
  | .skipped path => path.text ++ " is inside a skipped directory"
  | .unknownFile path => path.text ++ " is not tracked by any package"
  | .unknownPackage id => "unknown package " ++ id.text

end WorkspaceSync
