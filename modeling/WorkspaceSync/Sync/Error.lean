/-
This file lists the ways in which keeping a workspace in step with an editor
can fail, and says how each of them is worded.
-/
import WorkspaceSync.PackageError

namespace WorkspaceSync

/-- What happened to a document. -/
inductive DocumentEvent where
  | opening
  | updating
  | closing
  deriving DecidableEq, Repr

/-- The verb for an event in a message. -/
def DocumentEvent.verb : DocumentEvent → String
  | .opening => "open"
  | .updating => "update"
  | .closing => "close"

/-- The class of a failure. Only a workspace that cannot be loaded ends a session. -/
inductive ErrorCategory where
  | workspaceLoad
  | registration
  | diagnosticsFetch
  deriving DecidableEq, Repr

/-- Why keeping a workspace in step failed. -/
inductive SyncError where
  /-- The workspace root is no local directory path. -/
  | invalidRoot (uri : String) (reason : String)
  /-- The packages of the workspace could not be loaded. -/
  | workspaceLoad (root : Path) (cause : PackageError)
  /-- An event on a document was refused. -/
  | registration (event : DocumentEvent) (path : Path) (cause : PackageError)
  /-- A change came without the whole text of the document. -/
  | incompleteUpdate (path : Path)
  /-- The diagnostics of a package could not be fetched. -/
  | diagnosticsFetch (package : PackageId) (cause : PackageError)
  deriving DecidableEq, Repr

namespace SyncError

/-- The class of an error. -/
def category : SyncError → ErrorCategory
  | .invalidRoot .. | .workspaceLoad .. => .workspaceLoad
  | .registration .. | .incompleteUpdate .. => .registration
  | .diagnosticsFetch .. => .diagnosticsFetch

/-- The failed request about packages behind an error, if there is one. -/
def cause? : SyncError → Option PackageError
  | .invalidRoot .. | .incompleteUpdate .. => none
  | .workspaceLoad _ cause | .registration _ _ cause | .diagnosticsFetch _ cause => some cause

/-- The text of an error. -/
def message : SyncError → String
  | .invalidRoot uri reason =>
    "could not load workspace: invalid root `" ++ uri ++ "`: " ++ reason
  | .workspaceLoad root cause => "could not load workspace " ++ root.text ++ ": " ++ cause.message
  | .registration event path cause =>
    "could not " ++ event.verb ++ " " ++ path.text ++ ": " ++ cause.message
  | .incompleteUpdate path =>
    "could not update " ++ path.text ++ ": the change carried no full document text"
  | .diagnosticsFetch package cause =>
    "could not load diagnostics for package " ++ package.text ++ ": " ++ cause.message

end SyncError

end WorkspaceSync
