/-
This file defines what an editor and the server say to each other.
-/
import WorkspaceSync.Diagnostic
import WorkspaceSync.Value

namespace WorkspaceSync.Server

/-! ### From the editor -/

/-- A change of a document. -/
structure Change where
  /-- Whether the change is about a range of the document only. -/
  isRanged : Bool
  text : String
  deriving DecidableEq, Repr

/-- The new text of a document: the last change that is about the whole of it. -/
def fullText? (changes : List Change) : Option String :=
  ((changes.filter fun change => !change.isRanged).getLast?).map Change.text

/-- What an editor says. -/
inductive Message where
  /-- Asks to begin: the folders of the workspace, its root, and options. -/
  | startRequest (folders : List String) (root : Option String) (options : Option Value)
  /-- Asks to begin in a way that cannot be understood. -/
  | malformedStart (reason : String)
  /-- Says that the answer to the request to begin came. -/
  | startConfirmed
  /-- A document is shown. -/
  | opened (uri : String) (text : String)
  /-- A document changed. -/
  | changed (uri : String) (changes : List Change)
  /-- A document is shown no longer. -/
  | closed (uri : String)
  /-- Asks to end. -/
  | stopRequest
  /-- Asks to end in a way that cannot be understood. -/
  | malformedStop (reason : String)
  /-- Asks for something that the server does not offer. -/
  | unknownRequest
  /-- Says something that the server does not listen to. -/
  | other

/-! ### To the editor -/

/-- Why a request is refused. -/
inductive Refusal where
  /-- The session has not begun. -/
  | notInitialized
  /-- The session cannot begin again or has ended. -/
  | invalidRequest
  /-- What was sent is no request at all. -/
  | parseError
  /-- The server does not offer what is asked for. -/
  | methodNotFound
  /-- What was sent with the request makes no sense. -/
  | invalidParameters (reason : String)
  deriving DecidableEq, Repr

/-- The number of a refusal. -/
def Refusal.code : Refusal → Int
  | .notInitialized => -32002
  | .invalidRequest => -32600
  | .parseError => -32700
  | .methodNotFound => -32601
  | .invalidParameters _ => -32602

/-- The text of a refusal. -/
def Refusal.message : Refusal → String
  | .notInitialized => "Server not initialized"
  | .invalidRequest => "Invalid request"
  | .parseError => "Parse error"
  | .methodNotFound => "Method not found"
  | .invalidParameters reason => reason

/-- What the server answers to a request. -/
inductive Reply where
  /-- The session begins. -/
  | ready
  /-- The session ends. -/
  | done
  | refused (refusal : Refusal)
  deriving DecidableEq, Repr

/-- The name that the server goes by. -/
def serverName : String := "gunkls"

/-- The version of the server. -/
def serverVersion : String := "0.1.0"

/-- How urgent a message to the user is. -/
inductive Level where
  | error
  | warning
  | info
  deriving DecidableEq, Repr

/-- The number of a level. -/
def Level.code : Level → Nat
  | .error => 1
  | .warning => 2
  | .info => 3

/-- A remark as the editor shows it. -/
structure Marker where
  range : Span
  severity : Nat
  source : String
  message : String
  deriving DecidableEq, Repr

/-- The number of a severity. -/
def severityCode : Severity → Nat
  | .error => 1
  | .warning => 2
  | .info => 3
  | .hint => 4

/-- The marker of a remark; one of unknown origin is the server's. -/
def Marker.ofDiagnostic (diagnostic : Diagnostic) : Marker :=
  { range := diagnostic.span
    severity := severityCode diagnostic.severity
    source := diagnostic.source.getD serverName
    message := diagnostic.message }

/-- What the server says without being asked. -/
inductive Notice where
  /-- The markers of a document, in place of those it had. -/
  | publish (uri : String) (markers : List Marker)
  /-- A message for the user. -/
  | showMessage (level : Level) (text : String)
  /-- A message for the log. -/
  | logMessage (level : Level) (text : String)
  deriving DecidableEq, Repr

end WorkspaceSync.Server
