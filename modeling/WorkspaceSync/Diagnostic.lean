/-
This file defines the one record that the whole library is about: a remark on a
range of one file, with its severity and its producer.
-/
import WorkspaceSync.Path
import WorkspaceSync.Text.Digit

namespace WorkspaceSync

/-- How serious a remark is. -/
inductive Severity where
  | error
  | warning
  | info
  | hint
  deriving DecidableEq, Repr

/-- The word for a severity in a report. -/
def Severity.word : Severity → String
  | .error => "error"
  | .warning => "warning"
  | .info => "info"
  | .hint => "hint"

/-- A range of a file: zero-based lines, columns in UTF-16 units, the end exclusive. -/
structure Span where
  startLine : UInt32
  startColumn : UInt32
  endLine : UInt32
  endColumn : UInt32
  deriving DecidableEq, Repr

namespace Span

/-- The empty range at the very start of a file. -/
def start : Span := ⟨0, 0, 0, 0⟩

/-- The range of `length` columns from `column` on within one line. -/
def onLine (line column length : UInt32) : Span :=
  ⟨line, column, line, column + length⟩

end Span

/-- One remark on one file. -/
structure Diagnostic where
  file : Path
  message : String
  severity : Severity
  span : Span
  /-- Who made the remark, if that is known. -/
  source : Option String
  deriving DecidableEq, Repr

namespace Diagnostic

/-- The report line of a remark: `file:line:column: severity: message`, counted from one. -/
def report (diagnostic : Diagnostic) : String :=
  diagnostic.file.text ++ ":" ++ Text.decimalText (diagnostic.span.startLine + 1).toNat ++ ":" ++
    Text.decimalText (diagnostic.span.startColumn + 1).toNat ++ ": " ++
    diagnostic.severity.word ++ ": " ++ diagnostic.message

end Diagnostic

end WorkspaceSync
