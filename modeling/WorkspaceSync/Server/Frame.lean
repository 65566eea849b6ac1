/-
This file packs messages for the stream between the editor and the server.

A message is a JSON text behind a header, which tells its length in bytes and
ends with an empty line.
-/
import WorkspaceSync.Server.Wire
import WorkspaceSync.Text.Blank

namespace WorkspaceSync.Server

/-! ### Headers -/

/-- The name of the header field with the length, in lower case. -/
def lengthField : List Char := "content-length".toList

/-- The length that a line of a header gives, if it is the line for that. -/
def lengthIn? (line : String) : Option Nat :=
  let characters := Text.trim line.toList
  let name := characters.takeWhile (· ≠ ':')
  let digits := Text.trim (characters.drop (name.length + 1))
  if name.map Char.toLower = lengthField ∧ digits ≠ [] ∧ digits.all Text.isAsciiDigit then
    some (Text.decimalValue digits)
  else none

/-- Whether a line ends a header. -/
def endsHeader (line : String) : Bool :=
  (Text.trim line.toList).isEmpty

/-- A message with its header. -/
def framed (body : String) : String :=
  "Content-Length: " ++ Text.decimalText body.utf8ByteSize ++ "\r\n\r\n" ++ body

/-! ### Calls -/

/-- What an editor sends: a request, which has a number, or a notification, which has none. -/
structure Call where
  id : Option Value
  method : String
  parameters : Option Value

/-- Reads a call. -/
def Call.read? (body : String) : Option Call := do
  let value ← Json.read body
  let method ← (value.field? "method").bind Value.asText?
  some ⟨value.field? "id", method, value.field? "params"⟩

/-- The message that a call stands for. -/
def Call.message (call : Call) : Message :=
  if call.id.isSome then .ofRequest call.method call.parameters
  else .ofNotification call.method call.parameters

/-- Whether a call ends the conversation. -/
def Call.isExit (call : Call) : Bool :=
  call.id.isNone && call.method == "exit"

/-- Packs a value for the stream, with the version of the protocol. -/
def packed : Value → String
  | .record fields => framed (Json.write (.record (("jsonrpc", .text "2.0") :: fields)))
  | other => framed (Json.write other)

/-- What is sent for a step that a call led to: the notices, then the reply. -/
def Call.answers (call : Call) (reply : Option Reply) (notices : List Notice) : List String :=
  notices.map (fun notice => packed notice.value) ++
    (reply.map fun reply => packed (reply.value (call.id.getD .null))).toList

end WorkspaceSync.Server
