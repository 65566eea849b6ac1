/-
This file reads what an editor sends from values, and writes what the server
sends as values.

A request that cannot be understood is answered with the reason; anything else
that cannot be understood is passed over. The fields of a record are judged in
the order of their names, and only then those that are missing.
-/
import WorkspaceSync.Json
import WorkspaceSync.Server.Message
import WorkspaceSync.Text.Shown

namespace WorkspaceSync.Server

/-! ### Values that are not what they should be -/

/-- A value as a reason names it. -/
def described : Value → String
  | .null => "null"
  | .bool true => "boolean `true`"
  | .bool false => "boolean `false`"
  | .number written =>
    if (Value.asInteger? (.number written)).isSome then "integer `" ++ written ++ "`"
    else "floating point `" ++ written ++ "`"
  | .moment written => "string " ++ Text.shown written
  | .text content => "string " ++ Text.shown content
  | .list _ => "sequence"
  | .record _ => "map"

/-- The reason that a value is of the wrong kind. -/
def wrongKind (value : Value) (wanted : String) : String :=
  "invalid type: " ++ described value ++ ", expected " ++ wanted

/-- The reason that a field is missing. -/
def missingField (name : String) : String :=
  "missing field `" ++ name ++ "`"

/-- A text. -/
def textOf (wanted : String) : Value → Except String String
  | .text content => .ok content
  | other => .error (wrongKind other wanted)

/-- A value that may be null. -/
def nullable {Kind : Type} (read : Value → Except String Kind) :
    Value → Except String (Option Kind)
  | .null => .ok none
  | other => (read other).map some

/-- A field that may be missing. -/
def optional {Kind : Type} (value : Value) (name : String)
    (read : Value → Except String Kind) : Except String (Option Kind) :=
  match value.field? name with
  | none => .ok none
  | some item => (read item).map some

/-- A field that may be missing or null. -/
def optionalOrNull {Kind : Type} (value : Value) (name : String)
    (read : Value → Except String Kind) : Except String (Option Kind) :=
  (optional value name (nullable read)).map Option.join

/-- A field that has to be there. -/
def required {Kind : Type} (name : String) : Option Kind → Except String Kind
  | some item => .ok item
  | none => .error (missingField name)

/-- A record. -/
def recordOf (wanted : String) : Value → Except String Value
  | .record fields => .ok (.record fields)
  | other => .error (wrongKind other wanted)

/-! ### Requests -/

/-- What the text of an address is called. -/
def addressKind : String := "a string representing an URL"

/-- The address of a folder of the workspace. -/
def folderOf (value : Value) : Except String String := do
  let folder ← recordOf "struct WorkspaceFolder" value
  let name ← optional folder "name" (textOf "a string")
  let uri ← optional folder "uri" (textOf addressKind)
  let address ← required "uri" uri
  let _ ← required "name" name
  return address

/-- The folders of the workspace. -/
def foldersOf : Value → Except String (List String)
  | .list items => items.mapM folderOf
  | other => .error (wrongKind other "a sequence")

/-- The request to begin. -/
def startOf (parameters : Value) : Except String Message := do
  let record ← recordOf "struct InitializeParams" parameters
  let capabilities ← optional record "capabilities" (recordOf "struct ClientCapabilities")
  let options ← optionalOrNull record "initializationOptions" .ok
  let root ← optionalOrNull record "rootUri" (textOf addressKind)
  let folders ← optionalOrNull record "workspaceFolders" foldersOf
  let _ ← required "capabilities" capabilities
  return .startRequest (folders.getD []) root options

/-! ### Documents -/

/-- Whether a field is an integer between two bounds. -/
def hasInteger (value : Value) (name : String) (least greatest : Int) : Bool :=
  ((value.field? name).bind Value.asInteger?).any fun number =>
    least ≤ number && number ≤ greatest

/-- Whether a document has a version, which is a signed word. -/
def hasVersion (document : Value) : Bool :=
  hasInteger document "version" (-2147483648) 2147483647

/-- Whether a value is a place in a document. -/
def isPosition (value : Value) : Bool :=
  hasInteger value "line" 0 4294967295 && hasInteger value "character" 0 4294967295

/-- Whether a value is a range of a document. -/
def isRange (value : Value) : Bool :=
  (value.field? "start").any isPosition && (value.field? "end").any isPosition

/-- Whether a field is missing or null or passes a test. -/
def isOptional (value : Value) (name : String) (test : Value → Bool) : Bool :=
  match value.field? name with
  | none => true
  | some .null => true
  | some item => test item

/-- A change of a document. -/
def changeOf? (value : Value) : Option Change :=
  if isOptional value "range" isRange &&
      isOptional value "rangeLength" (fun length =>
        (Value.asInteger? length).any fun number => 0 ≤ number && number ≤ 4294967295) then do
    let text ← (value.field? "text").bind Value.asText?
    let isRanged :=
      match value.field? "range" with
      | none => false
      | some .null => false
      | some _ => true
    some ⟨isRanged, text⟩
  else none

/-- A row of changes of a document. -/
def changesOf? : Value → Option (List Change)
  | .list items => items.mapM changeOf?
  | _ => none

/-- The address of a document. -/
def uriOf? (document : Value) : Option String :=
  (document.field? "uri").bind Value.asText?

/-- A document that is shown. -/
def openedOf? (parameters : Value) : Option Message := do
  let document ← parameters.field? "textDocument"
  let uri ← uriOf? document
  let _ ← (document.field? "languageId").bind Value.asText?
  let text ← (document.field? "text").bind Value.asText?
  if hasVersion document then some (.opened uri text) else none

/-- A document that changed. -/
def changedOf? (parameters : Value) : Option Message := do
  let document ← parameters.field? "textDocument"
  let uri ← uriOf? document
  let changes ← (parameters.field? "contentChanges").bind changesOf?
  if hasVersion document then some (.changed uri changes) else none

/-- A document that is shown no longer. -/
def closedOf? (parameters : Value) : Option Message := do
  let document ← parameters.field? "textDocument"
  let uri ← uriOf? document
  some (.closed uri)

/-- The confirmation, which comes with nothing to read. -/
def confirmedOf? : Value → Option Message
  | .record _ => some .startConfirmed
  | .list [] => some .startConfirmed
  | _ => none

/-! ### Calls -/

/-- The message of a request. -/
def Message.ofRequest (method : String) (parameters : Option Value) : Message :=
  match method, parameters with
  | "initialize", none => .malformedStart "Missing params field"
  | "initialize", some value =>
    match startOf value with
    | .ok message => message
    | .error reason => .malformedStart reason
  | "shutdown", none => .stopRequest
  | "shutdown", some value => .malformedStop ("Unexpected params: " ++ Json.write value)
  | _, _ => .unknownRequest

/-- The message of something that is said without waiting for an answer. -/
def Message.ofNotification (method : String) (parameters : Option Value) : Message :=
  let read? : Value → Option Message :=
    match method with
    | "initialized" => confirmedOf?
    | "textDocument/didOpen" => openedOf?
    | "textDocument/didChange" => changedOf?
    | "textDocument/didClose" => closedOf?
    | _ => fun _ => none
  (parameters.bind read?).getD .other

/-! ### What the server sends -/

/-- A number of a range as a value. -/
def wordValue (word : UInt32) : Value :=
  .ofNat word.toNat

/-- A place in a document as a value. -/
def positionValue (line column : UInt32) : Value :=
  .record [("line", wordValue line), ("character", wordValue column)]

/-- A marker as a value. -/
def Marker.value (marker : Marker) : Value :=
  .record [
    ("range", .record [
      ("start", positionValue marker.range.startLine marker.range.startColumn),
      ("end", positionValue marker.range.endLine marker.range.endColumn)]),
    ("severity", .ofNat marker.severity),
    ("source", .text marker.source),
    ("message", .text marker.message)]

/-- What a notice is about. -/
def Notice.method : Notice → String
  | .publish .. => "textDocument/publishDiagnostics"
  | .showMessage .. => "window/showMessage"
  | .logMessage .. => "window/logMessage"

/-- What a notice says. -/
def Notice.parameters : Notice → Value
  | .publish uri markers =>
    .record [("uri", .text uri), ("diagnostics", .list (markers.map Marker.value))]
  | .showMessage level text => .record [("type", .ofNat level.code), ("message", .text text)]
  | .logMessage level text => .record [("type", .ofNat level.code), ("message", .text text)]

/-- A notice as a value. -/
def Notice.value (notice : Notice) : Value :=
  .record [("method", .text notice.method), ("params", notice.parameters)]

/-- What the server can do, and who it is: documents are sent as a whole. -/
def greeting : Value :=
  .record [
    ("capabilities", .record [("textDocumentSync", .ofNat 1)]),
    ("serverInfo", .record [("name", .text serverName), ("version", .text serverVersion)])]

/-- A reply to the request with a number, as a value. -/
def Reply.value (id : Value) : Reply → Value
  | .ready => .record [("id", id), ("result", greeting)]
  | .done => .record [("id", id), ("result", .null)]
  | .refused refusal =>
    .record [("id", id), ("error",
      .record [("code", .ofInt refusal.code), ("message", .text refusal.message)])]

end WorkspaceSync.Server
