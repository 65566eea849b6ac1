/-
This file holds the state of a running shell script and the ways in which the
parts of a script change it.

What a script writes goes to sinks. The first two buffers are the output
channels of the whole script; each script within it whose output is put into a
word, or read by the next command, gets a buffer of its own.
-/
import WorkspaceSync.Text.Utf8
import WorkspaceSync.Tool.Result
import WorkspaceSync.Tool.Script.Arithmetic
import WorkspaceSync.Tool.Script.Expansion

namespace WorkspaceSync.Tool.Script

/-- Where a channel leads. -/
inductive Sink where
  | buffer (index : Nat)
  | file (path : Path)
  | nowhere
  deriving DecidableEq, Repr

/-- How a script goes on. -/
inductive Flow where
  | onward
  /-- The innermost loop ends. -/
  | broken
  /-- The innermost loop goes on with its next round. -/
  | continued
  /-- The script ends. -/
  | ended
  deriving DecidableEq, Repr

/-- The state of a running script. -/
structure State where
  disk : Disk
  directory : Path
  parameters : Parameters
  input : Bytes
  normal : Sink
  faults : Sink
  buffers : List Bytes
  elapsed : Nat
  flow : Flow

/-- A directory by the names that lead to it from the root, if it exists. -/
def settled (disk : Disk) (directory : Path) : Path :=
  match disk.locate true directory with
  | .ok place => ⟨"/" ++ "/".intercalate place⟩
  | .error _ => directory

namespace State

/-- The state at the start of a script. -/
def start (disk : Disk) (directory : Path) (input : Bytes) : State :=
  { disk, input
    directory := settled disk directory
    parameters :=
      { name := ['s', 'h'], arguments := []
        bindings := [("PWD".toList, (settled disk directory).text.toList)], status := 0 }
    normal := .buffer 0
    faults := .buffer 1
    buffers := [[], []]
    elapsed := 0
    flow := .onward }

/-! ### Status and flow -/

/-- The status of the last command. -/
def status (state : State) : Nat := state.parameters.status

/-- Sets the status. -/
def withStatus (state : State) (status : Nat) : State :=
  { state with parameters := { state.parameters with status } }

/-- The state of a script that never ends. -/
def stuck (state : State) : State :=
  { state with elapsed := state.elapsed + forever, flow := .ended }

/-- The state of a script that ends with a status. -/
def ending (state : State) (status : Nat) : State :=
  { state.withStatus status with flow := .ended }

/-- Sets a variable. -/
def assign (state : State) (name value : List Char) : State :=
  let others := state.parameters.bindings.filter fun entry => entry.1 ≠ name
  { state with parameters := { state.parameters with bindings := (name, value) :: others } }

/-! ### Writing -/

/-- Writes bytes to a sink. -/
def writeTo (state : State) (sink : Sink) (bytes : Bytes) : State :=
  match sink with
  | .nowhere => state
  | .buffer index => { state with buffers := state.buffers.modify index (· ++ bytes) }
  | .file path =>
    let present :=
      match state.disk.entry path with
      | .ok (.file content) => content.toList
      | _ => []
    { state with disk := state.disk.put path (.file ⟨(present ++ bytes).toArray⟩) }

/-- Writes bytes to the normal output. -/
def write (state : State) (bytes : Bytes) : State :=
  state.writeTo state.normal bytes

/-- Complains in the name of the script. -/
def complain (state : State) (text : String) : State :=
  state.writeTo state.faults
    (bytesOf (String.ofList state.parameters.name ++ ": 1: " ++ text ++ "\n"))

/-- Takes in what a tool did. -/
def apply (state : State) (result : Result) : State :=
  let written := (state.write result.output).writeTo state.faults result.errors
  { written.withStatus result.status with
    input := if result.consumed then [] else state.input
    elapsed := state.elapsed + result.elapsed }

/-! ### Scripts within scripts -/

/-- Runs a part of a script that changes neither variables nor the directory of the rest, and ends
at most itself. -/
def apart (state : State) (work : State → State) : State :=
  let after := work state
  { after with
    directory := state.directory
    parameters := { state.parameters with status := after.status }
    flow := if forever ≤ after.elapsed then .ended else .onward }

/-- Runs a part of a script apart and keeps its normal output to itself. -/
def capture (state : State) (work : State → State) : State × Bytes :=
  let index := state.buffers.length
  let after :=
    { state with normal := .buffer index, buffers := state.buffers ++ [[]] }.apart work
  ({ after with normal := state.normal, buffers := after.buffers.take index },
    (after.buffers[index]?).getD [])

end State

/-! ### Words -/

/-- Whatever runs the text of a script. -/
abbrev Executor := List Char → State → State

/-- The text of an output that is put into a word: without line ends at its end. -/
def substituted (output : Bytes) : List Char :=
  let text := Text.decodeLossy (output.filter (· ≠ 0))
  (text.reverse.dropWhile (· = '\n')).reverse

/-- A number in decimal digits. -/
def integerText : Int → List Char
  | .ofNat size => (Text.decimalText size).toList
  | .negSucc below => '-' :: (Text.decimalText (below + 1)).toList

/-- The pieces of a fragment. -/
def fragmentPieces (execute : Executor) (state : State) : Fragment → State × List Piece
  | .plain text => (state, text.map fun character => .mark ⟨character, false⟩)
  | .quoted text => (state, wholePieces text)
  | .parameter name inQuotes => (state, state.parameters.pieces name inQuotes)
  | .substitution script inQuotes =>
    let (after, output) := state.capture (execute script)
    (after, valuePieces inQuotes (substituted output))
  | .arithmetic text inQuotes =>
    match evaluate state.parameters.value text with
    | some value => (state, valuePieces inQuotes (integerText value))
    | none => ((state.complain "arithmetic expression: syntax error").ending 2, [])

/-- The pieces of a word. -/
def wordPieces (execute : Executor) (state : State) (word : Word) : State × List Piece :=
  word.foldl
    (fun (state, pieces) fragment =>
      let (after, more) := fragmentPieces execute state fragment
      (after, pieces ++ more))
    (state, [])

/-- The words that the words of a command become. -/
def expandWords (execute : Executor) (state : State) (words : List Word) : State × List String :=
  words.foldl
    (fun (state, expanded) word =>
      let (after, pieces) := wordPieces execute state word
      (after, expanded ++
        (wordsOfPieces none pieces).flatMap (pathsFor after.disk after.directory)))
    (state, [])

/-- The text of a word that is not cut. -/
def expandText (execute : Executor) (state : State) (word : Word) : State × List Char :=
  let (after, pieces) := wordPieces execute state word
  (after, textOfPieces pieces)

/-! ### Redirections -/

/-- The sink that a channel leads to. -/
def sinkOf (state : State) (channel : List Char) : Sink :=
  if channel = ['1'] then state.normal
  else if channel = ['2'] then state.faults
  else .nowhere

/-- The sink for a file that is written; none if the file cannot be made. -/
def fileSink? (state : State) (name : String) (isNew : Bool) : Option (State × Sink) :=
  let path := state.directory.join ⟨name⟩
  if name = "/dev/null" then some (state, .nowhere)
  else if name = "/dev/stdout" then some (state, state.normal)
  else if name = "/dev/stderr" then some (state, state.faults)
  else
    match state.disk.entry path with
    | .ok (.directory _) => none
    | .ok _ =>
      if isNew then some ({ state with disk := state.disk.put path (.file .empty) }, .file path)
      else some (state, .file path)
    | .error _ =>
      match (path.parent?).map state.disk.entry with
      | some (.ok (.directory _)) =>
        some ({ state with disk := state.disk.put path (.file .empty) }, .file path)
      | _ => none

/-- The bytes that a file gives when it is read; none if it cannot be read. -/
def fileInput? (state : State) (name : String) : Option Bytes :=
  if name = "/dev/null" then some []
  else if name = "/dev/stdin" then some state.input
  else (fileBytes state.disk state.directory name).toOption

/-- Leads a channel to a sink. -/
def State.lead (state : State) (channel : Nat) (sink : Sink) : State :=
  match channel with
  | 1 => { state with normal := sink }
  | 2 => { state with faults := sink }
  | _ => state

/-- Makes a redirection; none if a file cannot be opened. -/
def redirect? (execute : Executor) (state : State) (redirection : Redirection) : Option State :=
  let (after, target) := expandText execute state redirection.target
  let name := String.ofList target
  match redirection.kind with
  | .read => (fileInput? after name).map fun input => { after with input }
  | .write => (fileSink? after name true).map fun (opened, sink) =>
    opened.lead redirection.channel sink
  | .append => (fileSink? after name false).map fun (opened, sink) =>
    opened.lead redirection.channel sink
  | .duplicate => some (after.lead redirection.channel (sinkOf after target))

end WorkspaceSync.Tool.Script
