/-
This file is the command line: it reads the settings, then talks to an editor
over standard input and output.

The server is shown what it runs on, the disk and the lint tools, anew for each
message. How to look at them is for the caller to say, and so is the library
that reads and writes addresses.
-/
import WorkspaceSync.Arguments.Usage
import WorkspaceSync.Server
import WorkspaceSync.Server.Frame
import WorkspaceSync.Text.Utf8

namespace WorkspaceSync

/-! ### The conversation -/

/-- Reads the header of a message: its length, or none if the input ended. -/
partial def readHeader (input : IO.FS.Stream) (length : Nat) : IO (Option Nat) := do
  let line ← input.getLine
  if line.isEmpty then return none
  if Server.endsHeader line then return some length
  readHeader input ((Server.lengthIn? line).getD length)

/-- Reads so many bytes, fewer if the input ends. -/
partial def readBytes (input : IO.FS.Stream) (count : Nat) (bytes : ByteArray) : IO ByteArray := do
  if count ≤ bytes.size then return bytes
  let more ← input.read (USize.ofNat (count - bytes.size))
  if more.isEmpty then return bytes
  readBytes input count (bytes ++ more)

/-- Sends messages. -/
def send (output : IO.FS.Stream) (messages : List String) : IO Unit := do
  for message in messages do
    output.putStr message
  output.flush

/-- Talks to the editor until it leaves. -/
partial def Server.converse {addressing : Addressing} (server : Server addressing)
    (look : IO Server.Host) (input output : IO.FS.Stream) : IO Unit := do
  let some length ← readHeader input 0 | return
  let body := Text.decodeLossy (← readBytes input length .empty).toList
  match Server.Call.read? (String.ofList body) with
  | none =>
    send output [Server.packed ((Server.Reply.refused .parseError).value .null)]
    server.converse look input output
  | some call =>
    if call.isExit then return
    let result := server.step (← look) call.message
    send output (call.answers result.reply result.notices)
    result.server.converse look input output

/-- The settings that the server starts with. -/
def Config.ofEnvironment (arguments : Arguments) (disk : Disk) :
    IO (Except SettingsError Config) := do
  let path := Config.userFile (← IO.getEnv "XDG_CONFIG_HOME") (← IO.getEnv "HOME") "/"
  return Config.ofArguments arguments disk (some path)

/-- Runs the server on the words of the command line and gives the exit code. -/
def run (addressing : Addressing) (look : IO Server.Host) (words : List String) :
    IO UInt32 := do
  match Arguments.read words with
  | .error error =>
    if error.isAnswer then
      IO.println error.message
      return 0
    IO.eprintln ("error: " ++ error.message)
    return 2
  | .ok arguments =>
    match ← Config.ofEnvironment arguments (← look).disk with
    | .error error =>
      IO.eprintln ("Error: " ++ error.message)
      return 1
    | .ok config =>
      (Server.start addressing config).converse look (← IO.getStdin) (← IO.getStdout)
      return 0

end WorkspaceSync
