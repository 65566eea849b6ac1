/-
This file runs lint tools by the tools of this library.

A tool that is not known, or a directory that does not exist, makes the run
fail; a run that takes as long as its limit allows is stopped.
-/
import WorkspaceSync.Lint.Command
import WorkspaceSync.Tool.Shell

namespace WorkspaceSync.Tool

/-- The tool that a program is, if it is one. -/
def tool? (disk : Disk) (directory : Path) (program : String) :
    Option (List String → Bytes → Result) :=
  if bareName program = "sh" then some (Shell.shell disk directory)
  else byName? disk directory (bareName program)

/-- Whether the words of a run can be handed to a tool: none of them has a NUL. -/
def isCallable (invocation : Lint.Invocation) : Bool :=
  (invocation.program :: invocation.arguments).all fun word =>
    !word.toList.contains (Char.ofNat 0)

/-- Runs a tool on a disk. -/
def runner (disk : Disk) : Lint.Runner := fun invocation =>
  match disk.entry invocation.directory with
  | .ok (.directory _) =>
    match tool? disk invocation.directory invocation.program with
    | none => .failed
    | some tool =>
      let result := tool invocation.arguments (bytesOf invocation.input)
      if !isCallable invocation then .failed
      else if invocation.limit ≤ result.elapsed then .timedOut
      else .finished result.output result.errors
  | _ => .failed

end WorkspaceSync.Tool
