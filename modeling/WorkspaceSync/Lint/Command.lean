/-
This file runs a lint tool over the files of a package.

The tool is run once for each readable file, in path order, with the file's
tracked text as its input, so that unsaved changes are what is checked. Its
findings on both output channels count, whatever its exit status. The first run
that cannot be made, or takes too long, ends the round; what was found before
stays.
-/
import WorkspaceSync.Lint.Finding
import WorkspaceSync.PackageSet
import WorkspaceSync.Text.Replace
import WorkspaceSync.Text.Utf8

namespace WorkspaceSync

/-- A source of advisory findings on a package, given the set that it belongs to. -/
abbrev Linter := PackageSet → Package → FileDiagnostics

namespace Lint

/-- The linter that never finds anything. -/
def silent : Linter := fun _ _ => .empty

/-- A lint tool with its arguments. -/
structure Command where
  program : String
  arguments : List String
  /-- How many milliseconds one run may take. -/
  limit : Nat
  deriving DecidableEq, Repr

/-- One run of a tool. -/
structure Invocation where
  program : String
  arguments : List String
  /-- The directory that the tool is run in. -/
  directory : Path
  input : String
  limit : Nat
  deriving DecidableEq, Repr

/-- What comes of one run of a tool. -/
inductive Run where
  /-- The tool ended and wrote this to its two output channels. -/
  | finished (output errors : List UInt8)
  /-- The tool could not be started, or its channels broke. -/
  | failed
  /-- The tool was stopped because it took too long. -/
  | timedOut
  deriving DecidableEq, Repr

/-- Whatever runs tools. -/
abbrev Runner := Invocation → Run

/-- The findings in what a tool wrote to one of its channels. -/
def findingsIn (root file : Path) (bytes : List UInt8) : List Diagnostic :=
  findings root file (String.ofList (Text.decodeLossy bytes))

/-- What a round of runs over the files of a package did. -/
structure Round where
  /-- The runs that were made, in order: the file and the text that it was run on. -/
  runs : List (Path × String)
  findings : List Diagnostic
  deriving DecidableEq, Repr

/-- The round of a tool over a row of files. -/
def Round.ofFiles (root : Path) (tool : Path → String → Run) : List (Path × SourceFile) → Round
  | [] => ⟨[], []⟩
  | (path, file) :: later =>
    if file.readError.isSome then ofFiles root tool later
    else
      match tool path file.text with
      | .finished output errors =>
        let rest := ofFiles root tool later
        ⟨(path, file.text) :: rest.runs,
          findingsIn root path output ++ findingsIn root path errors ++ rest.findings⟩
      | .failed => ⟨[(path, file.text)], []⟩
      | .timedOut => ⟨[(path, file.text)], []⟩

/-- The linter that runs a tool over the files of a package. -/
def ofTool (root : Path) (tool : Path → String → Run) : Linter := fun _ package =>
  FileDiagnostics.ofList (Round.ofFiles root tool package.files.entries).findings

namespace Command

/-- The mark in an argument that the path of the linted file is put in for. -/
def filePlaceholder : List Char := ['\x7b', 'f', 'i', 'l', 'e', '\x7d']

/-- The time that one run may take unless another is asked for. -/
def defaultLimit : Nat := 10000

/-- The tool for a row of words: the program and its arguments. -/
def ofWords? : List String → Option Command
  | [] => none
  | program :: arguments => some ⟨program, arguments, defaultLimit⟩

/-- The run of a tool on a file. -/
def invocation (command : Command) (root file : Path) (text : String) : Invocation :=
  { program := command.program
    arguments := command.arguments.map fun argument =>
      String.ofList (Text.replaceAll filePlaceholder file.text.toList argument.toList)
    directory := root
    input := text
    limit := command.limit }

/-- The linter that runs a command. -/
def linter (command : Command) (runner : Runner) (root : Path) : Linter :=
  ofTool root fun path text => runner (command.invocation root path text)

end Command

end Lint

end WorkspaceSync
