/-
This file runs shell scripts over the text tools.

A script is run by its tree. Only loops and scripts within scripts can go on
for ever, so a number bounds how deep and how often commands are run; a script
that reaches the bound counts as one that never ends.
-/
import WorkspaceSync.Tool.Editor
import WorkspaceSync.Tool.Filter
import WorkspaceSync.Tool.Script.Builtin

namespace WorkspaceSync.Tool

/-- A program's name without the directories where tools are kept. -/
def bareName (program : String) : String :=
  let characters := program.toList
  let stripped := ["/usr/bin/", "/bin/"].findSome? fun directory =>
    List.isPrefixOf? directory.toList characters
  String.ofList (stripped.getD characters)

/-- The tool of a name. -/
def byName? (disk : Disk) (directory : Path) (name : String) :
    Option (List String → Bytes → Result) :=
  match name with
  | "cat" => some (cat disk directory)
  | "echo" => some fun arguments _ => echo arguments
  | "printf" => some fun arguments _ => printf arguments
  | "tr" => some tr
  | "wc" => some (wc disk directory)
  | "grep" => some (grep disk directory)
  | "sed" => some (sed disk directory)
  | "sleep" => some fun arguments _ => sleep arguments
  | "true" => some fun _ _ => .ended 0
  | "false" => some fun _ _ => .ended 1
  | _ => none

namespace Shell

open Script

/-! ### Simple commands -/

/-- Runs a tool by its name. -/
def runTool (state : State) (name : String) (arguments : List String) : State :=
  match byName? state.disk state.directory (bareName name) with
  | some tool => state.apply (tool arguments state.input)
  | none => (state.complain (name ++ ": not found")).withStatus 127

/-- The script that a shell is called with, with its name and arguments; none if there is none. -/
def scriptOf? (state : State) (arguments : List String) :
    Option (List Char × String × List String) :=
  let words := arguments.dropWhile isOption
  let isInline := (arguments.takeWhile isOption).any fun option => option.toList.contains 'c'
  match isInline, words with
  | true, script :: rest => some (script.toList, rest.head?.getD "sh", rest.drop 1)
  | true, [] => none
  | false, file :: rest =>
    match fileBytes state.disk state.directory file with
    | .ok content => some (Text.decodeLossy content, file, rest)
    | .error _ => none
  | false, [] => some (Text.decodeLossy state.input, "sh", [])

/-- Runs a shell of its own. A script that is read from the input leaves nothing of it. -/
def runShell (execute : Executor) (state : State) (arguments : List String) : State :=
  match scriptOf? state arguments with
  | none => state.withStatus 2
  | some (script, name, values) =>
    let input := if (arguments.dropWhile isOption).isEmpty then [] else state.input
    { state with input }.apart fun inner =>
      execute script { inner with
        parameters := { inner.parameters with
          name := name.toList, arguments := values.map String.toList, status := 0 } }

/-- Runs a command by its words: one of the shell, a shell, or a tool. -/
def runWords (execute : Executor) (state : State) : List String → State
  | [] => state
  | "exec" :: [] => state.withStatus 0
  | "exec" :: name :: arguments =>
    let after :=
      if bareName name = "sh" then runShell execute state arguments
      else runTool state name arguments
    { after with flow := .ended }
  | "command" :: name :: arguments => runTool state name arguments
  | name :: arguments =>
    match builtin? execute state name arguments with
    | some after => after
    | none =>
      if bareName name = "sh" then runShell execute state arguments
      else runTool state name arguments

/-- Makes assignments one after the other. -/
def assignAll (execute : Executor) (state : State) (assignments : List (List Char × Word)) :
    State :=
  assignments.foldl
    (fun state (name, word) =>
      let (after, value) := expandText execute state word
      after.assign name value)
    state

/-- Whether a word has a script within it. -/
def hasScript (word : Word) : Bool :=
  word.any fun fragment =>
    match fragment with
    | .substitution .. => true
    | _ => false

/-- Runs a simple command. Assignments before a command hold for that command only; without a
command they stay, and the status is that of the last script within them. -/
def runSimple (execute : Executor) (state : State) (assignments : List (List Char × Word))
    (words : List Word) : State :=
  let (expanded, names) := expandWords execute state words
  if expanded.flow ≠ .onward then expanded
  else
    let assigned := assignAll execute expanded assignments
    match names with
    | [] =>
      if words.any hasScript || assignments.any fun entry => hasScript entry.2 then assigned
      else assigned.withStatus 0
    | _ =>
      let after := runWords execute assigned names
      if assignments.isEmpty then after
      else
        let restored := assignments.foldl
          (fun (bindings : List (List Char × List Char)) (name, _) =>
            (bindings.filter fun entry => entry.1 ≠ name) ++
              (expanded.parameters.bindings.filter fun entry => entry.1 = name))
          after.parameters.bindings
        { after with parameters := { after.parameters with bindings := restored } }

/-! ### Scripts -/

/-- Runs the lines of a script one after the other. A line that is none ends the script. -/
def runLines (run : Command → State → State) (tokens : List Token) (state : State) : State :=
  if state.flow ≠ .onward then state
  else
    match tokens with
    | [] => state
    | first :: later =>
      match line (first :: later) with
      | none => (state.complain "Syntax error").ending 2
      | some (command, rest) =>
        if rest.length ≤ later.length then runLines run rest (run command state) else state
termination_by tokens.length
decreasing_by simp only [List.length_cons]; omega

/-- Runs the text of a script. -/
def runText (run : Command → State → State) : Executor := fun script state =>
  runLines run (tokens .none none script) state

/-- Whether a command only makes its redirections stay. -/
def isLasting (command : Command) : Bool :=
  command == .simple [] [[.plain "exec".toList]]

/-- Whether a redirection is one of the input. -/
def isOfInput (redirection : Redirection) : Bool :=
  redirection.kind = .read

/-- Runs a command with its channels redirected. -/
def runRedirected (run : Command → State → State) (command : Command)
    (redirections : List Redirection) (state : State) : State :=
  match redirections.foldlM (redirect? (runText run)) state with
  | none => (state.complain "cannot open file").withStatus 2
  | some opened =>
    if isLasting command then opened.withStatus 0
    else
      let after := run command opened
      { after with
        normal := state.normal
        faults := state.faults
        input := if redirections.any isOfInput then state.input else after.input }

/-- Runs two commands at once, the output of the first the input of the second. -/
def runPipe (run : Command → State → State) (first second : Command) (state : State) : State :=
  let (middle, output) := state.capture (run first)
  let final := { middle with input := output }.apart (run second)
  { final with
    input := middle.input
    elapsed :=
      state.elapsed + max (middle.elapsed - state.elapsed) (final.elapsed - middle.elapsed) }

/-- Runs a body with a variable that takes one value after the other. -/
def runEach (run : Command → State → State) (name : List Char) (body : Command) (state : State) :
    List String → State
  | [] => state
  | value :: later =>
    let after := run body (state.assign name value.toList)
    match after.flow with
    | .broken => { after with flow := .onward }
    | .ended => after
    | _ => runEach run name body { after with flow := .onward } later

/-- Runs a body again and again. The status is that of the last round. -/
def runLoop (run : Command → State → State) (isUntil : Bool) (condition body : Command) :
    Nat → State → State
  | 0, state => state.stuck
  | rounds + 1, state =>
    let tested := run condition state
    if tested.flow ≠ .onward then tested
    else if decide (tested.status = 0) == isUntil then tested.withStatus state.status
    else
      let after := run body tested
      match after.flow with
      | .broken => { after with flow := .onward }
      | .ended => after
      | _ => runLoop run isUntil condition body rounds { after with flow := .onward }

/-- Whether a word fits one of some patterns; the patterns are expanded first. -/
def fitsAny (execute : Executor) (state : State) (text : List Char) (patterns : List Word) : Bool :=
  patterns.any fun pattern =>
    fits (marksOfPieces (wordPieces execute state pattern).2) text

/-- Runs a command. -/
def run : Nat → Command → State → State
  | 0, _, state => state.stuck
  | fuel + 1, command, state =>
    if state.flow ≠ .onward then state
    else
      let again : Command → State → State := fun command state => run fuel command state
      match command with
      | .nothing => state
      | .simple assignments words => runSimple (runText again) state assignments words
      | .redirected inner redirections => runRedirected again inner redirections state
      | .subshell body => state.apart (again body)
      | .pipe first second => runPipe again first second state
      | .negated inner =>
        let after := again inner state
        after.withStatus (if after.status = 0 then 1 else 0)
      | .both first second =>
        let after := again first state
        if after.status = 0 then again second after else after
      | .either first second =>
        let after := again first state
        if after.status = 0 then after else again second after
      | .sequence first second => again second (again first state)
      | .choice condition body otherwise =>
        let after := again condition state
        if after.flow ≠ .onward then after
        else if after.status = 0 then again body after
        else again otherwise (after.withStatus 0)
      | .loop isUntil condition body =>
        runLoop again isUntil condition body fuel (state.withStatus 0)
      | .each name words body =>
        let (expanded, values) :=
          match words with
          | some words => expandWords (runText again) state words
          | none => (state, state.parameters.arguments.map String.ofList)
        runEach again name body (expanded.withStatus 0) values
      | .branch word patterns body otherwise =>
        let (expanded, text) := expandText (runText again) state word
        if fitsAny (runText again) expanded text patterns then again body (expanded.withStatus 0)
        else again otherwise (expanded.withStatus 0)

/-- How deep and how often commands are run before a script counts as one that never ends. -/
def bound : Nat := 100000

/-- Runs a shell with its arguments on an input. -/
def shell (disk : Disk) (directory : Path) (arguments : List String) (input : Bytes) : Result :=
  let final := runShell (runText (run bound)) (.start disk directory input) arguments
  ⟨(final.buffers[0]?).getD [], (final.buffers[1]?).getD [], final.status, true, final.elapsed⟩

end Shell

end WorkspaceSync.Tool
