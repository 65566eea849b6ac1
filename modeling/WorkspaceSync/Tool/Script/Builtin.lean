/-
This file holds the commands that are part of the shell itself: those that
change the state of the script, test conditions, or read a line of the input.
-/
import WorkspaceSync.Tool.Script.State
import WorkspaceSync.Tool.Writer

namespace WorkspaceSync.Tool.Script

/-! ### Conditions -/

/-- Compares two numbers by the name of a comparison. -/
def compare? (left right : Int) : String → Option Bool
  | "-eq" => some (left = right)
  | "-ne" => some (left ≠ right)
  | "-lt" => some (left < right)
  | "-le" => some (left ≤ right)
  | "-gt" => some (right < left)
  | "-ge" => some (right ≤ left)
  | _ => none

/-- Whether a path leads to an entry of a kind. -/
def State.has (state : State) (name : String) (kind : Node → Bool) : Bool :=
  match state.disk.entry (state.directory.join ⟨name⟩) with
  | .ok node => kind node
  | .error _ => false

/-- A condition with one operand; none if there is no such condition. -/
def unary? (state : State) (condition operand : String) : Option Bool :=
  match condition with
  | "-n" => some !operand.isEmpty
  | "-z" => some operand.isEmpty
  | "-d" => some (state.has operand Node.isDirectory)
  | "-f" => some (state.has operand fun node => !node.isDirectory)
  | "-e" => some (state.has operand fun _ => true)
  | "-r" => some (state.has operand fun _ => true)
  | "-s" => some (state.has operand fun node =>
      match node with
      | .file content => !content.isEmpty
      | _ => true)
  | _ => none

/-- A condition with two operands; none if there is no such condition. -/
def binary? (left condition right : String) : Option Bool :=
  match condition with
  | "=" => some (left == right)
  | "!=" => some (left != right)
  | _ => compare? (numberOf left.toList) (numberOf right.toList) condition

/-- Whether a condition holds; none if it is no condition. -/
def test? (state : State) : List String → Option Bool
  | [] => some false
  | [operand] => some !operand.isEmpty
  | [condition, operand] =>
    if condition = "!" then some operand.isEmpty else unary? state condition operand
  | [left, condition, right] =>
    match binary? left condition right with
    | some truth => some truth
    | none => if left = "!" then (unary? state condition right).map (!·) else none
  | "!" :: rest => (test? state rest).map (!·)
  | _ => none

/-- Tests a condition. -/
def State.test (state : State) (arguments : List String) : State :=
  match test? state arguments with
  | some true => state.withStatus 0
  | some false => state.withStatus 1
  | none => state.withStatus 2

/-! ### Reading lines -/

/-- Cuts the first line off the input: the line, whether its end was there, and what follows. -/
def firstLine (input : Bytes) : Bytes × Bool × Bytes :=
  let line := input.takeWhile (· ≠ lineFeed)
  match input.drop line.length with
  | _ :: rest => (line, true, rest)
  | [] => (line, false, [])

/-- Takes backslashes away from before other characters. -/
def withoutBackslashes : List Char → List Char
  | '\\' :: next :: rest => next :: withoutBackslashes rest
  | ['\\'] => []
  | first :: rest => first :: withoutBackslashes rest
  | [] => []

/-- Gives the parts of a line to variables, the rest of the line to the last one. -/
def State.assignParts (state : State) (separators : List Char) (text : List Char) :
    List String → State
  | [] => state
  | [name] =>
    let blank (character : Char) : Bool := isCut character && separators.contains character
    let trimmed := ((text.dropWhile blank).reverse.dropWhile blank).reverse
    state.assign name.toList trimmed
  | name :: others =>
    let blank (character : Char) : Bool := isCut character && separators.contains character
    let start := text.dropWhile blank
    let part := start.takeWhile fun character => !separators.contains character
    let after := (start.drop part.length).dropWhile blank
    let rest :=
      match after with
      | first :: later => if separators.contains first then later.dropWhile blank else after
      | [] => []
    (state.assign name.toList part).assignParts separators rest others

/-- Reads a line of the input into variables; fails at the end of the input. -/
def State.readLine (state : State) (arguments : List String) : State :=
  let isRaw := arguments.head? = some "-r"
  let given := if isRaw then arguments.drop 1 else arguments
  let names := if given.isEmpty then ["REPLY"] else given
  let (line, ended, rest) := firstLine state.input
  let characters := Text.decodeLossy line
  let text := if isRaw then characters else withoutBackslashes characters
  let separators := (state.parameters.binding? "IFS".toList).getD [' ', '\t', '\n']
  let assigned := { state with input := rest }.assignParts separators text names
  assigned.withStatus (if ended then 0 else 1)

/-! ### Commands of the shell -/

/-- Goes to a directory. -/
def State.changeDirectory (state : State) (name : String) : State :=
  let path := settled state.disk (state.directory.join ⟨name⟩)
  if state.has name Node.isDirectory then
    ({ state with directory := path }.assign "PWD".toList path.text.toList).withStatus 0
  else (state.complain ("cd: can't cd to " ++ name)).withStatus 2

/-- Makes the assignments among some arguments. -/
def State.declare (state : State) (arguments : List String) : State :=
  (arguments.foldl
    (fun state argument =>
      match assignment? [.plain argument.toList] with
      | some (name, [.plain value]) => state.assign name value
      | some (name, _) => state.assign name []
      | none => state)
    state).withStatus 0

/-- Gives the script other arguments. -/
def State.withArguments (state : State) (arguments : List (List Char)) : State :=
  { state with parameters := { state.parameters with arguments } }

/-- Leaves or goes on with the innermost loop. -/
def State.turn (state : State) (flow : Flow) : State :=
  { state.withStatus 0 with flow }

/-- Runs a command of the shell; none if there is none of that name. -/
def builtin? (execute : Executor) (state : State) (name : String) (arguments : List String) :
    Option State :=
  match name with
  | ":" => some (state.withStatus 0)
  | "exit" =>
    some (state.ending ((arguments.head?.map fun code =>
      Text.decimalValue code.toList % 256).getD state.status))
  | "return" =>
    some (state.ending ((arguments.head?.map fun code =>
      Text.decimalValue code.toList % 256).getD state.status))
  | "break" => some (state.turn .broken)
  | "continue" => some (state.turn .continued)
  | "echo" => some (state.apply (shellEcho arguments))
  | "pwd" => some (state.apply (.wrote (bytesOf (state.directory.text ++ "\n"))))
  | "cd" => some (state.changeDirectory (arguments.head?.getD ""))
  | "read" => some (state.readLine arguments)
  | "test" => some (state.test arguments)
  | "[" =>
    if arguments.getLast? = some "]" then some (state.test arguments.dropLast)
    else some ((state.complain "[: missing ]").withStatus 2)
  | "eval" => some (execute (spaced arguments).toList (state.withStatus 0))
  | "export" => some (state.declare arguments)
  | "readonly" => some (state.declare arguments)
  | "unset" =>
    let others := state.parameters.bindings.filter fun entry =>
      !arguments.contains (String.ofList entry.1)
    some ({ state with
      parameters := { state.parameters with bindings := others } }.withStatus 0)
  | "shift" =>
    let count := (arguments.head?.map fun digits => Text.decimalValue digits.toList).getD 1
    some ((state.withArguments (state.parameters.arguments.drop count)).withStatus 0)
  | "set" =>
    match arguments with
    | "--" :: values => some ((state.withArguments (values.map String.toList)).withStatus 0)
    | _ => some (state.withStatus 0)
  | "wait" => some (state.withStatus 0)
  | "trap" => some (state.withStatus 0)
  | _ => none

end WorkspaceSync.Tool.Script
