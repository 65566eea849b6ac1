/-
This file holds `sed`, the tool that edits lines by a script.

The tool works on a space, which holds a line or several joined ones, and has a
second place where it can keep such a space. It goes through the instructions
for each line; branches may send it back, so a number bounds how many
instructions it follows.
-/
import WorkspaceSync.Tool.Editor.Instruction

namespace WorkspaceSync.Tool.Editor

/-! ### The state -/

/-- A line, and whether a line feed ends it. -/
structure Line where
  bytes : Bytes
  isEnded : Bool

/-- The state of the tool. -/
structure State where
  space : Line
  held : Line
  /-- The number of the last line in the space. -/
  number : Nat
  /-- The lines that are still to come. -/
  later : List Line
  output : Bytes
  /-- Whether the output lacks the line feed of its last line. -/
  isOpen : Bool
  /-- What is written when the line is done. -/
  queued : Bytes
  /-- The ranges that are open, by the index of their instruction, with their last line if that is
  known. -/
  ranges : List (Nat × Option Nat)
  /-- Whether a match was replaced since the last line or branch. -/
  isReplaced : Bool
  status : Nat

namespace State

/-- Writes bytes behind a complete line. -/
def write (state : State) (bytes : Bytes) (isEnded : Bool) : State :=
  let missing := if state.isOpen then [lineFeed] else []
  { state with output := state.output ++ missing ++ closeLine bytes isEnded, isOpen := !isEnded }

/-- Writes text that has its own line feed. -/
def writeText (state : State) (text : Bytes) : State :=
  if text.isEmpty then state else state.write text.dropLast true

/-- Writes the space. -/
def writeSpace (state : State) : State :=
  state.write state.space.bytes state.space.isEnded

/-- Writes what was put off. -/
def flush (state : State) : State :=
  { state.writeText state.queued with queued := [] }

/-- Writes what is due at the end of a line. -/
def finish (state : State) (isSilent : Bool) : State :=
  (if isSilent then state else state.writeSpace).flush

/-- Takes the next line into the space; none if there is none. -/
def advance? (state : State) : Option State :=
  match state.later with
  | [] => none
  | line :: later => some { state with space := line, later, number := state.number + 1 }

/-- Adds the next line to the space; none if there is none. -/
def join? (state : State) : Option State :=
  match state.later with
  | [] => none
  | line :: later =>
    let joined : Line := ⟨state.space.bytes ++ lineFeed :: line.bytes, line.isEnded⟩
    some { state with space := joined, later, number := state.number + 1 }

end State

/-- Two lines joined to one. -/
def Line.join (first second : Line) : Line :=
  ⟨first.bytes ++ lineFeed :: second.bytes, first.isEnded || second.isEnded⟩

/-! ### Selections -/

/-- Whether a mark is at the line in the space. -/
def Mark.isHere (mark : Mark) (state : State) : Bool :=
  match mark with
  | .number line => line == state.number
  | .last => state.later.isEmpty
  | .matching pattern => pattern.isIn state.space.bytes
  | .step first distance =>
    if distance = 0 then first == state.number
    else first ≤ state.number && (state.number - first) % distance == 0
  | .after _ => false

/-- Closes the range of an instruction. -/
def State.closeRange (state : State) (index : Nat) : State :=
  { state with ranges := state.ranges.filter fun entry => entry.1 ≠ index }

/-- Opens the range of an instruction. -/
def State.openRange (state : State) (index : Nat) (last : Option Nat) : State :=
  { state with ranges := (index, last) :: state.ranges }

/-- Opens a range at its first line, unless it ends there. -/
def State.enterRange (state : State) (index : Nat) (closing : Mark) : State :=
  match closing with
  | .number line => if line ≤ state.number then state else state.openRange index (some line)
  | .after 0 => state
  | .after count => state.openRange index (some (state.number + count))
  | .last => if state.later.isEmpty then state else state.openRange index none
  | _ => state.openRange index none

/-- Whether an instruction is for the line in the space, and the state with its range brought up to
date. A range that starts at line zero is open from the beginning. -/
def select (state : State) (index : Nat) (selection : Selection) : Bool × State :=
  match selection with
  | .all => (true, state)
  | .one mark => (mark.isHere state, state)
  | .range opening closing =>
    match state.ranges.find? fun entry => entry.1 = index with
    | some (_, some last) =>
      (state.number ≤ last, if last ≤ state.number then state.closeRange index else state)
    | some (_, none) => (true, if closing.isHere state then state.closeRange index else state)
    | none =>
      if opening.isHere state then (true, state.enterRange index closing) else (false, state)

/-- The ranges that are open before the first line. -/
def earlyRanges (script : List Instruction) : List (Nat × Option Nat) :=
  script.zipIdx.filterMap fun (instruction, index) =>
    match instruction.selection with
    | .range (.number 0) (.matching _) => some (index, none)
    | _ => none

/-! ### Replacing -/

/-- The replacement of one match. -/
def replacementBytes (replacement : List Piece) (found : Pattern.Match) : Bytes :=
  replacement.flatMap fun piece =>
    match piece with
    | .bytes bytes => bytes
    | .group 0 => found.matched
    | .group index => found.after.group index

/-- Replaces matches in a line and tells if there was one. So many matches were passed before, and
an empty match right behind the one before it does not count. -/
def replace (substitution : Substitution) (count : Nat) (behindMatch : Bool) (passed : Nat)
    (line : Bytes) : Bytes × Bool :=
  match substitution.pattern.search passed [] line with
  | none => (line, false)
  | some found =>
    let counts := !(behindMatch && found.before.isEmpty && found.matched.isEmpty)
    let index := if counts then count + 1 else count
    let isHit := counts && max 1 substitution.occurrence ≤ index
    let written := found.before ++
      (if isHit then replacementBytes substitution.replacement found else found.matched)
    if isHit && !substitution.everywhere then (written ++ found.after.rest, true)
    else if found.matched.isEmpty then
      match found.after.rest with
      | [] => (written, isHit)
      | byte :: rest =>
        if rest.length < line.length then
          let (changed, others) := replace substitution index false (found.after.passed + 1) rest
          (written ++ byte :: changed, isHit || others)
        else (written ++ byte :: rest, isHit)
    else if found.after.rest.length < line.length then
      let (changed, others) := replace substitution index true found.after.passed found.after.rest
      (written ++ changed, isHit || others)
    else (written ++ found.after.rest, isHit)
termination_by line.length

/-- Replaces matches in the space. -/
def State.substitute (state : State) (substitution : Substitution) : State :=
  let (changed, isHit) := replace substitution 0 false 0 state.space.bytes
  if isHit then
    let space : Line := { state.space with bytes := changed }
    let replaced := { state with space, isReplaced := true }
    if substitution.print then replaced.writeSpace else replaced
  else state

/-- Replaces bytes by others. -/
def mapped (table : List (UInt8 × UInt8)) (bytes : Bytes) : Bytes :=
  bytes.map fun byte =>
    ((table.find? fun entry => entry.1 = byte).map Prod.snd).getD byte

/-! ### Running scripts -/

/-- The index behind the block that opens before the given instructions. -/
def blockEnd (depth index : Nat) : List Instruction → Nat
  | [] => index
  | instruction :: rest =>
    match instruction.action with
    | .openBlock => blockEnd (depth + 1) (index + 1) rest
    | .closeBlock =>
      match depth with
      | 0 => index + 1
      | outer + 1 => blockEnd outer (index + 1) rest
    | _ => blockEnd depth (index + 1) rest

/-- The index of a label; the end of the script if there is no name or no such label. -/
def labelIndex (script : List Instruction) (name : List Char) : Nat :=
  if name.isEmpty then script.length
  else
    script.findIdx fun instruction =>
      match instruction.action with
      | .label other => other == name
      | _ => false

/-- What comes after an instruction. -/
inductive Outcome where
  /-- The instruction at an index. -/
  | onward (index : Nat) (state : State)
  /-- The next line, after the space is written. -/
  | endLine (state : State)
  /-- The next line, and nothing is written. -/
  | dropLine (state : State)
  /-- The end. -/
  | done (state : State)

/-- Does what an instruction says. -/
def perform (script : List Instruction) (isSilent : Bool) (index : Nat)
    (instruction : Instruction) (state : State) : Outcome :=
  let on (state : State) : Outcome := .onward (index + 1) state
  match instruction.action with
  | .substitute substitution => on (state.substitute substitution)
  | .mapBytes table =>
    on { state with space := { state.space with bytes := mapped table state.space.bytes } }
  | .delete => .dropLine state
  | .deleteFirst =>
    let first := state.space.bytes.takeWhile (· ≠ lineFeed)
    match state.space.bytes.drop first.length with
    | _ :: rest => .onward 0 { state.flush with space := { state.space with bytes := rest } }
    | [] => .dropLine state
  | .print => on state.writeSpace
  | .printFirst => on (state.write (state.space.bytes.takeWhile (· ≠ lineFeed)) true)
  | .lineNumber => on (state.write (numberBytes state.number) true)
  | .quit status => .done { state.finish isSilent with status }
  | .leave status => .done { state with status }
  | .next =>
    if state.later.isEmpty then .done (state.finish isSilent)
    else
      match (state.finish isSilent).advance? with
      | some next => on next
      | none => .done state
  | .nextJoined =>
    match state.flush.join? with
    | some joined => on joined
    | none => .done (state.finish isSilent)
  | .hold => on { state with held := state.space }
  | .holdJoined => on { state with held := state.held.join state.space }
  | .get => on { state with space := state.held }
  | .getJoined => on { state with space := state.space.join state.held }
  | .exchange => on { state with space := state.held, held := state.space }
  | .insert text => on (state.writeText text)
  | .append text => on { state with queued := state.queued ++ text }
  | .change text =>
    let isWithin := !instruction.isInverted && state.ranges.any fun entry => entry.1 = index
    .dropLine (if isWithin then state else state.writeText text)
  | .openBlock => on state
  | .closeBlock => on state
  | .label _ => on state
  | .branch name => .onward (labelIndex script name) state
  | .branchIf name =>
    if state.isReplaced then .onward (labelIndex script name) { state with isReplaced := false }
    else on state

/-- Follows a script from an instruction on; none if the bound is reached. -/
def follow (script : List Instruction) (isSilent : Bool) : Nat → Nat → State → Option State
  | 0, _, _ => none
  | bound + 1, index, state =>
    let outcome : Outcome :=
      match script[index]? with
      | none => .endLine state
      | some instruction =>
        let (isSelected, after) := select state index instruction.selection
        if isSelected != instruction.isInverted then
          perform script isSilent index instruction after
        else
          match instruction.action with
          | .openBlock => .onward (blockEnd 0 (index + 1) (script.drop (index + 1))) after
          | _ => .onward (index + 1) after
    match outcome with
    | .onward next after => follow script isSilent bound next after
    | .done after => some after
    | .endLine after =>
      match (after.finish isSilent).advance? with
      | some next => follow script isSilent bound 0 { next with isReplaced := false }
      | none => some (after.finish isSilent)
    | .dropLine after =>
      match after.flush.advance? with
      | some next => follow script isSilent bound 0 { next with isReplaced := false }
      | none => some after.flush

/-- How many instructions are followed for a number of lines. -/
def bound (script : List Instruction) (lines : List Line) : Nat :=
  100 * (script.length + 1) * (lines.length + 1) + 10000

/-- Edits lines; none if that never ends. -/
def edit (script : List Instruction) (isSilent : Bool) (lines : List Line) : Option State :=
  let start : State :=
    { space := ⟨[], true⟩
      held := ⟨[], true⟩
      number := 0
      later := lines
      output := []
      isOpen := false
      queued := []
      ranges := earlyRanges script
      isReplaced := false
      status := 0 }
  match start.advance? with
  | some first => follow script isSilent (bound script lines) 0 first
  | none => some start

end Editor

/-- Edits the lines of its inputs by a script. -/
def sed (disk : Disk) (directory : Path) (arguments : List String) (input : Bytes) : Result :=
  let call := Call.read ['e'] arguments
  let dialect : Pattern.Dialect := if call.has 'E' || call.has 'r' then .extended else .basic
  let (scripts, names) :=
    if (call.valuesOf 'e').isEmpty then (call.words.take 1, call.words.drop 1)
    else (call.valuesOf 'e', call.words)
  match scripts, Editor.instructions? dialect ("\n".intercalate scripts).toList with
  | [], _ => .ended 1
  | _, none => .ended 1
  | _, some script =>
    let lines := (inputs disk directory names input).flatMap fun (_, content, _) =>
      match content with
      | .ok bytes => (linesOf bytes).map fun (bytes, isEnded) => (⟨bytes, isEnded⟩ : Editor.Line)
      | .error _ => []
    let gathered := overInputs "sed" disk directory names input fun _ _ => []
    match Editor.edit script (call.has 'n') lines with
    | some state =>
      { gathered with output := state.output, status := max gathered.status state.status }
    | none => { gathered with elapsed := forever }

end WorkspaceSync.Tool
