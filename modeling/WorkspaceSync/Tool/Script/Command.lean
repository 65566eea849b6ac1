/-
This file reads the commands of a shell script from its tokens.

A script is read line by line: a line is a row of commands up to a line end
that no command spans. Lists, pipelines and the compound commands are built from
commands of two parts, so that a command is a plain tree.
-/
import WorkspaceSync.Tool.Script.Token

namespace WorkspaceSync.Tool.Script

/-! ### Trees -/

/-- What a redirection does with its channel. -/
inductive Redirecting where
  /-- Reads from a file. -/
  | read
  /-- Writes to a file anew. -/
  | write
  /-- Writes at the end of a file. -/
  | append
  /-- Goes where another channel goes. -/
  | duplicate
  deriving DecidableEq, Repr

/-- A redirection of a channel. -/
structure Redirection where
  channel : Nat
  kind : Redirecting
  target : Word
  deriving DecidableEq, Repr

/-- A command of a script. -/
inductive Command where
  | nothing
  /-- Assignments, then the words of a program and its arguments. -/
  | simple (assignments : List (List Char × Word)) (words : List Word)
  | redirected (command : Command) (redirections : List Redirection)
  /-- A command that changes nothing in the script around it. -/
  | subshell (body : Command)
  /-- Two commands at once, the output of the first the input of the second. -/
  | pipe (first second : Command)
  | negated (command : Command)
  /-- The second only if the first succeeds. -/
  | both (first second : Command)
  /-- The second only if the first fails. -/
  | either (first second : Command)
  | sequence (first second : Command)
  | choice (condition body otherwise : Command)
  /-- A body that is run again and again, as long as the condition succeeds, or fails. -/
  | loop (isUntil : Bool) (condition body : Command)
  /-- A body that is run for each word, or for each argument of the script. -/
  | each (name : List Char) (words : Option (List Word)) (body : Command)
  /-- A body that is run if a word fits one of some patterns. -/
  | branch (word : Word) (patterns : List Word) (body otherwise : Command)
  deriving DecidableEq, Repr

/-! ### Redirections and words -/

/-- A command that was read, and the tokens behind it. -/
abbrev Reading := Command × List Token

/-- The redirection of an operator and the word behind it. -/
def redirection? (operator : List Char) (target : Word) : Option Redirection :=
  let digits := operator.takeWhile Text.isAsciiDigit
  let channel (usual : Nat) : Nat := if digits.isEmpty then usual else Text.decimalValue digits
  match operator.drop digits.length with
  | ['<'] => some ⟨channel 0, .read, target⟩
  | ['<', '&'] => some ⟨channel 0, .duplicate, target⟩
  | ['>'] => some ⟨channel 1, .write, target⟩
  | ['>', '|'] => some ⟨channel 1, .write, target⟩
  | ['>', '>'] => some ⟨channel 1, .append, target⟩
  | ['>', '&'] => some ⟨channel 1, .duplicate, target⟩
  | _ => none

/-- Reads the redirections at the start of a row of tokens. -/
def redirections : List Token → List Redirection × List Token
  | .operator operator :: .word target :: rest =>
    match redirection? operator target with
    | some redirection =>
      let (others, after) := redirections rest
      (redirection :: others, after)
    | none => ([], .operator operator :: .word target :: rest)
  | other => ([], other)

/-- The assignment that a word is, if it is one. -/
def assignment? : Word → Option (List Char × Word)
  | .plain text :: rest =>
    let name := leadingName text
    match text.drop name.length with
    | '=' :: value =>
      if name.isEmpty then none
      else some (name, if value.isEmpty then rest else .plain value :: rest)
    | _ => none
  | _ => none

/-- What was read of a simple command. -/
structure Simple where
  assignments : List (List Char × Word)
  words : List Word
  redirections : List Redirection

/-- Reads a simple command, as far as it goes. Assignments stand before the first word only. -/
def simple (started : Bool) : List Token → Simple × List Token
  | .word word :: rest =>
    match started, assignment? word with
    | false, some assignment =>
      let (others, after) := simple false rest
      ({ others with assignments := assignment :: others.assignments }, after)
    | _, _ =>
      let (others, after) := simple true rest
      ({ others with words := word :: others.words }, after)
  | .operator operator :: .word target :: rest =>
    match redirection? operator target with
    | some redirection =>
      let (others, after) := simple started rest
      ({ others with redirections := redirection :: others.redirections }, after)
    | none => (⟨[], [], []⟩, .operator operator :: .word target :: rest)
  | other => (⟨[], [], []⟩, other)

/-- A command with redirections, if there are any. -/
def Command.redirect (command : Command) (redirections : List Redirection) : Command :=
  if redirections.isEmpty then command else .redirected command redirections

/-- Reads a simple command; none if there is none. -/
def simpleCommand (tokens : List Token) : Option Reading :=
  match simple false tokens with
  | (⟨[], [], []⟩, _) => none
  | (parts, rest) =>
    some ((Command.simple parts.assignments parts.words).redirect parts.redirections, rest)

/-! ### Reserved words -/

/-- The text of a word without quotes and expansions. -/
def keyword? : Token → Option String
  | .word [.plain text] => some (String.ofList text)
  | _ => none

/-- Reads a reserved word. -/
def expect (keyword : String) : List Token → Option (List Token)
  | token :: rest => if keyword? token = some keyword then some rest else none
  | [] => none

/-- Whether a token ends a list of commands. -/
def endsList (token : Token) : Bool :=
  match token with
  | .operator text => text = [')'] || text = [';', ';']
  | .unfinished => true
  | .word _ =>
    (keyword? token).any fun word =>
      ["then", "else", "elif", "fi", "do", "done", "esac", "\x7d"].contains word

/-- Whether a token starts a compound command. -/
def isReserved (token : Token) : Bool :=
  token == .operator ['('] ||
    (keyword? token).any fun word =>
      ["\x7b", "if", "while", "until", "for", "case", "!"].contains word

/-- What follows line ends. -/
def skipLineEnds : List Token → List Token
  | .operator ['\n'] :: rest => skipLineEnds rest
  | other => other

/-- Reads the words up to the end of a list of words. -/
def wordsOf : List Token → List Word × List Token
  | .word word :: rest =>
    let (others, after) := wordsOf rest
    (word :: others, after)
  | other => ([], other)

/-- Reads the patterns of a branch, up to the closing parenthesis. -/
def patternsOf : List Token → Option (List Word × List Token)
  | .word word :: .operator ['|'] :: rest =>
    (patternsOf rest).map fun (others, after) => (word :: others, after)
  | .word word :: .operator [')'] :: rest => some ([word], rest)
  | _ => none

/-! ### Commands -/

/-- What is between the parts of a list: true for a line end. -/
def separator? : List Token → Option (Bool × List Token)
  | .operator [';'] :: rest => some (false, rest)
  | .operator ['&'] :: rest => some (false, rest)
  | .operator ['\n'] :: rest => some (true, rest)
  | _ => none

mutual

/-- Reads a list of commands. The list of a line ends with the line. -/
def list (ofLine : Bool) : Nat → List Token → Option Reading
  | 0, _ => none
  | fuel + 1, tokens =>
    let start := if ofLine then tokens else skipLineEnds tokens
    match start with
    | [] => some (.nothing, [])
    | first :: later =>
      if endsList first || (ofLine && first == .operator ['\n']) then
        some (.nothing, first :: later)
      else
        match joined fuel start with
        | none => none
        | some (command, rest) =>
          match separator? rest with
          | none => some (command, rest)
          | some (isLineEnd, after) =>
            if ofLine && isLineEnd then some (command, rest)
            else
              (list ofLine fuel after).map fun (others, rest) => (.sequence command others, rest)

/-- Reads pipelines that are joined by `&&` and `||`, which bind to the left. -/
def joined : Nat → List Token → Option Reading
  | 0, _ => none
  | fuel + 1, tokens =>
    match pipeline fuel tokens with
    | none => none
    | some (command, rest) => furtherJoined fuel command rest

/-- Reads the pipelines that are joined to a command. -/
def furtherJoined : Nat → Command → List Token → Option Reading
  | 0, _, _ => none
  | fuel + 1, command, tokens =>
    match tokens with
    | .operator ['&', '&'] :: rest =>
      (pipeline fuel (skipLineEnds rest)).bind fun (next, after) =>
        furtherJoined fuel (.both command next) after
    | .operator ['|', '|'] :: rest =>
      (pipeline fuel (skipLineEnds rest)).bind fun (next, after) =>
        furtherJoined fuel (.either command next) after
    | _ => some (command, tokens)

/-- Reads a pipeline. -/
def pipeline : Nat → List Token → Option Reading
  | 0, _ => none
  | fuel + 1, tokens =>
    match expect "!" tokens with
    | some rest =>
      (stages fuel rest).map fun (command, after) => (.negated command, after)
    | none => stages fuel tokens

/-- Reads the commands of a pipeline. -/
def stages : Nat → List Token → Option Reading
  | 0, _ => none
  | fuel + 1, tokens =>
    match command fuel tokens with
    | some (first, .operator ['|'] :: rest) =>
      (stages fuel (skipLineEnds rest)).map fun (second, after) => (.pipe first second, after)
    | other => other

/-- Reads one command. -/
def command : Nat → List Token → Option Reading
  | 0, _ => none
  | fuel + 1, tokens =>
    let compound : Option Reading :=
      match tokens with
      | .operator ['('] :: rest =>
        match list false fuel rest with
        | some (body, .operator [')'] :: after) => some (.subshell body, after)
        | _ => none
      | first :: rest =>
        match keyword? first with
        | some "\x7b" => do
          let (body, after) ← list false fuel rest
          some (body, ← expect "\x7d" after)
        | some "if" => conditional fuel rest
        | some "while" => looped fuel false rest
        | some "until" => looped fuel true rest
        | some "for" => iterated fuel rest
        | some "case" =>
          match rest with
          | .word word :: after => do
            branches fuel word (skipLineEnds (← expect "in" (skipLineEnds after)))
          | _ => none
        | _ => none
      | [] => none
    match compound with
    | some (command, rest) =>
      let (redirections, after) := redirections rest
      some (command.redirect redirections, after)
    | none =>
      match tokens with
      | first :: _ =>
        if endsList first || isReserved first then none else simpleCommand tokens
      | [] => none

/-- Reads a choice from behind its first word. -/
def conditional : Nat → List Token → Option Reading
  | 0, _ => none
  | fuel + 1, tokens => do
    let (condition, afterCondition) ← list false fuel tokens
    let (body, afterBody) ← list false fuel (← expect "then" afterCondition)
    match afterBody with
    | next :: rest =>
      match keyword? next with
      | some "fi" => some (.choice condition body .nothing, rest)
      | some "elif" =>
        let (otherwise, after) ← conditional fuel rest
        some (.choice condition body otherwise, after)
      | some "else" =>
        let (otherwise, afterOtherwise) ← list false fuel rest
        some (.choice condition body otherwise, ← expect "fi" afterOtherwise)
      | _ => none
    | [] => none

/-- Reads a body between `do` and `done`. -/
def bodyOf : Nat → List Token → Option Reading
  | 0, _ => none
  | fuel + 1, tokens => do
    let (body, after) ← list false fuel (← expect "do" (skipLineEnds tokens))
    some (body, ← expect "done" after)

/-- Reads a loop from behind its first word. -/
def looped : Nat → Bool → List Token → Option Reading
  | 0, _, _ => none
  | fuel + 1, isUntil, tokens => do
    let (condition, afterCondition) ← list false fuel tokens
    let (body, after) ← bodyOf fuel afterCondition
    some (.loop isUntil condition body, after)

/-- Reads a loop over words from behind its first word. -/
def iterated : Nat → List Token → Option Reading
  | 0, _ => none
  | fuel + 1, tokens =>
    match tokens with
    | .word [.plain name] :: rest =>
      match expect "in" (skipLineEnds rest) with
      | some afterIn =>
        let (words, afterWords) := wordsOf afterIn
        match separator? afterWords with
        | some (_, afterSeparator) =>
          (bodyOf fuel afterSeparator).map fun (body, after) =>
            (.each name (some words) body, after)
        | none => none
      | none =>
        let afterSeparator :=
          match rest with
          | .operator [';'] :: after => after
          | other => other
        (bodyOf fuel afterSeparator).map fun (body, after) => (.each name none body, after)
    | _ => none

/-- Reads the branches for a word. -/
def branches : Nat → Word → List Token → Option Reading
  | 0, _, _ => none
  | fuel + 1, word, tokens =>
    match expect "esac" tokens with
    | some rest => some (.nothing, rest)
    | none => do
      let unopened :=
        match tokens with
        | .operator ['('] :: rest => rest
        | other => other
      let (patterns, afterPatterns) ← patternsOf unopened
      let (body, afterBody) ← list false fuel afterPatterns
      match afterBody with
      | .operator [';', ';'] :: rest =>
        let (otherwise, after) ← branches fuel word (skipLineEnds rest)
        some (.branch word patterns body otherwise, after)
      | rest => some (.branch word patterns body .nothing, ← expect "esac" rest)

end

/-- Reads the first line of a script. None if it is no line. -/
def line (tokens : List Token) : Option Reading :=
  match list true (8 * tokens.length + 8) tokens with
  | some (command, []) => some (command, [])
  | some (command, .operator ['\n'] :: rest) => some (command, rest)
  | _ => none

end WorkspaceSync.Tool.Script
