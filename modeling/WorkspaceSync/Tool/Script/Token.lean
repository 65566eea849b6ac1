/-
This file cuts shell scripts into words and operators.

A word is a row of fragments: text in and out of quotes, and what is put in
when the script runs, which is the value of a parameter, the output of another
script, or the value of a sum. A script that ends inside quotes or brackets is
unfinished, and its last token says so.
-/
import WorkspaceSync.Text.Digit

namespace WorkspaceSync.Tool.Script

/-- A part of a word. -/
inductive Fragment where
  /-- Text outside of quotes. -/
  | plain (text : List Char)
  /-- Text in quotes, or behind a backslash. -/
  | quoted (text : List Char)
  /-- The value of a parameter. -/
  | parameter (name : List Char) (inQuotes : Bool)
  /-- The output of a script. -/
  | substitution (script : List Char) (inQuotes : Bool)
  /-- The value of an arithmetic expression. -/
  | arithmetic (expression : List Char) (inQuotes : Bool)
  deriving DecidableEq, Repr

/-- A word of a script. -/
abbrev Word := List Fragment

/-- A piece of a script. -/
inductive Token where
  | word (word : Word)
  | operator (text : List Char)
  /-- The script breaks off. -/
  | unfinished
  deriving DecidableEq, Repr

/-- The quotes that the reader is in. -/
inductive Quoting where
  | none
  | single
  | double
  deriving DecidableEq, Repr

/-! ### Brackets -/

/-- Puts characters before the first part of a cut. -/
def before (characters : List Char) (cut : Option (List Char × List Char)) :
    Option (List Char × List Char) :=
  cut.map fun (text, rest) => (characters ++ text, rest)

/-- What stands before the parenthesis that closes a script within a script, and what follows it;
none if none closes it. -/
def untilClosed (depth : Nat) (quoting : Quoting) : List Char → Option (List Char × List Char)
  | [] => none
  | '\\' :: next :: rest =>
    match quoting with
    | .single =>
      before ['\\', next] (untilClosed depth (if next = '\'' then .none else .single) rest)
    | other => before ['\\', next] (untilClosed depth other rest)
  | first :: rest =>
    match quoting with
    | .single => before [first] (untilClosed depth (if first = '\'' then .none else .single) rest)
    | .double => before [first] (untilClosed depth (if first = '"' then .none else .double) rest)
    | .none =>
      if first = '\'' then before [first] (untilClosed depth .single rest)
      else if first = '"' then before [first] (untilClosed depth .double rest)
      else if first = '(' then before [first] (untilClosed (depth + 1) .none rest)
      else if first = ')' then
        match depth with
        | 0 => some ([], rest)
        | outer + 1 => before [first] (untilClosed outer .none rest)
      else before [first] (untilClosed depth .none rest)

/-- What stands before the backquote that closes a script within a script, and how many characters
the two take. A backslash keeps its meaning unless it stands before one of three characters. -/
def untilBackquote : List Char → Option (List Char × Nat)
  | [] => none
  | '`' :: _ => some ([], 1)
  | '\\' :: next :: rest =>
    let kept := if ['`', '\\', '$'].contains next then [next] else ['\\', next]
    (untilBackquote rest).map fun (text, length) => (kept ++ text, length + 2)
  | first :: rest => (untilBackquote rest).map fun (text, length) => (first :: text, length + 1)

/-! ### Dollar signs -/

/-- What a dollar sign stands for. -/
inductive Dollar where
  /-- Itself. -/
  | literal
  /-- A fragment, which takes so many characters behind the sign. -/
  | fragment (fragment : Fragment) (length : Nat)
  | unfinished

/-- A character of a parameter's name. -/
def isNamePart (character : Char) : Bool :=
  ('A' ≤ character && character ≤ 'Z') || ('a' ≤ character && character ≤ 'z') ||
    character == '_' || Text.isAsciiDigit character

/-- The name that a text starts with; it does not start with a digit. -/
def leadingName (text : List Char) : List Char :=
  if text.head?.any Text.isAsciiDigit then [] else text.takeWhile isNamePart

/-- The inner part of an arithmetic expression, if the text in parentheses is one. -/
def arithmeticIn? (text : List Char) : Option (List Char) :=
  match text with
  | '(' :: rest =>
    match untilClosed 0 .none rest with
    | some (expression, []) => some expression
    | _ => none
  | _ => none

/-- Reads what follows a dollar sign. -/
def dollar (inQuotes : Bool) (text : List Char) : Dollar :=
  match text with
  | '(' :: rest =>
    match untilClosed 0 .none rest with
    | none => .unfinished
    | some (inner, _) =>
      match arithmeticIn? inner with
      | some expression => .fragment (.arithmetic expression inQuotes) (inner.length + 2)
      | none => .fragment (.substitution inner inQuotes) (inner.length + 2)
  | '\x7b' :: rest =>
    let name := rest.takeWhile (· ≠ '\x7d')
    if name.length < rest.length then .fragment (.parameter name inQuotes) (name.length + 2)
    else .unfinished
  | first :: _ =>
    if Text.isAsciiDigit first || ['#', '@', '*', '?', '$', '!', '-'].contains first then
      .fragment (.parameter [first] inQuotes) 1
    else
      let name := leadingName text
      if name.isEmpty then .literal else .fragment (.parameter name inQuotes) name.length
  | [] => .literal

/-! ### Words and operators -/

/-- Adds a character outside of quotes to the word that is being read. -/
def addPlain (word : Option Word) (character : Char) : Option Word :=
  match (word.getD []).reverse with
  | .plain text :: others => some (others.reverse ++ [.plain (text ++ [character])])
  | fragments => some (fragments.reverse ++ [.plain [character]])

/-- Adds a character in quotes to the word that is being read. -/
def addQuoted (word : Option Word) (character : Char) : Option Word :=
  match (word.getD []).reverse with
  | .quoted text :: others => some (others.reverse ++ [.quoted (text ++ [character])])
  | fragments => some (fragments.reverse ++ [.quoted [character]])

/-- Adds a fragment to the word that is being read. -/
def addFragment (word : Option Word) (fragment : Fragment) : Option Word :=
  some (word.getD [] ++ [fragment])

/-- Opens quotes in the word that is being read; quotes around nothing leave a trace. -/
def openQuotes (word : Option Word) (mark : Char) (rest : List Char) : Option Word :=
  if rest.head? = some mark then addFragment word (.quoted []) else some (word.getD [])

/-- The word that was read, if any, before other tokens. -/
def flush (word : Option Word) (later : List Token) : List Token :=
  match word with
  | some fragments => .word fragments :: later
  | none => later

/-- The operators, of which the first that fits counts. -/
def operators : List (List Char) :=
  [['&', '&'], ['|', '|'], [';', ';'], ['>', '&'], ['>', '>'], ['>', '|'], ['<', '&'], ['<', '<'],
    ['>'], ['<'], ['|'], [';'], ['&'], ['('], [')'], ['\n']]

/-- The channel that a redirection names: digits right before it. -/
def channelOf? (operator : List Char) : Option Word → Option (List Char)
  | some [.plain digits] =>
    if (operator.head? = some '>' ∨ operator.head? = some '<') ∧ digits.all Text.isAsciiDigit then
      some digits
    else none
  | _ => none

/-- Cuts a script into tokens. -/
def tokens (quoting : Quoting) (word : Option Word) (text : List Char) : List Token :=
  match text with
  | [] => if quoting = .none then flush word [] else [.unfinished]
  | first :: rest =>
    match quoting with
    | .single =>
      if first = '\'' then tokens .none word rest
      else tokens .single (addQuoted word first) rest
    | .double =>
      if first = '"' then tokens .none word rest
      else if first = '\\' then
        match rest with
        | next :: after =>
          if next = '\n' then tokens .double word after
          else if ['$', '`', '"', '\\'].contains next then
            tokens .double (addQuoted word next) after
          else tokens .double (addQuoted (addQuoted word '\\') next) after
        | [] => [.unfinished]
      else if first = '$' then
        match dollar true rest with
        | .literal => tokens .double (addQuoted word '$') rest
        | .fragment fragment length =>
          tokens .double (addFragment word fragment) (rest.drop length)
        | .unfinished => [.unfinished]
      else if first = '`' then
        match untilBackquote rest with
        | some (script, length) =>
          tokens .double (addFragment word (.substitution script true)) (rest.drop length)
        | none => [.unfinished]
      else tokens .double (addQuoted word first) rest
    | .none =>
      if first = '\'' then tokens .single (openQuotes word '\'' rest) rest
      else if first = '"' then tokens .double (openQuotes word '"' rest) rest
      else if first = '\\' then
        match rest with
        | next :: after =>
          if next = '\n' then tokens .none word after
          else tokens .none (addQuoted word next) after
        | [] => tokens .none (addQuoted word '\\') []
      else if first = '$' then
        match dollar false rest with
        | .literal => tokens .none (addQuoted word '$') rest
        | .fragment fragment length => tokens .none (addFragment word fragment) (rest.drop length)
        | .unfinished => [.unfinished]
      else if first = '`' then
        match untilBackquote rest with
        | some (script, length) =>
          tokens .none (addFragment word (.substitution script false)) (rest.drop length)
        | none => [.unfinished]
      else if first = ' ' ∨ first = '\t' then flush word (tokens .none none rest)
      else if first = '#' ∧ word = none then
        tokens .none none (rest.drop (rest.takeWhile (· ≠ '\n')).length)
      else
        match operators.find? fun operator => operator.isPrefixOf (first :: rest) with
        | some operator =>
          let after := tokens .none none (rest.drop (operator.length - 1))
          match channelOf? operator word with
          | some digits => .operator (digits ++ operator) :: after
          | none => flush word (.operator operator :: after)
        | none => tokens .none (addPlain word first) rest
termination_by text.length
decreasing_by all_goals (simp only [List.length_drop, List.length_cons]; omega)

end WorkspaceSync.Tool.Script
