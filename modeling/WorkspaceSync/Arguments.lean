/-
This file reads the words of the command line.

There is one flag and there are three options with a value, which is either
joined to the option by `=` or the next word. A next word that looks like an
option is no value. Each of them may be given once, and the first word that is
wrong decides the error; an option that lacks its value is noticed when the
next option comes or the words end.
-/
import WorkspaceSync.Settings

namespace WorkspaceSync

/-- Why the words of the command line are refused. -/
inductive ArgumentsError where
  | unknownArgument
  /-- An option without its value. -/
  | missingValue
  /-- A flag with a value. -/
  | unwantedValue
  /-- An argument that was given before. -/
  | repeated
  | helpRequested
  | versionRequested
  deriving DecidableEq, Repr

/-- What the command line says. -/
structure Arguments where
  lint : Bool
  lintCommand : Option String
  extension : Option String
  logLevel : String
  deriving DecidableEq, Repr

namespace Arguments

/-- The options with a value. -/
inductive ValueOption where
  | lintCommand
  | extension
  | logLevel
  deriving DecidableEq, Repr

/-- What was read so far. -/
structure Progress where
  lint : Bool
  values : List (ValueOption × String)
  /-- The option whose value has to come, and the value if it came as a word of its own. -/
  pending : Option (ValueOption × Option String)

/-- The state before the first word. -/
def Progress.start : Progress := ⟨false, [], none⟩

/-- Gives an option its value. -/
def Progress.assign (progress : Progress) (option : ValueOption) (value : String) :
    Except ArgumentsError Progress :=
  if progress.values.any fun entry => entry.1 = option then .error .repeated
  else .ok { progress with values := progress.values ++ [(option, value)] }

/-- Settles the option that waits. -/
def Progress.settle (progress : Progress) : Except ArgumentsError Progress :=
  match progress.pending with
  | none => .ok progress
  | some (_, none) => .error .missingValue
  | some (option, some value) => { progress with pending := none }.assign option value

/-- What a long option is. -/
inductive LongOption where
  | flag
  | valued (option : ValueOption)
  | help
  | version
  deriving DecidableEq, Repr

/-- The long option of a name. -/
def longOption? : String → Option LongOption
  | "lint" => some .flag
  | "lint-command" => some (.valued .lintCommand)
  | "extension" => some (.valued .extension)
  | "log-level" => some (.valued .logLevel)
  | "help" => some .help
  | "version" => some .version
  | _ => none

/-- Cuts the text of a long option at its equals sign. -/
def cutValue (text : List Char) : String × Option String :=
  match text.dropWhile (· ≠ '=') with
  | _ :: value => (String.ofList (text.takeWhile (· ≠ '=')), some (String.ofList value))
  | [] => (String.ofList text, none)

/-- Reads a long option, from behind its two dashes. -/
def long (progress : Progress) (text : List Char) : Except ArgumentsError Progress :=
  let (name, joined) := cutValue text
  match longOption? name, joined with
  | none, _ => .error .unknownArgument
  | some (.valued option), some value => do (← progress.settle).assign option value
  | some (.valued option), none => do
    return { ← progress.settle with pending := some (option, none) }
  | some _, some _ => .error .unwantedValue
  | some .flag, none => do
    let settled ← progress.settle
    if settled.lint then .error .repeated else .ok { settled with lint := true }
  | some .help, none => do
    let _ ← progress.settle
    .error .helpRequested
  | some .version, none => do
    let _ ← progress.settle
    .error .versionRequested

/-- Reads a row of short options, from behind its dash. -/
def short (progress : Progress) (text : List Char) : Except ArgumentsError Progress :=
  match text with
  | 'h' :: _ => do
    let _ ← progress.settle
    .error .helpRequested
  | 'V' :: _ => do
    let _ ← progress.settle
    .error .versionRequested
  | _ => .error .unknownArgument

/-- Reads a word that is no option. -/
def plain (progress : Progress) (word : String) : Except ArgumentsError Progress :=
  match progress.pending with
  | some (option, none) => .ok { progress with pending := some (option, some word) }
  | _ => .error .unknownArgument

/-- Reads one word. -/
def word (progress : Progress) (word : String) : Except ArgumentsError Progress :=
  match word.toList with
  | '-' :: '-' :: text => long progress text
  | '-' :: first :: rest => short progress (first :: rest)
  | _ => plain progress word

/-- Reads the words up to `--`, behind which no word may follow. -/
def words (progress : Progress) : List String → Except ArgumentsError Progress
  | [] => progress.settle
  | "--" :: later => if later.isEmpty then progress.settle else .error .unknownArgument
  | first :: later => do words (← word progress first) later

/-- The value of an option. -/
def Progress.value? (progress : Progress) (option : ValueOption) : Option String :=
  (progress.values.find? fun entry => entry.1 = option).map Prod.snd

/-- The log level unless another is asked for. -/
def defaultLogLevel : String := "info"

/-- Reads the words of the command line. -/
def read (commandLine : List String) : Except ArgumentsError Arguments := do
  let progress ← words .start commandLine
  return {
    lint := progress.lint
    lintCommand := progress.value? .lintCommand
    extension := progress.value? .extension
    logLevel := (progress.value? .logLevel).getD defaultLogLevel }

/-- The layer of settings that the command line gives. The flag can only switch findings on, and
the lint tool is given in one text, cut at its blanks. -/
def settings (arguments : Arguments) : Settings :=
  { lint := if arguments.lint then some true else none
    lintCommand := arguments.lintCommand.map fun text =>
      (Text.words text.toList).map String.ofList
    extension := arguments.extension
    skipList := none }

end Arguments

end WorkspaceSync
