/-
This file defines one layer of settings and reads it from a value, a TOML file
or the command line.

A layer sets any of four keys and leaves the others to the layers below. Two of
the keys have a second spelling; naming a key by both spellings is an error. A
list in place of a record gives the keys by their position.
-/
import WorkspaceSync.Disk
import WorkspaceSync.Toml

namespace WorkspaceSync

/-- One layer of settings. -/
structure Settings where
  /-- Whether advisory findings are wanted. -/
  lint : Option Bool
  /-- The lint tool and its arguments. -/
  lintCommand : Option (List String)
  /-- The extension of source files. -/
  extension : Option String
  /-- The directories that are left out. -/
  skipList : Option (List String)
  deriving DecidableEq, Repr

/-- Why settings could not be had. -/
inductive SettingsError where
  | unreadableFile (path : Path)
  | malformedFile (path : Path)
  | malformedOptions
  deriving DecidableEq, Repr

/-- The text of an error. -/
def SettingsError.message : SettingsError → String
  | .unreadableFile path => "reading settings from " ++ path.text
  | .malformedFile path => "parsing settings in " ++ path.text
  | .malformedOptions => "parsing initialization options"

namespace Settings

/-- The layer that sets nothing. -/
def empty : Settings := ⟨none, none, none, none⟩

/-! ### From values -/

/-- The setting of a value: nothing for null, and an error for a value of the wrong kind. -/
def setting? {Kind : Type} (read : Value → Option Kind) (value : Option Value) :
    Option (Option Kind) :=
  match value with
  | none => some none
  | some .null => some none
  | some other => (read other).map some

/-- The only field with one of the given names, none if there is none; an error if there are
several. -/
def field? (names : List String) (fields : List (String × Value)) : Option (Option Value) :=
  match fields.filter fun field => names.contains field.1 with
  | [] => some none
  | [(_, value)] => some (some value)
  | _ => none

/-- The layer of four values. -/
def ofValues? (lint lintCommand extension skipList : Option Value) : Option Settings := do
  some ⟨← setting? Value.asBool? lint, ← setting? Value.asTexts? lintCommand,
    ← setting? Value.asText? extension, ← setting? Value.asTexts? skipList⟩

/-- The layer of a value. -/
def ofValue? : Value → Option Settings
  | .record fields => do
    ofValues? (← field? ["lint"] fields) (← field? ["lint_command", "lintCommand"] fields)
      (← field? ["extension"] fields) (← field? ["skip_dirs", "skipDirs"] fields)
  | .list items =>
    if items.length ≤ 4 then ofValues? items[0]? items[1]? items[2]? items[3]? else none
  | _ => none

/-- The layer of the options that a client sends. -/
def ofOptions (value : Value) : Except SettingsError Settings :=
  match ofValue? value with
  | some settings => .ok settings
  | none => .error .malformedOptions

/-! ### From files -/

/-- The layer of a TOML file. -/
def ofFile (disk : Disk) (path : Path) : Except SettingsError Settings :=
  match disk.readText path with
  | .error _ => .error (.unreadableFile path)
  | .ok text =>
    match (Toml.read text).bind ofValue? with
    | some settings => .ok settings
    | none => .error (.malformedFile path)

end Settings

end WorkspaceSync
