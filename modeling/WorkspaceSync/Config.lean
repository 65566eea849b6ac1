/-
This file puts the layers of settings together.

Later layers win: the defaults, the user's file, the project's file, the
options of the client, the command line. Since the project's file may be read
at any time, the layers above it are remembered and laid over it again.
-/
import WorkspaceSync.Arguments
import WorkspaceSync.Layout
import WorkspaceSync.Lint.Command

namespace WorkspaceSync

/-- The settings in force. -/
structure Config where
  lint : Bool
  lintCommand : List String
  extension : String
  skipList : List String
  logLevel : String
  /-- The files whose settings were laid on, the lowest first. -/
  sources : List Path
  /-- The options of the client. -/
  client : Settings
  /-- The settings of the command line. -/
  commandLine : Settings
  deriving DecidableEq, Repr

namespace Config

/-- The settings when nothing is set. -/
def default : Config :=
  { lint := false
    lintCommand := []
    extension := Layout.defaultExtension
    skipList := Layout.defaultSkipList
    logLevel := Arguments.defaultLogLevel
    sources := []
    client := .empty
    commandLine := .empty }

/-- Lays a layer over the settings: every key that it sets is overwritten. -/
def apply (config : Config) (settings : Settings) : Config :=
  { config with
    lint := settings.lint.getD config.lint
    lintCommand := settings.lintCommand.getD config.lintCommand
    extension := (settings.extension.map Layout.bareExtension).getD config.extension
    skipList := settings.skipList.getD config.skipList }

/-- The settings of the command line over those of the user's file, if there is such a file. -/
def ofArguments (arguments : Arguments) (disk : Disk) (userFile : Option Path) :
    Except SettingsError Config := do
  let start :=
    { default with logLevel := arguments.logLevel, commandLine := arguments.settings }
  let layered ←
    match userFile with
    | none => .ok start
    | some path =>
      if disk.isFile path then do
        let settings ← Settings.ofFile disk path
        let applied := start.apply settings
        .ok { applied with sources := applied.sources ++ [path] }
      else .ok start
  return layered.apply layered.commandLine

/-- The file with a project's settings, at the root of the workspace. -/
def projectFile (root : Path) : Path :=
  root.join ⟨".gunkls.toml"⟩

/-- Lays the project's file on, if there is one, below the options of the client and the command
line. Beside the settings it says which file was laid on, or why the file cannot be used. -/
def loadProject (config : Config) (disk : Disk) (root : Path) :
    Config × Except SettingsError (Option Path) :=
  let path := projectFile root
  if disk.isFile path then
    match Settings.ofFile disk path with
    | .error error => (config, .error error)
    | .ok settings =>
      let layered := ((config.apply settings).apply config.client).apply config.commandLine
      ({ layered with sources := layered.sources ++ [path] }, .ok (some path))
  else (config, .ok none)

/-- Lays the options of the client on, below the command line. -/
def applyClient (config : Config) (settings : Settings) : Config :=
  ({ config with client := settings }.apply settings).apply config.commandLine

/-- The user's file, given the directory for settings and the home directory that the environment
names, and the home directory of the account. The directory for settings counts only if it is an
absolute path, and an empty home directory does not count. -/
def userFile (configHome home : Option String) (accountHome : String) : Path :=
  let homeDirectory : Path := ⟨(home.filter (!·.isEmpty)).getD accountHome⟩
  let ofEnvironment : Option Path :=
    (configHome.map fun text => (⟨text⟩ : Path)).filter Path.isAbsolute
  let directory := ofEnvironment.getD (homeDirectory.join ⟨".config"⟩)
  (directory.join ⟨"gunkls"⟩).join ⟨"config.toml"⟩

/-- The rules of a workspace under these settings. -/
def layout (config : Config) (root : Path) : Layout :=
  ((Layout.ofRoot root).withExtension config.extension).withSkipList config.skipList

/-- The lint tool under these settings, if one is wanted and named. -/
def lintTool? (config : Config) : Option Lint.Command :=
  if config.lint then Lint.Command.ofWords? config.lintCommand else none

end Config

end WorkspaceSync
