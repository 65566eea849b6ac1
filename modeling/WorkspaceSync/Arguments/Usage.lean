/-
This file holds what the command line prints about itself.
-/
import WorkspaceSync.Config
import WorkspaceSync.Server.Message

namespace WorkspaceSync

/-- The line that tells the version. -/
def Arguments.versionLine : String :=
  Server.serverName ++ " " ++ Server.serverVersion

/-- The page that explains the options. -/
def Arguments.usage : String :=
  String.intercalate "\n"
    ["Language server for Gunk packages",
      "",
      "Usage: " ++ Server.serverName ++ " [OPTIONS]",
      "",
      "Options:",
      "      --lint                         Enable lint diagnostics",
      "      --lint-command <LINT_COMMAND>  Lint command; `" ++
        String.ofList Lint.Command.filePlaceholder ++
        "` is replaced by the file path and its text is sent on stdin",
      "      --extension <EXTENSION>        Extension of source files (default: " ++
        Layout.defaultExtension ++ ")",
      "      --log-level <LOG_LEVEL>        Log level (trace, debug, info, warn, error) " ++
        "[default: " ++ Arguments.defaultLogLevel ++ "]",
      "  -h, --help                         Print help",
      "  -V, --version                      Print version"]

/-- The text of an error. -/
def ArgumentsError.message : ArgumentsError → String
  | .unknownArgument => "unexpected argument found"
  | .missingValue => "a value is required but none was supplied"
  | .unwantedValue => "unexpected value found"
  | .repeated => "the argument cannot be used multiple times"
  | .helpRequested => Arguments.usage
  | .versionRequested => Arguments.versionLine

/-- Whether what is printed is what was asked for. -/
def ArgumentsError.isAnswer : ArgumentsError → Bool
  | .helpRequested => true
  | .versionRequested => true
  | _ => false

end WorkspaceSync
