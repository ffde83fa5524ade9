import LogRouter.CommandLine.Arguments

/-!
# Help

`Topic.text` is what the program says about itself and its commands.
-/

namespace LogRouter.CommandLine

/-- The help about the option `--config`. -/
def configHelp : String :=
  "  -c, --config <CONFIG>        Path to configuration file [default: configs/scribe.toml]\n"

/-- The help about the option `--log-level`. -/
def logLevelHelp : String :=
  "      --log-level <LOG_LEVEL>  Diagnostics level on stderr (trace, debug, info, warn, error) " ++
    "[default: warn]\n"

/-- The help about the option `--help`. -/
def helpHelp : String := "  -h, --help                   Print help\n"

/-- The help about the options that every command takes, which stands behind that about its own. -/
def sharedHelp : String := configHelp ++ logLevelHelp ++ helpHelp

/-- The help about a topic. -/
def Topic.text : Topic → String
  | program =>
    "Scribe - Level-routed log output\n\n" ++
    "Usage: scribe [OPTIONS] <COMMAND>\n\n" ++
    "Commands:\n" ++
    "  check  Validate configuration and print the routing table\n" ++
    "  pipe   Route stdin lines through the configured sink\n" ++
    "  help   Print this message or the help of the given subcommand(s)\n\n" ++
    "Options:\n" ++ sharedHelp ++
    "  -V, --version                Print version\n"
  | check =>
    "Validate configuration and print the routing table\n\n" ++
    "Usage: scribe check [OPTIONS]\n\n" ++
    "Options:\n" ++
    "      --strict                 Treat ignored level_destinations entries as errors\n" ++
    sharedHelp
  | pipe =>
    "Route stdin lines through the configured sink\n\n" ++
    "Usage: scribe pipe [OPTIONS]\n\n" ++
    "Options:\n" ++
    "      --level <LEVEL>          Severity for lines without a level prefix [default: info]\n" ++
    "      --target <TARGET>        Logger name recorded on every line [default: stdin]\n" ++
    sharedHelp
  | help =>
    "Print this message or the help of the given subcommand(s)\n\n" ++
    "Usage: scribe help [COMMAND]...\n\n" ++
    "Arguments:\n" ++
    "  [COMMAND]...  Print help for the subcommand(s)\n"

/-- The version of the program. -/
def versionText : String := "scribe 0.1.0\n"

/-- What is said about arguments that make no sense. -/
def misuseText : String :=
  "error: the arguments make no sense\n\nUsage: scribe [OPTIONS] <COMMAND>\n\n" ++
    "For more information, try '--help'.\n"

end LogRouter.CommandLine
