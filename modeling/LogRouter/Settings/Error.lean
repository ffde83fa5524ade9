import LogRouter.Files.Error
import LogRouter.Label.Pattern
import LogRouter.Route.Error

/-!
# Errors of configurations

`SettingsError` lists why a configuration is refused; `SettingsError.message` words each reason and
`SettingsError.causes` the errors behind it.
-/

namespace LogRouter

/-- Why the values of a document make no settings. -/
inductive ValueFault where
  /-- A level or a mode has a name that is not known. -/
  | unknownName (cause : RoutingError)
  /-- A value is not of the kind that its key asks for, or the document is no TOML. -/
  | malformed
  deriving DecidableEq, Repr

/-- Why a configuration is refused. -/
inductive SettingsError where
  /-- The file cannot be read. -/
  | unreadable (path : String) (cause : IoError)
  /-- The text is no configuration. -/
  | unparsable (fault : ValueFault)
  /-- Routing by level has no rules. -/
  | noLevelDestinations
  /-- There is nowhere to write to. -/
  | noDestinations
  /-- A destination is blank. -/
  | blankDestination
  /-- The largest size of files is zero. -/
  | zeroSize
  /-- The time pattern cannot be used. -/
  | badPattern (text : String) (fault : PatternFault)
  deriving DecidableEq, Repr

/-- The wording of a fault in a document. -/
def ValueFault.message : ValueFault → String
  | unknownName cause => "TOML parse error\n" ++ cause.message
  | malformed => "TOML parse error"

namespace SettingsError

/-- The wording of an error. -/
def message : SettingsError → String
  | unreadable path cause => "failed to read config file '" ++ path ++ "': " ++ cause.message
  | unparsable fault => "failed to parse config: " ++ fault.message
  | noLevelDestinations =>
    "no log destinations configured - level routing is enabled but level_destinations is empty"
  | noDestinations => "no log destinations configured - destinations is empty"
  | blankDestination => "output has invalid destinations: destination paths must not be empty"
  | zeroSize => "output.rotation has invalid max_size_mb: must be greater than 0"
  | badPattern text fault => "output.rotation has invalid time_pattern: " ++ fault.message text

/-- The wordings of the errors behind an error. -/
def causes : SettingsError → List String
  | unreadable _ cause => [cause.message]
  | unparsable fault => [fault.message]
  | _ => []

end SettingsError

end LogRouter
