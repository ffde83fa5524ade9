import LogRouter.Files.FileSystem
import LogRouter.Settings.Document
import LogRouter.Toml.Document

/-!
# Loading settings

* `Settings.check`: the first thing that keeps settings from being used.
* `Settings.ofText`: the settings in the text of a configuration.
* `Settings.load`: the settings in a file.

The names of levels among the destinations are not checked; a rule with an unknown one is
discarded when the rules are compiled.
-/

namespace LogRouter.Settings

/-- What keeps the destinations from being used. -/
def checkDestinations (s : Settings) : Except SettingsError Unit :=
  if s.levelRouting ∧ s.levelDestinations = [] then .error .noLevelDestinations
  else if ¬ s.levelRouting ∧ s.destinations = [] then .error .noDestinations
  else if s.referenced.any fun destination => Text.allBlank destination.toList then
    .error .blankDestination
  else .ok ()

/-- What keeps the rotation settings from being used. The time pattern matters only if files are
rotated by time. -/
def checkRotation (r : Rotation) : Except SettingsError Unit :=
  if r.maxSizeMb = 0 then .error .zeroSize
  else if r.byTime then
    match TimePattern.ofString r.timePattern with
    | .ok _ => .ok ()
    | .error fault => .error (.badPattern r.timePattern fault)
  else .ok ()

/-- The settings, unless something keeps them from being used. -/
def check (s : Settings) : Except SettingsError Settings := do
  s.checkDestinations
  checkRotation s.rotation
  return s

/-- The settings in the text of a configuration. -/
def ofText (text : List Char) : Except SettingsError Settings :=
  match Toml.read? text with
  | none => .error (.unparsable .malformed)
  | some members =>
    match ofMembers members with
    | .error fault => .error (.unparsable fault)
    | .ok s => s.check

/-- The settings in a file. -/
def load (fs : FileSystem) (path : Path) : Except SettingsError Settings :=
  match fs.readText path with
  | .error e => .error (.unreadable path.text e)
  | .ok text => ofText text.toList

end LogRouter.Settings
