import LogRouter.Record.Encoder
import LogRouter.Route.Table
import LogRouter.Writer.Rotation

/-!
# Settings

* `Settings`: what a configuration says about the output of records.
* `Settings.rules`: the routing rules. Without level routing all destinations form one rule for
  `all`, which takes the mode `duplicate`.
* `Settings.referenced`: the destinations of these rules, each once.
-/

namespace LogRouter

/-- The format of the lines. -/
inductive LogFormat where
  | console
  | json
  deriving DecidableEq, Repr

namespace LogFormat

/-- The format with a name, which is taken literally. -/
def ofName? (name : String) : Option LogFormat :=
  match name with
  | "console" => some console
  | "json" => some json
  | _ => none

/-- The encoder of a format. Lines in JSON are never colored. -/
def encoder (color : Bool) : LogFormat → Encoder
  | console => .text color
  | json => .json

end LogFormat

/-- What a configuration says about the output of records. -/
structure Settings where
  /-- The minimum level of the rule for `all`. -/
  level : Severity
  format : LogFormat
  /-- The levels on console lines are colored. -/
  color : Bool
  /-- Where records go without level routing. -/
  destinations : List String
  /-- Route by level, not to all destinations alike. -/
  levelRouting : Bool
  mode : RoutingMode
  /-- The destinations of each level key, in ascending order of the keys. -/
  levelDestinations : List (String × List String)
  rotation : Rotation
  deriving DecidableEq, Repr

namespace Settings

/-- The settings of an empty configuration. -/
def initial : Settings :=
  { level := .info
    format := .console
    color := false
    destinations := ["stdout"]
    levelRouting := false
    mode := .above
    levelDestinations := []
    rotation := .initial }

/-- The mode that the rules are compiled in. -/
def effectiveMode (s : Settings) : RoutingMode := if s.levelRouting then s.mode else .duplicate

/-- The routing rules. -/
def rules (s : Settings) : List Rule :=
  if s.levelRouting then s.levelDestinations.map fun (key, destinations) => ⟨key, destinations⟩
  else [⟨"all", s.destinations⟩]

/-- The destinations of the rules, each once and in the order of the rules. -/
def referenced (s : Settings) : List String := (s.rules.flatMap Rule.destinations).eraseDups

/-- The encoder of the lines. -/
def encoder (s : Settings) : Encoder := s.format.encoder s.color

end Settings

end LogRouter
