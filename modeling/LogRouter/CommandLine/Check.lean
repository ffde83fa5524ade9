import LogRouter.CommandLine.Error
import LogRouter.Settings.Basic
import LogRouter.Sink.Composite

/-!
# Showing the routes of a configuration

* `Sink.overview`: the lines about the routes of a sink.
* `CommandLine.strictness`: the complaint about discarded rules.
-/

namespace LogRouter

/-- A text in a column of the given width. -/
def CommandLine.column (width : Nat) (s : String) : String :=
  s ++ String.ofList (List.replicate (width - s.length) ' ')

/-- The line about a route. -/
def RouteTable.routeLine (table : RouteTable) (route : Route) : String :=
  "  " ++ CommandLine.column 8 route.key.name ++ " " ++ CommandLine.column 9 route.filter.text ++ " " ++
    String.intercalate ", " (route.writers.filterMap table.destination?) ++ "\n"

/-- The line about a key that was ignored. -/
def RouteTable.skippedLine (levelKey : String) : String :=
  "  ignored level key: " ++ levelKey ++ "\n"

/-- The lines about the routes of a sink. -/
def Sink.overview (mode : RoutingMode) (sink : Sink) : String :=
  let least :=
    match sink.minLevel? with
    | some severity => severity.name
    | none => "-"
  "mode: " ++ mode.name ++ "   min level: " ++ least ++ "   writers: " ++
    toString sink.slots.length ++ "\n" ++
    String.join (sink.table.routes.map sink.table.routeLine) ++
    String.join (sink.table.skipped.map RouteTable.skippedLine)

/-- The complaint about discarded rules, if they must not be. -/
def CommandLine.strictness (strict : Bool) (table : RouteTable) : Except CommandError Unit :=
  if strict ∧ table.skipped ≠ [] then .error (.ignoredEntries table.skipped.length) else .ok ()

end LogRouter
