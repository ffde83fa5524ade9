import LogRouter.Settings.Basic
import LogRouter.Sink.Composite
import LogRouter.Sink.Diagnostic
import LogRouter.Sink.Resolver

/-!
# Building a sink

* `Fleet.outlet`: the operations on the writers of a program.
* `Sink.build`: the sink that settings describe. The rules are compiled, then the writer of every
  destination is made or found, and nothing is built if one of them fails.
* `Settings.warnings`: what is said about rules that are discarded.
-/

namespace LogRouter

/-- The operations on the writers of a program. -/
def Fleet.outlet : Outlet Fleet where
  write := Fleet.write
  sync := Fleet.sync
  close := Fleet.close
  isFileBacked := Fleet.isFileBacked

/-- The table of the rules. -/
def Settings.table (s : Settings) : Except RoutingError RouteTable :=
  RouteTable.compile .empty s.effectiveMode s.level s.rules

/-- What is said about the rules while a sink is built. -/
def Settings.warnings (s : Settings) : List Diagnostic :=
  let discards := RouteTable.discards s.effectiveMode s.level s.rules
  discards.map Diagnostic.ofDiscard ++
    match s.table with
    | .ok table => table.skipped.map Diagnostic.ofIgnoredKey
    | .error _ => []

/-- The sink that settings describe. -/
def Sink.build (s : Settings) (resolver : Resolver) (fleet : Fleet) :
    Except SinkError Sink × Resolver × Fleet :=
  match s.table with
  | .error e => (.error (.routing e), resolver, fleet)
  | .ok table =>
    match resolver.resolveAll fleet table.destinations.toList with
    | (.error e, resolver, fleet) => (.error e, resolver, fleet)
    | (.ok writers, resolver, fleet) =>
      (Sink.ofParts resolver.zone table writers s.encoder, resolver, fleet)

end LogRouter
