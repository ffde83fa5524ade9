import LogRouter.Level.Filter
import LogRouter.Route.Registry

/-!
# Route tables

* `Rule`: a level key and its destinations, as configured.
* `Rule.key?`: the rule with its key and filter, or the reason why it is discarded.
* `Route`: a filter and the writers behind it, without repetition.
* `RouteTable.compile`: the table of a list of rules. Discarded rules are left out, the others
  are ordered by key (`all` first, then by severity, equal keys in the order of the rules), their
  destinations are registered in that order, and rules without destinations give no route.
-/

namespace LogRouter

/-- A level key and the destinations of its records, as configured. -/
structure Rule where
  levelKey : String
  destinations : List String
  deriving DecidableEq, Repr

/-- Why a rule is left out of the table. -/
inductive Discard where
  /-- The key names no severity. -/
  | unknownLevel (levelKey : String)
  /-- The key is `all`, which only the mode `duplicate` knows. -/
  | catchAll (levelKey : String) (mode : RoutingMode)
  deriving DecidableEq, Repr

namespace Discard

/-- The key of the discarded rule, as configured. -/
def levelKey : Discard → String
  | unknownLevel key => key
  | catchAll key _ => key

/-- The wording of the warning about a discarded rule. -/
def message : Discard → String
  | unknownLevel _ => "dropping routing rule with unknown level"
  | catchAll _ _ => "dropping routing rule: 'all' only applies in duplicate mode"

/-- What the warning names beside the message. -/
def fields : Discard → List (String × String)
  | unknownLevel key => [("level_key", key), ("error", (RoutingError.unknownLevel key).message)]
  | catchAll key mode => [("level_key", key), ("mode", mode.name)]

end Discard

/-- A rule with its key and filter. -/
structure KeyedRule where
  key : LevelKey
  filter : LevelFilter
  destinations : List String
  deriving DecidableEq, Repr

/-- The rule with its key and filter, or the reason why it is discarded. -/
def Rule.keyed (mode : RoutingMode) (minLevel : Severity) (rule : Rule) :
    Except Discard KeyedRule :=
  match LevelKey.ofName? rule.levelKey with
  | none => .error (.unknownLevel rule.levelKey)
  | some key =>
    match mode.filter? minLevel key with
    | none => .error (.catchAll rule.levelKey mode)
    | some filter => .ok ⟨key, filter, rule.destinations⟩

/-- A filter and the writers that take what it accepts. -/
structure Route where
  key : LevelKey
  filter : LevelFilter
  writers : List WriterId
  deriving DecidableEq, Repr

/-- The route takes records of the given severity. -/
def Route.accepts (route : Route) (severity : Severity) : Bool := route.filter.accepts severity

/-- The compiled rules: the routes in the order of delivery, the destinations by their numbers,
and the keys of the discarded rules. -/
structure RouteTable where
  routes : List Route
  destinations : Array String
  skipped : List String
  deriving Repr

namespace RouteTable

/-- The discarded rules, in the order of the rules. -/
def discards (mode : RoutingMode) (minLevel : Severity) (rules : List Rule) : List Discard :=
  rules.filterMap fun rule =>
    match rule.keyed mode minLevel with
    | .error discard => some discard
    | .ok _ => none

/-- The rules that are kept, in the order of the rules. -/
def kept (mode : RoutingMode) (minLevel : Severity) (rules : List Rule) : List KeyedRule :=
  rules.filterMap fun rule =>
    match rule.keyed mode minLevel with
    | .error _ => none
    | .ok keyed => some keyed

/-- The rules in the order of their keys; rules of one key stay in their order. -/
def arranged (rules : List KeyedRule) : List KeyedRule :=
  rules.mergeSort fun a b => a.key.order ≤ b.key.order

/-- The routes of the rules, whose destinations are registered from left to right. -/
def routesOf (registry : Registry) : List KeyedRule → Except RoutingError (List Route × Registry)
  | [] => .ok ([], registry)
  | rule :: rest =>
    match registry.registerAll rule.destinations with
    | .error e => .error e
    | .ok (ids, registry) =>
      match routesOf registry rest with
      | .error e => .error e
      | .ok (routes, registry) =>
        if ids.isEmpty then .ok (routes, registry)
        else .ok (⟨rule.key, rule.filter, ids.eraseDups⟩ :: routes, registry)

/-- Compiles rules into a table, behind the destinations that are registered already. -/
def compile (registry : Registry) (mode : RoutingMode) (minLevel : Severity) (rules : List Rule) :
    Except RoutingError RouteTable :=
  match routesOf registry (arranged (kept mode minLevel rules)) with
  | .error e => .error e
  | .ok ([], _) => .error .noRoutes
  | .ok (routes, registry) =>
    .ok ⟨routes, registry.destinations, (discards mode minLevel rules).map Discard.levelKey⟩

/-- Some route takes records of the given severity. -/
def accepts (table : RouteTable) (severity : Severity) : Bool :=
  table.routes.any (·.accepts severity)

/-- The routes that take records of the given severity. -/
def routesFor (table : RouteTable) (severity : Severity) : List Route :=
  table.routes.filter (·.accepts severity)

/-- The least severity that some route takes. -/
def minLevel? (table : RouteTable) : Option Severity :=
  Severity.all.find? fun severity => table.routes.any (·.filter.floor = severity)

/-- The destination with the given number. -/
def destination? (table : RouteTable) (id : WriterId) : Option String :=
  table.destinations[id.place]?

end RouteTable

end LogRouter
