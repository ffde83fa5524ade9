/-!
# Routing errors

`RoutingError` lists what can be wrong with the names and rules of a configuration;
`RoutingError.message` words each of them.
-/

namespace LogRouter

/-- What can be wrong with routing names and rules. -/
inductive RoutingError where
  /-- No severity has this name. -/
  | unknownLevel (name : String)
  /-- No routing mode has this name. -/
  | unknownMode (name : String)
  /-- Every writer number is taken. -/
  | tooManyDestinations (destination : String)
  /-- No rule is left that writes anywhere. -/
  | noRoutes
  deriving DecidableEq, Repr

/-- The wording of a routing error. -/
def RoutingError.message : RoutingError → String
  | unknownLevel name => "unknown log level '" ++ name ++ "'"
  | unknownMode name =>
    "unknown routing mode '" ++ name ++ "' (expected duplicate, above or exact)"
  | tooManyDestinations destination =>
    "too many destinations, cannot register '" ++ destination ++ "'"
  | noRoutes => "no valid log output configured"

end LogRouter
