import LogRouter.Files.Error
import LogRouter.Route.Error

/-!
# Errors of sinks

`SinkError` lists why a sink or a writer cannot be built, flushed or closed; `SinkError.message`
words each reason, and `SinkError.causes` the errors behind it.
-/

namespace LogRouter

/-- Why a sink or a writer cannot be built, flushed or closed. -/
inductive SinkError where
  | routing (cause : RoutingError)
  /-- A setting makes no sense. -/
  | config (reason : String)
  | emptyDestination
  /-- The place of a destination cannot be prepared. -/
  | resolve (destination : String) (cause : IoError)
  | invalidPattern (pattern : String)
  | flush (destination : String) (cause : IoError)
  | close (destination : String) (cause : IoError)
  | io (cause : IoError)
  deriving DecidableEq, Repr

namespace SinkError

/-- The wording of an error. -/
def message : SinkError → String
  | routing cause => "routing error: " ++ cause.message
  | config reason => "configuration error: " ++ reason
  | emptyDestination => "destination path is empty"
  | resolve destination cause =>
    "cannot resolve destination '" ++ destination ++ "': " ++ cause.message
  | invalidPattern pattern => "invalid time pattern '" ++ pattern ++ "'"
  | flush destination cause => "flush failed for '" ++ destination ++ "': " ++ cause.message
  | close destination cause => "close failed for '" ++ destination ++ "': " ++ cause.message
  | io cause => "I/O error: " ++ cause.message

/-- The wordings of the errors behind an error. -/
def causes : SinkError → List String
  | routing cause => [cause.message]
  | config _ | emptyDestination | invalidPattern _ => []
  | resolve _ cause | flush _ cause | close _ cause | io cause => [cause.message]

end SinkError

end LogRouter
