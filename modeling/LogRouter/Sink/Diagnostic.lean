import LogRouter.Record.Encoder
import LogRouter.Route.Table
import LogRouter.Sink.Reports

/-!
# Diagnostics

What a program says about its own work is a warning on standard error, beside the records it
writes.

* `Diagnostic`: a warning with the part of the program that gives it.
* `Diagnostic.line`: the line of a warning, with escape sequences for a terminal.
-/

namespace LogRouter

/-- A warning of a program about its own work. -/
structure Diagnostic where
  /-- The part of the program that gives it. -/
  target : String
  message : String
  fields : List (String × String)
  deriving DecidableEq, Repr

namespace Diagnostic

/-- What the compilation of rules says about a discarded one. -/
def ofDiscard (discard : Discard) : Diagnostic :=
  ⟨"scribe_routing::table", discard.message, discard.fields⟩

/-- What the building of a sink says about a level key that is ignored. -/
def ofIgnoredKey (levelKey : String) : Diagnostic :=
  ⟨"scribe_sinks::composite", "level_destinations entry ignored", [("level_key", levelKey)]⟩

/-- What a sink says about a write that failed. -/
def ofReport (report : Report) : Diagnostic :=
  ⟨"scribe_sinks::util::rate_limited_logger", report.message, report.fields⟩

/-! ## Lines -/

/-- The items of the time of a warning. -/
def timeItems : List Item :=
  [.zeroed .year, .literal ['-'], .zeroed .month, .literal ['-'], .zeroed .day, .literal ['T'],
   .zeroed .hour, .literal [':'], .zeroed .minute, .literal [':'], .zeroed .second,
   .word (.fraction .micro), .literal ['Z']]

/-- The text between an escape sequence with the given parameters and the one that ends it. -/
def painted (parameters : String) (s : List Char) : List Char :=
  Encoder.escapeSequence parameters ++ (s ++ Encoder.escapeSequence "0")

/-- The text of a field, a space in front of it. -/
def fieldText (field : String × String) : List Char :=
  ' ' :: (painted "3" field.1.toList ++ (painted "2" ['='] ++ field.2.toList))

/-- The line of a warning given at an instant, with its end. -/
def line (time : Instant) (d : Diagnostic) : List Char :=
  let clock := (renderItems? (Moment.ofInstant .utc time) timeItems).getD []
  painted "2" clock ++ ' ' :: (painted "33" " WARN".toList ++ ' ' ::
    (painted "2" d.target.toList ++ (painted "2" [':'] ++ ' ' ::
      (d.message.toList ++ (d.fields.flatMap fieldText ++ ['\n'])))))

end Diagnostic

end LogRouter
