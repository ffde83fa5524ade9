import LogRouter.Json.Printer
import LogRouter.Label.Render
import LogRouter.Record.Basic
import LogRouter.Text.Blank
import LogRouter.Text.Utf8

/-!
# Encoding records

An encoder turns a record into one line.

* `Encoder.json`: a JSON object with the time, the level, the target and the message, then the
  fields. A field whose key is one of these four gets another one.
* `Encoder.text`: the time, the level in brackets, the target if there is one, the message, and the
  fields as `key=value`. The level may be colored.
* `Encoder.line`: the line of a record; `Encoder.encode`: its bytes.

A string stands bare in a field of a text line unless that would not tell where it ends.
-/

namespace LogRouter

/-- How a record is turned into a line. -/
inductive Encoder where
  | json
  | text (color : Bool)
  deriving DecidableEq, Repr

namespace Encoder

/-- The items of the time of a record. -/
def timeItems : List Item :=
  [.zeroed .year, .literal ['-'], .zeroed .month, .literal ['-'], .zeroed .day, .blanks [' '],
   .zeroed .hour, .literal [':'], .zeroed .minute, .literal [':'], .zeroed .second,
   .word (.fraction .milli)]

/-- The time of a record as it is written. -/
def timeText (zone : Zone) (time : Instant) : List Char :=
  (renderItems? (Moment.ofInstant zone time) timeItems).getD []

/-! ## JSON lines -/

/-- The keys that every JSON line has. -/
def reservedKeys : List String := ["timestamp", "level", "logger", "message"]

/-- The key of a field on a JSON line. -/
def fieldKey (key : String) : String := if key ∈ reservedKeys then "field." ++ key else key

/-- The fields on a JSON line. If one of them needs another key, they are ordered anew, and of two
with one key the last is kept. -/
def envelopeFields (fields : Json.Members) : Json.Members :=
  if fields.any fun (k, _) => decide (k ∈ reservedKeys) then
    Json.sortMembers (fields.map fun (k, v) => (fieldKey k, v))
  else fields

/-- The object on the JSON line of a record. -/
def envelope (zone : Zone) (r : Record) : Json :=
  .object ([("timestamp", .string (String.ofList (timeText zone r.time))),
    ("level", .string r.severity.name), ("logger", .string r.target),
    ("message", .string r.message)] ++ envelopeFields r.fields)

/-! ## Text lines -/

/-- The escape sequence with the given parameters. -/
def escapeSequence (parameters : String) : List Char :=
  '\x1b' :: '[' :: (parameters.toList ++ ['m'])

/-- The parameters of the color of a severity. -/
def colorOf : Severity → String
  | .fatal => "31;1"
  | .error => "31"
  | .warn => "33"
  | .info => "32"
  | .debug => "34"
  | .trace => "2"

/-- The severity in brackets, colored if asked for. -/
def severityLabel (color : Bool) (severity : Severity) : List Char :=
  let label := '[' :: (severity.upperName.toList ++ [']'])
  if color then escapeSequence (colorOf severity) ++ (label ++ escapeSequence "0") else label

/-- A string stands in quotes, because bare it would not tell where it ends. -/
def needsQuotes (s : List Char) : Bool :=
  s.isEmpty || s.any fun c => Text.isBlank c || c == '=' || c == '"'

/-- The value of a field on a text line. -/
def fieldValue : Json → List Char
  | .string s => if needsQuotes s.toList then Json.quote s else s.toList
  | v => v.render

/-- The fields on a text line, a space in front of each. -/
def fieldsText (fields : Json.Members) : List Char :=
  fields.flatMap fun (k, v) => ' ' :: (k.toList ++ '=' :: fieldValue v)

/-- The target on a text line, a space in front of it. -/
def targetText (target : String) : List Char :=
  if target.isEmpty then [] else ' ' :: target.toList

/-- The text line of a record, without its end. -/
def textLine (zone : Zone) (color : Bool) (r : Record) : List Char :=
  timeText zone r.time ++ ' ' :: (severityLabel color r.severity ++ (targetText r.target ++
    ' ' :: (r.message.toList ++ fieldsText r.fields)))

/-! ## Both -/

/-- The line of a record, with its end. -/
def line (encoder : Encoder) (zone : Zone) (r : Record) : List Char :=
  match encoder with
  | json => (envelope zone r).render ++ ['\n']
  | text color => textLine zone color r ++ ['\n']

/-- The bytes of the line of a record. -/
def encode (encoder : Encoder) (zone : Zone) (r : Record) : Bytes :=
  Utf8.encode (encoder.line zone r)

end Encoder

end LogRouter
