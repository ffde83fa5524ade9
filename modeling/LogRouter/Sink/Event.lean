import LogRouter.Sink.Composite
import LogRouter.Text.Printable

/-!
# Events of a program

A program tells what happens in it by events. `Sink.observe` turns an event into a record and logs
it.

* `Event`: where an event comes from, the spans it happens in, and its fields in their order.
* `Event.content`: the message and the other fields.
* `Event.isOwn`: the event comes from the sink itself. Such events are not logged; a destination
  that fails would report its failures to itself.
-/

namespace LogRouter

/-- How severe an event is. -/
inductive EventLevel where
  | trace
  | debug
  | info
  | warn
  | error
  deriving DecidableEq, Repr

/-- The severity of the record of an event. -/
def EventLevel.severity : EventLevel → Severity
  | trace => .trace
  | debug => .debug
  | info => .info
  | warn => .warn
  | error => .error

/-- The value of a field of an event. -/
inductive FieldValue where
  /-- A text, taken as it is. -/
  | text (value : String)
  /-- A text that is shown as it would be written in a program. -/
  | quoted (value : String)
  /-- An integer of at most 64 bits. -/
  | integer (value : Int)
  /-- An integer of any size, which is shown as a text. -/
  | wide (value : Int)
  /-- A real number; `none` if it is infinite or not a number. -/
  | real (value : Option Binary64)
  | truth (value : Bool)
  deriving DecidableEq, Repr

namespace FieldValue

/-- The text of a value that is shown as a text. -/
def text? : FieldValue → Option String
  | text s => some s
  | quoted s => some (String.ofList (Text.debugText s.toList))
  | wide n => some (String.ofList (Json.integerText n))
  | _ => none

/-- The value on a record. -/
def toJson : FieldValue → Json
  | text s => .string s
  | quoted s => .string (String.ofList (Text.debugText s.toList))
  | wide n => .string (String.ofList (Json.integerText n))
  | integer n => .number (.integer n)
  | real (some x) => .number (.real x)
  | real none => .null
  | truth b => .bool b

end FieldValue

/-- An event of a program. -/
structure Event where
  level : EventLevel
  /-- The part of the program that the event comes from. -/
  target : String
  /-- The names of the spans that the event happens in, the outermost first. -/
  spans : List String
  fields : List (String × FieldValue)
  deriving DecidableEq, Repr

namespace Event

/-- The event comes from the sink itself. -/
def isOwn (e : Event) : Bool := "scribe_sinks".toList.isPrefixOf e.target.toList

/-- Adds a field to a message and fields. The field `message` gives the message if it is a text. -/
def addField (content : String × Json.Members) (field : String × FieldValue) :
    String × Json.Members :=
  let (message, fields) := content
  let (name, value) := field
  match name == "message", value.text? with
  | true, some message => (message, fields)
  | _, _ => (message, Json.insertMember name value.toJson fields)

/-- The message and the other fields. -/
def content (e : Event) : String × Json.Members := e.fields.foldl addField ("", [])

/-- What stands in front of the message: the names of the spans. -/
def origin (e : Event) : String :=
  if e.spans.isEmpty then "" else String.intercalate "::" e.spans ++ ": "

/-- The record of an event at an instant. -/
def record (e : Event) (time : Instant) : Record where
  time := time
  severity := e.level.severity
  target := e.target
  message := e.origin ++ e.content.1
  fields := e.content.2

end Event

/-- Logs an event, unless it comes from the sink itself or nothing takes its severity. -/
def Sink.observe {σ : Type} (outlet : Outlet σ) (now : Nat) (time : Instant) (sink : Sink)
    (world : σ) (e : Event) : Sink.Outcome σ :=
  if e.isOwn then ⟨.ok (), [], sink, world⟩ else sink.log outlet now world (e.record time)

end LogRouter
