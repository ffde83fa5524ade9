import LogRouter.CommandLine.Error
import LogRouter.Sink.Composite

/-!
# Logging the lines of an input

Each line gives one record; empty lines give none. A severity in front of the first colon of a line
is the severity of the record, and what follows the colon its message.

* `splitLevel`: the severity and the message of a line.
* `Pipe.feed`: logs one line; `Pipe.feedBytes?` takes it undecoded.
* `Pipe.finish`: flushes and closes the sink and tells whether all went well.
* `Pipe.run`: the lines of an input, up to the first that is not UTF-8. In that case the sink is
  neither flushed nor closed.
-/

namespace LogRouter.CommandLine

/-- How the lines of an input are logged. -/
structure PipeOptions where
  /-- The severity of a line that names none. -/
  level : Severity
  target : String
  deriving DecidableEq, Repr

/-- What the lines of an input go to. -/
structure PipeHost (σ : Type) where
  outlet : Outlet σ
  /-- Sets the clock. -/
  tick : Instant → σ → σ

/-- The severity and the message of a line. -/
def splitLevel (level : Severity) (line : List Char) : Severity × List Char :=
  match line.dropWhile (· ≠ ':') with
  | [] => (level, line)
  | _ :: rest =>
    match Severity.ofName? (String.ofList (line.takeWhile (· ≠ ':'))) with
    | some severity => (severity, Text.trimStart rest)
    | none => (level, line)

/-- How far the lines of an input are logged. -/
structure Pipe (σ : Type) where
  sink : Sink
  world : σ
  /-- The number of records that reached no destination. -/
  undelivered : Nat

namespace Pipe

variable {σ : Type}

/-- Nothing was logged. -/
def start (sink : Sink) (world : σ) : Pipe σ := ⟨sink, world, 0⟩

/-- The record of a line that is not empty. -/
def recordOf (options : PipeOptions) (time : Instant) (line : List Char) : Record :=
  let (severity, message) := splitLevel options.level line
  ⟨time, severity, options.target, String.ofList message, []⟩

/-- No write of a record succeeded. -/
def isLost (result : Except EmitError Unit) : Bool :=
  match result with
  | .ok _ => false
  | .error e => e.isTotal

/-- Logs one line. -/
def feed (host : PipeHost σ) (options : PipeOptions) (time : Instant) (p : Pipe σ)
    (line : List Char) : Pipe σ :=
  if line.isEmpty then p
  else
    let outcome := p.sink.log host.outlet time.total.toNat (host.tick time p.world)
      (recordOf options time line)
    { sink := outcome.sink
      world := outcome.world
      undelivered := if isLost outcome.result then p.undelivered + 1 else p.undelivered }

/-- Logs one line, if it is UTF-8. -/
def feedBytes? (host : PipeHost σ) (options : PipeOptions) (time : Instant) (p : Pipe σ)
    (bytes : Bytes) : Option (Pipe σ) :=
  (Utf8.decode? bytes).map (p.feed host options time)

/-- Flushes and closes the sink, and tells whether all went well. -/
def finish (host : PipeHost σ) (p : Pipe σ) : Except CommandError Unit × σ :=
  let (flushed, sink, world) := p.sink.flush host.outlet p.world
  let (closed, _, world) := sink.close host.outlet world
  match closed, flushed with
  | .error e, _ => (.error (.close e), world)
  | .ok _, .error e => (.error (.flush e), world)
  | .ok _, .ok _ =>
    (if p.undelivered = 0 then .ok () else .error (.undelivered p.undelivered), world)

/-- Logs the lines of an input, each at its instant. -/
def run (host : PipeHost σ) (options : PipeOptions) (p : Pipe σ) :
    List (Instant × Bytes) → Except CommandError Unit × σ
  | [] => p.finish host
  | (time, bytes) :: rest =>
    match p.feedBytes? host options time bytes with
    | none => (.error .unreadableInput, p.world)
    | some p => run host options p rest

end Pipe

end LogRouter.CommandLine
