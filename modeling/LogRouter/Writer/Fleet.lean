import LogRouter.Writer.Console
import LogRouter.Writer.SizeWriter
import LogRouter.Writer.TimeWriter

/-!
# Writers of a program

* `LogWriter`: a writer to a standard stream or to the files of a path.
* `Fleet`: the writers of a program by their numbers, with the host they write to and the clock
  they read.
* `Fleet.write`, `Fleet.sync`, `Fleet.close`: the operations on the writer with a number.
* `Fleet.maintain`: runs the sweeps that the writers have asked for.
-/

namespace LogRouter

/-- A writer to a standard stream or to the files of a path. -/
inductive LogWriter where
  | console (stream : Stream)
  | byTime (writer : TimeWriter)
  | bySize (writer : SizeWriter)

namespace LogWriter

/-- The name of a writer: its stream or its path. -/
def name : LogWriter → String
  | console stream => stream.name
  | byTime writer => writer.base.text
  | bySize writer => writer.path.text

/-- The writer owns files. -/
def isFileBacked : LogWriter → Bool
  | console _ => false
  | _ => true

/-- The sweeps of the writer are run by a worker, which is started with the writer. -/
def hasWorker : LogWriter → Bool
  | console _ => false
  | byTime writer => writer.policy.isActive
  | bySize writer => writer.policy.isActive || writer.maxBackups != 0

/-- Writes bytes at an instant, and returns their number. -/
def write (w : LogWriter) (host : Host) (now : Instant) (bytes : Bytes) :
    Except IoError Nat × LogWriter × Host :=
  match w with
  | console stream => (.ok bytes.length, console stream, host.print stream bytes)
  | byTime writer =>
    let (result, writer, fs) := writer.write host.fs now bytes
    (result, byTime writer, { host with fs := fs })
  | bySize writer =>
    let (result, writer, fs) := writer.write host.fs now bytes
    (result, bySize writer, { host with fs := fs })

/-- Hands what was written to the device. -/
def sync : LogWriter → Except IoError Unit
  | console _ => .ok ()
  | byTime writer => writer.sync
  | bySize writer => writer.sync

/-- Closes the open file; a stream stays open. -/
def close : LogWriter → Except IoError Unit × LogWriter
  | console stream => (.ok (), console stream)
  | byTime writer => (writer.close.1, byTime writer.close.2)
  | bySize writer => (writer.close.1, bySize writer.close.2)

/-- The sweeps that have not run yet. -/
def pending : LogWriter → List SweepRequest
  | console _ => []
  | byTime writer => writer.pending
  | bySize writer => writer.pending

/-- The writer without sweeps to run. -/
def settled : LogWriter → LogWriter
  | console stream => console stream
  | byTime writer => byTime { writer with pending := [] }
  | bySize writer => bySize { writer with pending := [] }

end LogWriter

/-- The writers of a program by their numbers, the host they write to and the clock they read. -/
structure Fleet where
  host : Host
  now : Instant
  writers : List LogWriter

namespace Fleet

/-- The writer with a number. -/
def writer? (fleet : Fleet) (i : Nat) : Option LogWriter := fleet.writers[i]?

/-- The fleet with another writer under a number. -/
def setWriter (fleet : Fleet) (i : Nat) (w : LogWriter) : Fleet :=
  { fleet with writers := fleet.writers.set i w }

/-- Adds a writer, and returns its number. -/
def add (fleet : Fleet) (w : LogWriter) : Nat × Fleet :=
  (fleet.writers.length, { fleet with writers := fleet.writers ++ [w] })

/-- Writes bytes through the writer with a number. -/
def write (i : Nat) (bytes : Bytes) (fleet : Fleet) : Except IoError Nat × Fleet :=
  match fleet.writer? i with
  | none => (.error .notOpen, fleet)
  | some w =>
    let (result, w, host) := w.write fleet.host fleet.now bytes
    (result, { fleet with host := host }.setWriter i w)

/-- Syncs the writer with a number. -/
def sync (i : Nat) (fleet : Fleet) : Except IoError Unit × Fleet :=
  match fleet.writer? i with
  | none => (.error .notOpen, fleet)
  | some w => (w.sync, fleet)

/-- Closes the writer with a number. -/
def close (i : Nat) (fleet : Fleet) : Except IoError Unit × Fleet :=
  match fleet.writer? i with
  | none => (.error .notOpen, fleet)
  | some w => (w.close.1, fleet.setWriter i w.close.2)

/-- The writer with a number owns files. -/
def isFileBacked (i : Nat) (fleet : Fleet) : Bool :=
  match fleet.writer? i with
  | none => false
  | some w => w.isFileBacked

/-- Runs the sweeps that the writers have asked for, those of one writer in their order. -/
def maintain (fleet : Fleet) : Fleet :=
  let requests := fleet.writers.flatMap LogWriter.pending
  { fleet with
    host := { fleet.host with fs := SweepRequest.runAll requests fleet.host.fs }
    writers := fleet.writers.map LogWriter.settled }

end Fleet

end LogRouter
