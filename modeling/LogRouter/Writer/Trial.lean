import LogRouter.Files.Error
import LogRouter.Sink.Composite
import LogRouter.Text.Lines

/-!
# Writers for trials

* `TrialWriter`: a writer that keeps everything, one that always fails, or one that refuses chosen
  operations.
* `TrialWriter.outlet`: the operations on a list of such writers.
-/

namespace LogRouter

/-- An operation on a writer. -/
inductive WriterAction where
  | write
  | sync
  | close
  deriving DecidableEq, Repr

/-- The name of an operation. -/
def WriterAction.name : WriterAction → String
  | write => "write"
  | sync => "sync"
  | close => "close"

/-- What a writer in memory holds and how often it was used. -/
structure Memory where
  content : Bytes
  writes : Nat
  syncs : Nat
  closes : Nat
  deriving DecidableEq, Repr

namespace Memory

/-- Nothing was written. -/
def blank : Memory := ⟨[], 0, 0, 0⟩

/-- What was written, as text. -/
def text (m : Memory) : List Char := Utf8.decodeLossy m.content

/-- The lines that were written. -/
def lines (m : Memory) : List (List Char) := Text.lines '\n' '\r' m.text

end Memory

/-- A writer to try a sink with. -/
inductive TrialWriter where
  /-- Keeps everything. -/
  | memory (name : String) (held : Memory)
  /-- Takes no bytes and cannot sync. -/
  | failing (name : String) (attempts : Nat)
  /-- Refuses the given operations. -/
  | scripted (name : String) (fileBacked : Bool) (refused : List WriterAction)
  deriving DecidableEq, Repr

namespace TrialWriter

/-- The result of an operation that may be refused. -/
def attempt {α : Type} (name : String) (refused : List WriterAction) (action : WriterAction)
    (value : α) : Except IoError α :=
  if action ∈ refused then .error (.brokenPipe (name ++ " " ++ action.name ++ " refused"))
  else .ok value

/-- Writes bytes. -/
def write (bytes : Bytes) : TrialWriter → Except IoError Nat × TrialWriter
  | memory name held =>
    (.ok bytes.length,
      memory name { held with content := held.content ++ bytes, writes := held.writes + 1 })
  | failing name attempts => (.error (.other (name ++ " is unavailable")), failing name (attempts + 1))
  | scripted name fileBacked refused =>
    (attempt name refused .write bytes.length, scripted name fileBacked refused)

/-- Syncs the writer. -/
def sync : TrialWriter → Except IoError Unit × TrialWriter
  | memory name held => (.ok (), memory name { held with syncs := held.syncs + 1 })
  | failing name attempts => (.error (.other (name ++ " cannot sync")), failing name attempts)
  | scripted name fileBacked refused =>
    (attempt name refused .sync (), scripted name fileBacked refused)

/-- Closes the writer. -/
def close : TrialWriter → Except IoError Unit × TrialWriter
  | memory name held => (.ok (), memory name { held with closes := held.closes + 1 })
  | failing name attempts => (.ok (), failing name attempts)
  | scripted name fileBacked refused =>
    (attempt name refused .close (), scripted name fileBacked refused)

/-- The writer counts as one that owns files. -/
def isFileBacked : TrialWriter → Bool
  | memory _ _ => true
  | failing _ _ => false
  | scripted _ fileBacked _ => fileBacked

/-- Runs an operation on the writer with a number. -/
def onWriter {α : Type} (action : TrialWriter → Except IoError α × TrialWriter) (i : Nat)
    (writers : List TrialWriter) : Except IoError α × List TrialWriter :=
  match writers[i]? with
  | none => (.error .notOpen, writers)
  | some w =>
    let (result, w) := action w
    (result, writers.set i w)

/-- The operations on a list of writers. -/
def outlet : Outlet (List TrialWriter) where
  write i bytes writers := onWriter (write bytes) i writers
  sync i writers := onWriter sync i writers
  close i writers := onWriter close i writers
  isFileBacked i writers :=
    match writers[i]? with
    | none => false
    | some w => w.isFileBacked

end TrialWriter

end LogRouter
