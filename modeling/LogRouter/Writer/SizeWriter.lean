import LogRouter.Calendar.Moment
import LogRouter.Label.Pattern
import LogRouter.Retention.Sweep
import LogRouter.Writer.Rotation

/-!
# Writers that rotate by size

A writer with one active file. A write that would make it longer than the limit first renames it to
a backup, whose name carries the time of the rotation up to milliseconds, and starts a new file.

* `SizeWriter.create`: a writer for a path, closed.
* `SizeWriter.backupPath`: the path of a backup.
* `SizeWriter.write`, `SizeWriter.sync`, `SizeWriter.close`: the operations of the writer.
* `SizeWriter.pending`: the sweeps that the writer has asked for and that have not run yet.

A file found at the path is continued. A write longer than the limit is refused as it is. If a step
of a rotation fails, the writer stays closed.
-/

namespace LogRouter

/-- A writer with one active file of limited size. -/
structure SizeWriter where
  path : Path
  /-- The largest size of the active file. -/
  maxSize : Nat
  /-- The number of backups to keep, zero for no limit. -/
  maxBackups : Nat
  policy : RetentionPolicy
  zone : Zone
  current : Option Handle
  /-- The size of the active file as far as it is known, zero while it is closed. -/
  size : Nat
  /-- The number of times that the active file became a backup. -/
  rotations : UInt64
  /-- The sweeps that have not run yet, in their order. -/
  pending : List SweepRequest
  deriving DecidableEq, Repr

namespace SizeWriter

/-- The pattern of the times in the names of backups. -/
def backupPattern : List Char := "%Y-%m-%dT%H-%M-%S%.3f".toList

/-- The items of that pattern. -/
def backupItems : List Item :=
  [.zeroed .year, .literal ['-'], .zeroed .month, .literal ['-'], .zeroed .day, .literal ['T'],
   .zeroed .hour, .literal ['-'], .zeroed .minute, .literal ['-'], .zeroed .second,
   .word (.fraction .milli)]

/-- A closed writer for a path. -/
def create (zone : Zone) (path : Path) (maxSize maxBackups : Nat) (maxAge : UInt32)
    (compress : Bool) : Except SinkError SizeWriter :=
  if path.chars = [] then .error .emptyDestination
  else if maxSize = 0 then .error (.config "max_size must be greater than 0")
  else .ok ⟨path, maxSize, maxBackups, ⟨maxAge, 86400, compress⟩, zone, none, 0, 0, []⟩

/-- The time in the name of a backup. -/
def stamp (zone : Zone) (now : Instant) : Name :=
  (renderItems? (Moment.ofInstant zone now) backupItems).getD []

/-- The path of a backup made at an instant. -/
def backupPath (w : SizeWriter) (now : Instant) : Path := w.path.labelled '-' (stamp w.zone now)

/-- The sweep that a rotation asks for. -/
def sweepFor (w : SizeWriter) (now : Instant) : SweepRequest :=
  ⟨w.path.directory, .around w.path '-' backupPattern, w.path, now, w.policy,
    if w.maxBackups = 0 then none else some w.maxBackups⟩

/-- The sweeps that a rotation asks for, none if nothing limits the backups. -/
def sweepsFor (w : SizeWriter) (now : Instant) : List SweepRequest :=
  if w.policy.isActive || w.maxBackups != 0 then [w.sweepFor now] else []

/-- The writer without an open file. -/
def closed (w : SizeWriter) : SizeWriter := { w with current := none, size := 0 }

/-- Opens the active file, to continue what is there. -/
def openActive (w : SizeWriter) (fs : FileSystem) :
    Except IoError Handle × SizeWriter × FileSystem :=
  match fs.createParent w.path with
  | (.error e, fs) => (.error e, w, fs)
  | (.ok (), fs) =>
    match fs.openToAppend w.path with
    | .error e => (.error e, w, fs)
    | .ok (handle, fs) =>
      (.ok handle, { w with current := some handle, size := handle.length fs }, fs)

/-- Renames the active file to a backup, if there is one. -/
def setAside (w : SizeWriter) (fs : FileSystem) (now : Instant) : Except IoError FileSystem :=
  match fs.rename w.path (w.backupPath now) with
  | .ok fs => .ok fs
  | .error .notFound => .ok fs
  | .error e => .error e

/-- Renames the active file to a backup and starts a new one. -/
def rotate (w : SizeWriter) (fs : FileSystem) (now : Instant) :
    Except IoError Handle × SizeWriter × FileSystem :=
  match w.setAside fs now with
  | .error e => (.error e, w.closed, fs)
  | .ok fs =>
    match fs.createParent w.path with
    | (.error e, fs) => (.error e, w.closed, fs)
    | (.ok (), fs) =>
      match fs.openTruncated w.path with
      | .error e => (.error e, w.closed, fs)
      | .ok (handle, fs) =>
        (.ok handle,
          { w with
            current := some handle
            size := 0
            rotations := w.rotations + 1
            pending := w.pending ++ w.sweepsFor now },
          fs)

/-- The handle of the active file, which is opened unless it is open. -/
def handle (w : SizeWriter) (fs : FileSystem) : Except IoError Handle × SizeWriter × FileSystem :=
  match w.current with
  | some handle => (.ok handle, w, fs)
  | none => w.openActive fs

/-- The handle of an active file with room for `length` bytes. -/
def handleFor (w : SizeWriter) (fs : FileSystem) (now : Instant) (length : Nat) :
    Except IoError Handle × SizeWriter × FileSystem :=
  match w.handle fs with
  | (.error e, w, fs) => (.error e, w, fs)
  | (.ok handle, w, fs) =>
    if w.maxSize < w.size + length then w.rotate fs now else (.ok handle, w, fs)

/-- Writes bytes at an instant, and returns their number. -/
def write (w : SizeWriter) (fs : FileSystem) (now : Instant) (bytes : Bytes) :
    Except IoError Nat × SizeWriter × FileSystem :=
  if w.maxSize < bytes.length then (.error (.writeTooLong bytes.length w.maxSize), w, fs)
  else
    match w.handleFor fs now bytes.length with
    | (.error e, w, fs) => (.error e, w, fs)
    | (.ok handle, w, fs) =>
      match handle.write fs bytes with
      | .error e => (.error e, { w with size := handle.length fs }, fs)
      | .ok (handle, fs) =>
        (.ok bytes.length, { w with current := some handle, size := w.size + bytes.length }, fs)

/-- Hands what was written to the device. -/
def sync (w : SizeWriter) : Except IoError Unit :=
  match w.current with
  | some handle => handle.sync
  | none => .ok ()

/-- Closes the active file. -/
def close (w : SizeWriter) : Except IoError Unit × SizeWriter := (w.sync, w.closed)

end SizeWriter

end LogRouter
