import LogRouter.Label.Pattern
import LogRouter.Retention.Sweep
import LogRouter.Writer.Rotation

/-!
# Writers that rotate by time

A writer with one file for each label of a time pattern. A write first renders the label of its
instant; if the file of another label is open, or none, the file of the label is opened.

* `TimeWriter.create`: a writer for a base path, closed.
* `TimeWriter.write`, `TimeWriter.sync`, `TimeWriter.close`: the operations of the writer.
* `TimeWriter.pending`: the sweeps that the writer has asked for and that have not run yet.

Every opened file asks for a sweep of the files left behind, if the policy can do anything. If a
file cannot be opened, the writer stays closed.
-/

namespace LogRouter

/-- A file that is open under a label. -/
structure OpenBucket where
  label : Name
  path : Path
  handle : Handle
  deriving DecidableEq, Repr

/-- A writer with one file for each label of a time pattern. -/
structure TimeWriter where
  base : Path
  pattern : TimePattern
  policy : RetentionPolicy
  zone : Zone
  current : Option OpenBucket
  /-- The number of times that an open file gave way to another. -/
  rotations : UInt64
  /-- The sweeps that have not run yet, in their order. -/
  pending : List SweepRequest
  deriving DecidableEq, Repr

namespace TimeWriter

/-- A closed writer for a base path. -/
def create (zone : Zone) (base : Path) (pattern : String) (maxAge : UInt32) (compress : Bool) :
    Except SinkError TimeWriter :=
  if base.chars = [] then .error .emptyDestination
  else
    match TimePattern.ofString pattern with
    | .error _ => .error (.invalidPattern pattern)
    | .ok pattern =>
      .ok ⟨base, pattern, ⟨maxAge, .ofSeconds pattern.unit.seconds, compress⟩, zone, none, 0, []⟩

/-- The label of an instant. -/
def labelAt (w : TimeWriter) (now : Instant) : Name :=
  w.pattern.label (Moment.ofInstant w.zone now)

/-- The path of the file with a label. -/
def pathOf (w : TimeWriter) (label : Name) : Path := w.base.labelled '.' label

/-- The sweep that the opening of the file `active` asks for. -/
def sweepFor (w : TimeWriter) (active : Path) (now : Instant) : SweepRequest :=
  ⟨w.base.directory, .around w.base '.' w.pattern.text.toList, active, now, w.policy, none⟩

/-- The sweeps that the opening of the file `active` asks for, none if the policy does nothing. -/
def sweepsFor (w : TimeWriter) (active : Path) (now : Instant) : List SweepRequest :=
  if w.policy.isActive then [w.sweepFor active now] else []

/-- Opens the file with a label in place of the one that is open. -/
def rotate (w : TimeWriter) (fs : FileSystem) (now : Instant) (label : Name) :
    Except IoError Handle × TimeWriter × FileSystem :=
  let closed := { w with current := none }
  let path := w.pathOf label
  match fs.createParent path with
  | (.error e, fs) => (.error e, closed, fs)
  | (.ok (), fs) =>
    match fs.openToAppend path with
    | .error e => (.error e, closed, fs)
    | .ok (handle, fs) =>
      (.ok handle,
        { w with
          current := some ⟨label, path, handle⟩
          rotations := if w.current.isSome then w.rotations + 1 else w.rotations
          pending := w.pending ++ w.sweepsFor path now },
        fs)

/-- The handle of the file with a label, which is opened unless it is open. -/
def handleFor (w : TimeWriter) (fs : FileSystem) (now : Instant) (label : Name) :
    Except IoError Handle × TimeWriter × FileSystem :=
  match w.current with
  | some bucket => if bucket.label = label then (.ok bucket.handle, w, fs) else w.rotate fs now label
  | none => w.rotate fs now label

/-- The writer with the handle of its open file moved on. -/
def withHandle (w : TimeWriter) (handle : Handle) : TimeWriter :=
  { w with current := w.current.map fun bucket => { bucket with handle := handle } }

/-- Writes bytes at an instant, and returns their number. -/
def write (w : TimeWriter) (fs : FileSystem) (now : Instant) (bytes : Bytes) :
    Except IoError Nat × TimeWriter × FileSystem :=
  match w.handleFor fs now (w.labelAt now) with
  | (.error e, w, fs) => (.error e, w, fs)
  | (.ok handle, w, fs) =>
    match handle.write fs bytes with
    | .error e => (.error e, w, fs)
    | .ok (handle, fs) => (.ok bytes.length, w.withHandle handle, fs)

/-- Hands what was written to the device. -/
def sync (w : TimeWriter) : Except IoError Unit :=
  match w.current with
  | some bucket => bucket.handle.sync
  | none => .ok ()

/-- Closes the open file. -/
def close (w : TimeWriter) : Except IoError Unit × TimeWriter :=
  (w.sync, { w with current := none })

end TimeWriter

end LogRouter
