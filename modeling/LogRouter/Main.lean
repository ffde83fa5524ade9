import LogRouter.CommandLine.Session
import LogRouter.Files.Changes
import LogRouter.Text.Lines
import Std.Time.Zoned.Database

/-!
# The program

The outer layer: it fetches what a session needs from the disk, hands it the lines of standard
input with the time of their arrival, and publishes what the session has changed and printed after
every line.

* `Disk.fetch`: copies the entry at a path, with the directories above it.
* `Disk.publish`: prints, and repeats the changes of the file system on the disk.
* `main`: the program.

Only the configuration and the files that are written next are fetched, so a sweep sees the files
that this run has left behind.
-/

namespace LogRouter

namespace Disk

/-- The text of the path of a location. -/
def pathText (loc : Location) : String :=
  String.ofList ('/' :: Path.unsplit loc.reverse)

/-- The location that a path names below a directory. -/
def location (origin : Location) (p : Path) : Location :=
  (Path.split p.chars).foldl (fun loc part =>
    if Path.isIdle part then loc else if part = ['.', '.'] then loc.tail else part :: loc)
    (if p.isAbsolute then [] else origin)

/-- The directory of the devices. They count as empty files, except for the full one. -/
def devices : Location := [['d', 'e', 'v']]

/-- The full device. -/
def fullDevice : Location := "full".toList :: devices

/-- Copies the entry at a location whose directory was copied. -/
def fetchEntry (fs : FileSystem) (loc : Location) : IO FileSystem := do
  if loc = fullDevice then return fs.addEntry loc .fullDevice
  if FileSystem.isIn devices loc then return (fs.addFile loc).1
  try
    let bytes ← IO.FS.readBinFile (pathText loc)
    let (fs, id) := fs.addFile loc
    return fs.setContent id bytes.toList
  catch
    | .inappropriateType .. => return fs.addEntry loc .directory
    | _ => return fs

/-- Copies the entry at a location and the directories above it, unless they were copied. -/
def fetchLocation (fs : FileSystem) : Location → IO FileSystem
  | [] => return fs
  | name :: parent => do
    let fs ← fetchLocation fs parent
    if fs.node? parent = some .directory ∧ fs.node? (name :: parent) = none then
      fetchEntry fs (name :: parent)
    else return fs

/-- Copies the entry at a path and the directories above it, unless they were copied. -/
def fetch (fs : FileSystem) (p : Path) : IO FileSystem :=
  fetchLocation fs (location fs.cwd p)

/-- Repeats a change on the disk. -/
def apply : Change → IO Unit
  | .makeDirectory loc => IO.FS.createDirAll (pathText loc)
  | .remove loc => IO.FS.removeFile (pathText loc)
  | .move source target => IO.FS.rename (pathText source) (pathText target)
  | .extend loc bytes =>
    IO.FS.withFile (pathText loc) .append fun file => file.write ⟨bytes.toArray⟩
  | .write loc bytes => IO.FS.writeBinFile (pathText loc) ⟨bytes.toArray⟩

/-- Writes bytes to a stream of the process, at once. -/
def print (stream : IO.FS.Stream) (bytes : Bytes) : IO Unit := do
  stream.write ⟨bytes.toArray⟩
  stream.flush

/-- Prints what the standard streams have received, and repeats on the disk what has changed in the
file system. -/
def publish (earlier : FileSystem) (fleet : Fleet) : IO Fleet := do
  print (← IO.getStdout) fleet.host.stdout
  print (← IO.getStderr) fleet.host.stderr
  (fleet.host.fs.changesSince earlier).forM apply
  return { fleet with host := .ofFileSystem fleet.host.fs }

/-- The file that a writer writes to at an instant. -/
def target? (now : Instant) : LogWriter → Option Path
  | .console _ => none
  | .byTime writer => some (writer.pathOf (writer.labelAt now))
  | .bySize writer => some writer.path

/-- Copies the files that are written to at an instant. -/
def fetchTargets (now : Instant) (fleet : Fleet) : IO Fleet := do
  let fs ← (fleet.writers.filterMap (target? now)).foldlM fetch fleet.host.fs
  return { fleet with host := { fleet.host with fs := fs } }

end Disk

namespace CommandLine.Session

/-- The time of the clock. -/
def clock : IO Instant := do
  return .ofTotal (← Std.Time.Timestamp.now).toNanosecondsSinceUnixEpoch.val

/-- The distance of the local time from universal time, zero if it is not known. -/
def localZone : IO Zone := do
  try
    let rules ← Std.Time.Database.defaultGetLocalZoneRules
    let now ← Std.Time.Timestamp.now
    return .fixed (rules.findLocalTimeTypeForTimestamp now).gmtOffset.second.val
  catch _ => return .fixed 0

/-- Reads up to the next line feed or the end, behind the reversed start of the line. -/
partial def readLine (stream : IO.FS.Stream) (reversed : Bytes) : IO Bytes := do
  match (← stream.read 1).toList with
  | [] => return reversed.reverse
  | c :: _ => if c = 10 then return (c :: reversed).reverse else readLine stream (c :: reversed)

/-- Logs the lines of standard input as they arrive. -/
partial def follow (host : PipeHost Fleet) (options : PipeOptions) (p : Pipe Fleet) :
    IO (Except CommandError Unit × Fleet) := do
  match Text.lines 10 13 (← readLine (← IO.getStdin) []) with
  | [] => return p.finish host
  | line :: _ =>
    let now ← clock
    let world ← Disk.fetchTargets now p.world
    match Pipe.feedBytes? host options now { p with world := world } line with
    | none => return (.error .unreadableInput, world)
    | some p =>
      follow host options { p with world := ← Disk.publish world.host.fs p.world }

/-- Runs a command, and returns its exit code. -/
def runOnDisk (invocation : Invocation) (fleet : Fleet) : IO Nat := do
  let fs ← Disk.fetchLocation fleet.host.fs fleet.host.fs.cwd
  let fs ← Disk.fetch fs (.ofString invocation.config)
  let fleet := { fleet with host := .ofFileSystem fs }
  let result ← match prepare (← localZone) invocation fleet with
    | (.error e, fleet) => pure (.error e, fleet)
    | (.ok (settings, sink), fleet) =>
      match invocation.command with
      | .check strict => pure (check strict settings sink fleet)
      | .pipe level target => do
        let fleet ← Disk.publish fs fleet
        follow (pipeHost invocation.logLevel) ⟨level, target⟩ (.start sink fleet)
  let (code, after) := conclude result
  let _ ← Disk.publish result.2.host.fs after
  return code

end CommandLine.Session

end LogRouter

open LogRouter LogRouter.CommandLine in
/-- Runs the program on the disk and the standard streams of the process. -/
def main (arguments : List String) : IO UInt32 := do
  let now ← Session.clock
  let cwd := Disk.location [] (.ofString (toString (← IO.currentDir)))
  let fs : FileSystem := { FileSystem.empty with cwd := cwd, now := now.total }
  let fleet : Fleet := ⟨.ofFileSystem fs, now, []⟩
  match Request.ofArguments arguments with
  | .run invocation => return (← Session.runOnDisk invocation fleet).toUInt32
  | request =>
    let (code, fleet) := (Session.answer? request fleet).getD (0, fleet)
    let _ ← Disk.publish fs fleet
    return code.toUInt32
