import LogRouter.Sink.Error
import LogRouter.Text.Blank
import LogRouter.Writer.Fleet

/-!
# Resolving destinations

* `Destination`: a standard stream, or a path.
* `Destination.key`: what two destinations share if they have one writer: the name of the stream,
  or the path seen from the root.
* `Resolver`: the writers that were made so far, by their keys.
* `Resolver.resolve`: the writer of a destination, made if there is none. The directory of a file
  is created first, and the worker of the writer is started last.
-/

namespace LogRouter

/-- A place to write records to. -/
inductive Destination where
  | console (stream : Stream)
  | file (path : Path)
  deriving DecidableEq, Repr

namespace Destination

/-- The destination that a text names, unless the text is blank. -/
def ofString? (text : String) : Option Destination :=
  if Text.allBlank text.toList then none
  else
    match Stream.ofName? text with
    | some stream => some (console stream)
    | none => some (file (Path.ofString text))

/-- The text of a destination. -/
def text : Destination → String
  | console stream => stream.name
  | file path => path.text

/-- What two destinations share if they have one writer, where `cwd` is the current directory or
the reason why that has no path. -/
def key (cwd : Except IoError Path) : Destination → Except IoError String
  | console stream => .ok stream.name
  | file path => (path.absolute cwd).map Path.text

end Destination

namespace FileSystem

/-- The path of the current directory, which has none once it was removed. -/
def cwdPath (fs : FileSystem) : Except IoError Path :=
  if fs.node? fs.cwd = some .directory then .ok ⟨'/' :: Path.unsplit fs.cwd.reverse⟩
  else .error .notFound

end FileSystem

/-- The writers that were made so far, by the keys of their destinations. -/
structure Resolver where
  rotation : Rotation
  zone : Zone
  writers : List (String × Nat)

namespace Resolver

/-- The resolver without writers. -/
def empty (zone : Zone) (rotation : Rotation) : Resolver := ⟨rotation, zone, []⟩

/-- The number of the writer with a key. -/
def find? (resolver : Resolver) (key : String) : Option Nat :=
  (resolver.writers.find? fun (k, _) => k == key).map (·.2)

/-- The writer for the files of a path. -/
def fileWriter (resolver : Resolver) (path : Path) : Except SinkError LogWriter :=
  let rotation := resolver.rotation
  if rotation.byTime then
    (TimeWriter.create resolver.zone path rotation.timePattern rotation.maxAge rotation.compress).map
      .byTime
  else
    (SizeWriter.create resolver.zone path rotation.maxSizeBytes rotation.maxBackups.toNat
      rotation.maxAge rotation.compress).map .bySize

/-- Creates the directory of a file that is seen from the root. -/
def prepare (fs : FileSystem) (path : Path) : Except IoError Unit × FileSystem :=
  match path.parent? with
  | some parent => fs.createDirectories parent
  | none => (.ok (), fs)

/-- Starts the worker of a new writer, if it has one. -/
def launch (w : LogWriter) (fleet : Fleet) : Except SinkError LogWriter × Fleet :=
  if w.hasWorker then
    let (result, host) := fleet.host.startWorker
    let fleet := { fleet with host := host }
    match result with
    | .error e => (.error (.io e), fleet)
    | .ok () => (.ok w, fleet)
  else (.ok w, fleet)

/-- Makes the writer of a destination with the given key. -/
def make (resolver : Resolver) (fleet : Fleet) (destination : String) (key : String) :
    Destination → Except SinkError LogWriter × Fleet
  | .console stream => (.ok (.console stream), fleet)
  | .file _ =>
    let (result, fs) := prepare fleet.host.fs (Path.ofString key)
    let fleet := { fleet with host := { fleet.host with fs := fs } }
    match result with
    | .error e => (.error (.resolve destination e), fleet)
    | .ok () =>
      match resolver.fileWriter (Path.ofString key) with
      | .error e => (.error e, fleet)
      | .ok w => launch w fleet

/-- The number of the writer of a destination, which is made if there is none. -/
def resolve (resolver : Resolver) (fleet : Fleet) (destination : String) :
    Except SinkError Nat × Resolver × Fleet :=
  match Destination.ofString? destination with
  | none => (.error .emptyDestination, resolver, fleet)
  | some parsed =>
    match parsed.key fleet.host.fs.cwdPath with
    | .error e => (.error (.resolve destination e), resolver, fleet)
    | .ok key =>
      match resolver.find? key with
      | some i => (.ok i, resolver, fleet)
      | none =>
        match resolver.make fleet destination key parsed with
        | (.error e, fleet) => (.error e, resolver, fleet)
        | (.ok w, fleet) =>
          let (i, fleet) := fleet.add w
          (.ok i, { resolver with writers := resolver.writers ++ [(key, i)] }, fleet)

/-- The number of the writer of a destination, if there is one. -/
def get? (resolver : Resolver) (cwd : Except IoError Path) (destination : String) : Option Nat :=
  (Destination.ofString? destination).bind fun parsed =>
    (parsed.key cwd).toOption.bind resolver.find?

/-- The number of writers that were made. -/
def size (resolver : Resolver) : Nat := resolver.writers.length

/-- The resolver in words. -/
def text (resolver : Resolver) : String :=
  "DestinationResolver \x7b time_rotation: " ++ toString resolver.rotation.byTime ++
    ", writers: " ++ toString resolver.size ++ " \x7d"

/-- The numbers of the writers of several destinations, up to the first that fails. -/
def resolveAll (resolver : Resolver) (fleet : Fleet) :
    List String → Except SinkError (List Nat) × Resolver × Fleet
  | [] => (.ok [], resolver, fleet)
  | destination :: rest =>
    match resolver.resolve fleet destination with
    | (.error e, resolver, fleet) => (.error e, resolver, fleet)
    | (.ok i, resolver, fleet) =>
      match resolver.resolveAll fleet rest with
      | (.error e, resolver, fleet) => (.error e, resolver, fleet)
      | (.ok is, resolver, fleet) => (.ok (i :: is), resolver, fleet)

end Resolver

end LogRouter
