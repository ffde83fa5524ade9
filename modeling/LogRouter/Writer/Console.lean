import LogRouter.Files.FileSystem

/-!
# Standard streams

* `Stream`: one of the two standard streams a record can be written to.
* `Host`: the file system, what the standard streams have received, and what the system answers when
  a worker is started.
-/

namespace LogRouter

/-- A standard stream. -/
inductive Stream where
  | stdout
  | stderr
  deriving DecidableEq, Repr

namespace Stream

/-- The name of a stream as a destination. -/
def name : Stream → String
  | stdout => "stdout"
  | stderr => "stderr"

/-- The stream that a destination names. -/
def ofName? (destination : String) : Option Stream :=
  if destination = "stdout" then some stdout
  else if destination = "stderr" then some stderr
  else none

end Stream

/-- The file system and what the standard streams have received. -/
structure Host where
  fs : FileSystem
  stdout : Bytes
  stderr : Bytes
  /-- What comes of the next starts of workers; those behind the end of the list succeed. -/
  workerStarts : List (Except IoError Unit)

namespace Host

/-- A host whose streams have received nothing and that starts every worker. -/
def ofFileSystem (fs : FileSystem) : Host := ⟨fs, [], [], []⟩

/-- Writes bytes to a standard stream. -/
def print (host : Host) (stream : Stream) (bytes : Bytes) : Host :=
  match stream with
  | .stdout => { host with stdout := host.stdout ++ bytes }
  | .stderr => { host with stderr := host.stderr ++ bytes }

/-- Starts a worker. -/
def startWorker (host : Host) : Except IoError Unit × Host :=
  match host.workerStarts with
  | [] => (.ok (), host)
  | result :: later => (result, { host with workerStarts := later })

end Host

end LogRouter
