import LogRouter.Files.FileSystem

/-!
# Open files

* `Handle`: an open file. It stays with the stored content when the entry is renamed or removed.
* `FileSystem.openToAppend`: opens a file, or creates it; every write goes to its end.
* `FileSystem.openTruncated`: opens a file emptied, or creates it; writes follow each other from
  the start, wherever the file ends by then.
* `Handle.write`, `Handle.sync`, `Handle.length`: the operations on an open file.
-/

namespace LogRouter

/-- An open file. -/
inductive Handle where
  /-- Writes go to the end of the stored content. -/
  | appending (id : Nat)
  /-- Writes go to an offset of the stored content, which moves on with them. -/
  | writing (id : Nat) (offset : Nat)
  /-- A device that takes no bytes. -/
  | fullDevice
  deriving DecidableEq, Repr

namespace FileSystem

/-- Opens the file at a path, which is created empty if it is missing. The result tells whether
the file is the full device or has a number. -/
def openForWriting (fs : FileSystem) (p : Path) : Except IoError (Option Nat × FileSystem) :=
  match fs.locate p with
  | .error e => .error e
  | .ok (.unnamed _) => .error .isADirectory
  | .ok (.entry loc slash) =>
    if slash then .error .isADirectory
    else
      match fs.find loc with
      | .error e => .error e
      | .ok (some .directory) => .error .isADirectory
      | .ok (some (.file id)) => fs.permit .write loc (some id, fs)
      | .ok (some .fullDevice) => fs.permit .write loc (none, fs)
      | .ok none => fs.permit .create loc (some (fs.addFile loc).2, (fs.addFile loc).1)

/-- Opens the file at a path to write at its end. -/
def openToAppend (fs : FileSystem) (p : Path) : Except IoError (Handle × FileSystem) :=
  match fs.openForWriting p with
  | .error e => .error e
  | .ok (some id, fs) => .ok (.appending id, fs)
  | .ok (none, fs) => .ok (.fullDevice, fs)

/-- Opens the file at a path and empties it. -/
def openTruncated (fs : FileSystem) (p : Path) : Except IoError (Handle × FileSystem) :=
  match fs.openForWriting p with
  | .error e => .error e
  | .ok (some id, fs) => .ok (.writing id 0, fs.setContent id [])
  | .ok (none, fs) => .ok (.fullDevice, fs)

/-- Creates a file that must not exist yet. -/
def createNew (fs : FileSystem) (p : Path) : Except IoError (Nat × FileSystem) :=
  match fs.locate p with
  | .error e => .error e
  | .ok (.unnamed _) => .error .alreadyExists
  | .ok (.entry loc slash) =>
    if slash then .error .isADirectory
    else
      match fs.find loc with
      | .error e => .error e
      | .ok (some _) => .error .alreadyExists
      | .ok none => fs.permit .create loc ((fs.addFile loc).2, (fs.addFile loc).1)

/-- Replaces the content of a file from a path on, creating it if it is missing. -/
def writeFile (fs : FileSystem) (p : Path) (bytes : Bytes) : Except IoError FileSystem :=
  match fs.openForWriting p with
  | .error e => .error e
  | .ok (some id, fs) => .ok (fs.setContent id bytes)
  | .ok (none, fs) => if bytes.isEmpty then .ok fs else .error .storageFull

end FileSystem

/-- The content with bytes written at an offset; a gap in front of them is filled with zeros. -/
def overwrite (content : Bytes) (offset : Nat) (bytes : Bytes) : Bytes :=
  content.take offset ++ (List.replicate (offset - content.length) 0 ++
    (bytes ++ content.drop (offset + bytes.length)))

namespace Handle

/-- Writes bytes. To write none changes nothing. -/
def write (handle : Handle) (fs : FileSystem) (bytes : Bytes) :
    Except IoError (Handle × FileSystem) :=
  if bytes.isEmpty then .ok (handle, fs)
  else
    match handle with
    | appending id => .ok (appending id, fs.setContent id (fs.content id ++ bytes))
    | writing id offset =>
      .ok (writing id (offset + bytes.length),
        fs.setContent id (overwrite (fs.content id) offset bytes))
    | fullDevice => .error .storageFull

/-- Hands what was written to the device. -/
def sync : Handle → Except IoError Unit
  | fullDevice => .error .invalidArgument
  | _ => .ok ()

/-- The length of the file. -/
def length (handle : Handle) (fs : FileSystem) : Nat :=
  match handle with
  | appending id | writing id _ => (fs.content id).length
  | fullDevice => 0

end Handle

end LogRouter
