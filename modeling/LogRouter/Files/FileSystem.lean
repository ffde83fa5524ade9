import LogRouter.Files.Error
import LogRouter.Path.Basic
import LogRouter.Text.Utf8

/-!
# A file system

A tree of directories, files and full devices without links. Entries point to stored contents, so
a file that is open keeps its content when its entry is renamed or removed. The system may refuse to
make an entry at a location, say because a quota is reached, and to open the file that stands there.

* `Location`: the place of an entry, the names from its own up to the one below the root.
* `FileSystem`: the entries, the stored contents, the current directory, the time that changes of
  content are stamped with, and what the system refuses.
* `FileSystem.permit`: the result of what is asked of the system at a location, unless it refuses.
* `FileSystem.locate`: the walk along a path to its last part, through existing directories only.
* `FileSystem.find`: what stands at the last part, whose name may be too long for any entry.
* `createDirectories`, `remove`, `rename`, `readFile`, `setModified`: the operations on entries.
-/

namespace LogRouter

/-- The place of an entry: its name, the name of its directory, and so on. -/
abbrev Location : Type := List Name

/-- What an entry is. -/
inductive Node where
  | directory
  /-- The file with the content stored under the given number. -/
  | file (id : Nat)
  /-- A device that takes no bytes. -/
  | fullDevice
  deriving DecidableEq, Repr

/-- The content of a file and the time of its last change, in nanoseconds since the epoch. -/
structure Stored where
  content : Bytes
  modified : Int
  deriving DecidableEq, Repr, Inhabited

/-- What is asked of the system at a location. -/
inductive Access where
  /-- To make an entry where there is none. -/
  | create
  /-- To open the file that is there, to write to it. -/
  | write
  deriving DecidableEq, Repr

/-- A tree of files. Every number of a file is below the number of stored contents. -/
structure FileSystem where
  entries : List (Location × Node)
  stored : List Stored
  cwd : Location
  now : Int
  /-- Why the system refuses what is asked at a location. -/
  refusal? : Access → Location → Option IoError

namespace FileSystem

/-- The file system with the root alone, which refuses nothing. -/
def empty : FileSystem := ⟨[], [], [], 0, fun _ _ => none⟩

/-- The entry at a location; the root is a directory. -/
def node? (fs : FileSystem) (loc : Location) : Option Node :=
  match loc with
  | [] => some .directory
  | _ => (fs.entries.find? fun (l, _) => l == loc).map (·.2)

/-- Puts an entry at a location that has none. -/
def addEntry (fs : FileSystem) (loc : Location) (node : Node) : FileSystem :=
  { fs with entries := fs.entries ++ [(loc, node)] }

/-- Removes the entry at a location. -/
def dropEntry (fs : FileSystem) (loc : Location) : FileSystem :=
  { fs with entries := fs.entries.filter fun (l, _) => l != loc }

/-- The content stored under a number. -/
def stored? (fs : FileSystem) (id : Nat) : Option Stored := fs.stored[id]?

/-- The content stored under a number. -/
def content (fs : FileSystem) (id : Nat) : Bytes :=
  match fs.stored? id with
  | some stored => stored.content
  | none => []

/-- The time of the last change of the content stored under a number. -/
def modified (fs : FileSystem) (id : Nat) : Int :=
  match fs.stored? id with
  | some stored => stored.modified
  | none => 0

/-- Replaces the content stored under a number and stamps it. -/
def setContent (fs : FileSystem) (id : Nat) (content : Bytes) : FileSystem :=
  { fs with stored := fs.stored.set id ⟨content, fs.now⟩ }

/-- The number of the file at a location. -/
def fileAt? (fs : FileSystem) (loc : Location) : Option Nat :=
  match fs.node? loc with
  | some (.file id) => some id
  | _ => none

/-- The content of the file at a location. -/
def contentAt? (fs : FileSystem) (loc : Location) : Option Bytes :=
  (fs.fileAt? loc).map fs.content

/-- The result of what is asked at a location, unless the system refuses it. -/
def permit {α : Type} (fs : FileSystem) (access : Access) (loc : Location) (result : α) :
    Except IoError α :=
  match fs.refusal? access loc with
  | some e => .error e
  | none => .ok result

/-- Creates an empty file at a location that has no entry. -/
def addFile (fs : FileSystem) (loc : Location) : FileSystem × Nat :=
  let id := fs.stored.length
  ({ fs.addEntry loc (.file id) with stored := fs.stored ++ [⟨[], fs.now⟩] }, id)

/-- The entry is in the directory at a location. -/
def isIn (directory : Location) (loc : Location) : Bool :=
  match loc with
  | [] => false
  | _ :: parent => parent == directory

/-- The entries of the directory at a location, by name. -/
def children (fs : FileSystem) (directory : Location) : List (Name × Node) :=
  (fs.entries.filter fun (l, _) => isIn directory l).filterMap fun (l, node) =>
    l.head?.map fun name => (name, node)

/-- The location lies at or below another. -/
def isBelow (top loc : Location) : Bool := top.isSuffixOf loc

/-- Removes an entry with everything below it. -/
def dropTree (fs : FileSystem) (top : Location) : FileSystem :=
  { fs with entries := fs.entries.filter fun (l, _) => !isBelow top l }

/-- Moves an entry with everything below it. -/
def moveTree (fs : FileSystem) (source target : Location) : FileSystem :=
  { fs with
    entries := fs.entries.map fun (l, node) =>
      if isBelow source l then (l.take (l.length - source.length) ++ target, node) else (l, node) }

/-! ## Walking along a path -/

/-- The largest number of bytes of a name. -/
def maxNameLength : Nat := 255

/-- The largest number of bytes of a path. -/
def maxPathLength : Nat := 4095

/-- The number of bytes of a text. -/
def byteLength (s : List Char) : Nat := s.foldl (fun n c => n + c.utf8Size) 0

/-- What stands at a location, looked for by its name. -/
def find (fs : FileSystem) (loc : Location) : Except IoError (Option Node) :=
  if maxNameLength < byteLength (loc.headD []) then .error .nameTooLong else .ok (fs.node? loc)

/-- Where a path leads. -/
inductive Place where
  /-- To a directory that the path does not name, by `.`, `..` or as the root. -/
  | unnamed (loc : Location)
  /-- To an entry, which may be missing, of an existing directory. With a slash at its end the
  path asks for a directory. -/
  | entry (loc : Location) (slash : Bool)
  deriving DecidableEq, Repr

/-- Follows the parts of a path from a directory. The last one is not looked for. -/
def walk (fs : FileSystem) (slash : Bool) (origin : Location) : List Name → Except IoError Place
  | [] => .ok (.unnamed origin)
  | part :: rest =>
    if part = ['.'] then fs.walk slash origin rest
    else if part = ['.', '.'] then fs.walk slash origin.tail rest
    else
      match rest with
      | [] => .ok (.entry (part :: origin) slash)
      | next :: rest =>
        match fs.find (part :: origin) with
        | .error e => .error e
        | .ok none => .error .notFound
        | .ok (some .directory) => fs.walk slash (part :: origin) (next :: rest)
        | .ok (some _) => .error .notADirectory

/-- Where a path leads. -/
def locate (fs : FileSystem) (p : Path) : Except IoError Place :=
  if '\x00' ∈ p.chars then .error .nulInPath
  else if p.chars = [] then .error .notFound
  else if maxPathLength < byteLength p.chars then .error .nameTooLong
  else
    fs.walk (p.chars.getLast? == some '/') (if p.isAbsolute then [] else fs.cwd)
      ((Path.split p.chars).filter (· ≠ []))

/-- The entry that a path leads to. -/
def lookup (fs : FileSystem) (p : Path) : Except IoError (Location × Node) :=
  match fs.locate p with
  | .error e => .error e
  | .ok (.unnamed loc) => .ok (loc, .directory)
  | .ok (.entry loc slash) =>
    match fs.find loc with
    | .error e => .error e
    | .ok none => .error .notFound
    | .ok (some .directory) => .ok (loc, .directory)
    | .ok (some node) => if slash then .error .notADirectory else .ok (loc, node)

/-- The path leads to a directory. -/
def isDirectory (fs : FileSystem) (p : Path) : Bool :=
  match fs.lookup p with
  | .ok (_, .directory) => true
  | _ => false

/-! ## Operations on entries -/

/-- Creates one directory. -/
def createDirectory (fs : FileSystem) (p : Path) : Except IoError FileSystem :=
  match fs.locate p with
  | .error e => .error e
  | .ok (.unnamed _) => .error .alreadyExists
  | .ok (.entry loc _) =>
    match fs.find loc with
    | .error e => .error e
    | .ok (some _) => .error .alreadyExists
    | .ok none => fs.permit .create loc (fs.addEntry loc .directory)

/-- Creates a directory and the missing ones above it; `fuel` bounds the number of them. What was
created above a directory that cannot be created stays. -/
def createDirectoriesUpTo (fs : FileSystem) (p : Path) :
    (fuel : Nat) → Except IoError Unit × FileSystem
  | 0 => (.ok (), fs)
  | fuel + 1 =>
    match p.parent? with
    | none => (.ok (), fs)
    | some parent =>
      match fs.createDirectory p with
      | .ok fs => (.ok (), fs)
      | .error .notFound =>
        match fs.createDirectoriesUpTo parent fuel with
        | (.error e, fs) => (.error e, fs)
        | (.ok (), fs) =>
          match fs.createDirectory p with
          | .ok fs => (.ok (), fs)
          | .error e => if fs.isDirectory p then (.ok (), fs) else (.error e, fs)
      | .error e => if fs.isDirectory p then (.ok (), fs) else (.error e, fs)

/-- Creates a directory and the missing ones above it. -/
def createDirectories (fs : FileSystem) (p : Path) : Except IoError Unit × FileSystem :=
  fs.createDirectoriesUpTo p (p.chars.length + 1)

/-- Creates the directory of a file, unless the path names none. -/
def createParent (fs : FileSystem) (p : Path) : Except IoError Unit × FileSystem :=
  match p.parent? with
  | some parent => if parent.chars = [] then (.ok (), fs) else fs.createDirectories parent
  | none => (.ok (), fs)

/-- Removes the entry of a file. -/
def remove (fs : FileSystem) (p : Path) : Except IoError FileSystem :=
  match fs.locate p with
  | .error e => .error e
  | .ok (.unnamed _) => .error .isADirectory
  | .ok (.entry loc slash) =>
    match fs.find loc with
    | .error e => .error e
    | .ok none => .error .notFound
    | .ok (some .directory) => .error .isADirectory
    | .ok (some _) => if slash then .error .notADirectory else .ok (fs.dropEntry loc)

/-- Renames the entry at `source` to `target`, where `sourceNode` stands at `source`. -/
def renameEntry (fs : FileSystem) (source target : Location) (sourceNode : Node) :
    Except IoError FileSystem :=
  if source = target then .ok fs
  else if sourceNode = .directory ∧ isBelow source target then .error .invalidArgument
  else if isBelow target source then .error .directoryNotEmpty
  else
    match fs.node? target, sourceNode with
    | none, _ => .ok (fs.moveTree source target)
    | some .directory, .directory =>
      if (fs.children target).isEmpty then .ok ((fs.dropEntry target).moveTree source target)
      else .error .directoryNotEmpty
    | some .directory, _ => .error .isADirectory
    | some _, .directory => .error .notADirectory
    | some _, _ => .ok ((fs.dropEntry target).moveTree source target)

/-- Renames the entry at a place to another place. The old entry is looked for before the new one,
so a missing entry is a failure whatever its new name would be. -/
def renamePlace (fs : FileSystem) (source target : Place) : Except IoError FileSystem :=
  match source, target with
  | .entry source slash, .entry target slash' =>
    match fs.find source, fs.find target with
    | .error e, _ => .error e
    | .ok none, _ => .error .notFound
    | .ok (some _), .error e => .error e
    | .ok (some node), .ok _ =>
      if node ≠ .directory ∧ (slash ∨ slash') then .error .notADirectory
      else fs.renameEntry source target node
  | _, _ => .error .busy

/-- Renames an entry, replacing what stands at the new path. -/
def rename (fs : FileSystem) (p q : Path) : Except IoError FileSystem :=
  match fs.locate p with
  | .error e => .error e
  | .ok source =>
    match fs.locate q with
    | .error e => .error e
    | .ok target => fs.renamePlace source target

/-- The bytes of a file. The full device gives bytes without end, which no place can hold. -/
def readFile (fs : FileSystem) (p : Path) : Except IoError Bytes :=
  match fs.lookup p with
  | .error e => .error e
  | .ok (_, .directory) => .error .isADirectory
  | .ok (_, .file id) => .ok (fs.content id)
  | .ok (_, .fullDevice) => .error .storageFull

/-- The text of a file. -/
def readText (fs : FileSystem) (p : Path) : Except IoError String :=
  match fs.readFile p with
  | .error e => .error e
  | .ok bytes =>
    match Utf8.decode? bytes with
    | some text => .ok (String.ofList text)
    | none => .error .invalidText

/-- Sets the time of the last change of a file. -/
def setModified (fs : FileSystem) (loc : Location) (time : Int) : FileSystem :=
  match fs.fileAt? loc with
  | none => fs
  | some id => { fs with stored := fs.stored.set id ⟨fs.content id, time⟩ }

end FileSystem

end LogRouter
