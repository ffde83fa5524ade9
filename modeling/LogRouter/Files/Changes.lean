import LogRouter.Files.FileSystem

/-!
# Changes of a file system

A state of a file system that came from another one by the operations of this library differs from
it in entries and contents.

* `Change`: one step that brings a copy of the earlier state closer to the later one.
* `FileSystem.changesSince`: the steps from the earlier state to the later one. Directories are made
  first, entries are then removed and moved, and contents are written last, where a content that
  has only grown is extended.
-/

namespace LogRouter

/-- One step that brings a copy of an earlier state closer to a later one. -/
inductive Change where
  | makeDirectory (loc : Location)
  | remove (loc : Location)
  | move (source target : Location)
  /-- Puts bytes at the end of a file. -/
  | extend (loc : Location) (bytes : Bytes)
  /-- Gives a file, which may be missing, its whole content. -/
  | write (loc : Location) (bytes : Bytes)
  deriving DecidableEq, Repr

/-- What follows `start` in a list that begins with it. -/
def behind? (start whole : Bytes) : Option Bytes :=
  match start, whole with
  | [], rest => some rest
  | _ :: _, [] => none
  | a :: start, b :: whole => if a = b then behind? start whole else none

namespace FileSystem

/-- The directories that the earlier state lacks. -/
def directoriesSince (fs earlier : FileSystem) : List Change :=
  fs.entries.filterMap fun (loc, node) =>
    if node = .directory ∧ earlier.node? loc = none then some (.makeDirectory loc) else none

/-- The files of the earlier state that are gone. -/
def removalsSince (fs earlier : FileSystem) : List Change :=
  earlier.entries.filterMap fun (loc, node) =>
    if node ≠ .directory ∧ fs.entries.all (fun (_, other) => other ≠ node) then some (.remove loc)
    else none

/-- The files of the earlier state that stand elsewhere. -/
def movesSince (fs earlier : FileSystem) : List Change :=
  earlier.entries.filterMap fun (loc, node) =>
    if node = .directory ∨ fs.node? loc = some node then none
    else (fs.entries.find? fun (_, other) => other = node).map fun (target, _) => .move loc target

/-- The change of the content stored under a number, whose file stands at `loc`. -/
def contentSince? (fs earlier : FileSystem) (loc : Location) (id : Nat) : Option Change :=
  match earlier.stored? id with
  | none => some (.write loc (fs.content id))
  | some stored =>
    match behind? stored.content (fs.content id) with
    | some [] => none
    | some bytes => some (.extend loc bytes)
    | none => some (.write loc (fs.content id))

/-- The changes of contents. -/
def contentsSince (fs earlier : FileSystem) : List Change :=
  fs.entries.filterMap fun (loc, node) =>
    match node with
    | .file id => fs.contentSince? earlier loc id
    | _ => none

/-- The steps from an earlier state to this one. -/
def changesSince (fs earlier : FileSystem) : List Change :=
  fs.directoriesSince earlier ++ fs.removalsSince earlier ++ fs.movesSince earlier ++
    fs.contentsSince earlier

end FileSystem

end LogRouter
