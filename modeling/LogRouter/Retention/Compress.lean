import LogRouter.Files.Handle
import LogRouter.Files.Lz4
import LogRouter.Path.Labelled

/-!
# Compressing files

`FileSystem.compress` replaces a file by its compressed form beside it, which takes over the time
of the last change. If that fails, whatever stands at the new path is removed and the file stays.
-/

namespace LogRouter

namespace FileSystem

/-- Removes a file if that is possible. -/
def removeIfPossible (fs : FileSystem) (p : Path) : FileSystem :=
  match fs.remove p with
  | .ok fs => fs
  | .error _ => fs

/-- Writes the frame of the file at `p` into a new file at `target`. What was created stays if the
file cannot be read. -/
def writeFrame (fs : FileSystem) (p target : Path) : Except IoError Nat × FileSystem :=
  match fs.createNew target with
  | .error e => (.error e, fs)
  | .ok (id, fs) =>
    match fs.readFile p with
    | .error e => (.error e, fs)
    | .ok content => (.ok id, fs.setContent id (Lz4.encode content))

/-- Replaces a file by its compressed form, and returns the path of that. -/
def compress (fs : FileSystem) (p : Path) : Except IoError Path × FileSystem :=
  match fs.lookup p with
  | .error e => (.error e, fs)
  | .ok (_, node) =>
    let modified := match node with
      | .file id => fs.modified id
      | _ => fs.now
    match fs.writeFrame p p.compressed with
    | (.error e, fs) => (.error e, fs.removeIfPossible p.compressed)
    | (.ok id, fs) =>
      let fs := { fs with stored := fs.stored.set id ⟨fs.content id, modified⟩ }
      match fs.remove p with
      | .error e => (.error e, fs)
      | .ok fs => (.ok p.compressed, fs)

end FileSystem

end LogRouter
