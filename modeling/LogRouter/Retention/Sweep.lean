import LogRouter.Retention.Compress
import LogRouter.Retention.Policy
import LogRouter.Retention.RotatedName

/-!
# Sweeps

A sweep goes over the files that a writer has left behind, the last changed first. It removes those
beyond the limit on their number and those that are too old, and compresses the rest if the policy
asks for it. The file that is open is left alone.

* `SweepRequest`: what to sweep and by which rules.
* `SweepRequest.candidates`: the files that a sweep may touch.
* `SweepRequest.run`: the sweep, with the counts of what it did.
-/

namespace LogRouter

/-- What to sweep and by which rules. -/
structure SweepRequest where
  directory : Path
  names : RotatedName
  /-- The file that is open. -/
  active : Path
  now : Instant
  policy : RetentionPolicy
  /-- The number of files to keep, if it is limited. -/
  maxFiles : Option Nat
  deriving DecidableEq, Repr

/-- The counts of what a sweep did. -/
structure SweepStats where
  scanned : Nat
  removed : Nat
  compressed : Nat
  failed : Nat
  deriving DecidableEq, Repr

/-- A file that a sweep may touch, with the time of its last change. -/
structure Candidate where
  path : Path
  modified : Int
  deriving DecidableEq, Repr

namespace SweepRequest

/-- The candidate that an entry of the directory is, if it is one. -/
def candidate? (request : SweepRequest) (fs : FileSystem) (entry : Name × Node) :
    Option Candidate :=
  let path := request.directory.join ⟨entry.1⟩
  match entry.2 with
  | .file id =>
    if path.sameAs request.active || !request.names.recognizes entry.1 then none
    else some ⟨path, fs.modified id⟩
  | _ => none

/-- The files that the sweep may touch. -/
def candidates (request : SweepRequest) (fs : FileSystem) : Except IoError (List Candidate) :=
  match fs.lookup request.directory with
  | .error e => .error e
  | .ok (loc, .directory) => .ok ((fs.children loc).filterMap (request.candidate? fs))
  | .ok _ => .error .notADirectory

/-- The candidates, the last changed first. -/
def arranged (candidates : List Candidate) : List Candidate :=
  candidates.mergeSort fun a b => b.modified ≤ a.modified

/-- How far a sweep has come. -/
structure Progress where
  fs : FileSystem
  kept : Nat
  stats : SweepStats

/-- The candidate is beyond the limit on the number of files, or too old. -/
def condemns (request : SweepRequest) (kept : Nat) (candidate : Candidate) : Bool :=
  (match request.maxFiles with
    | some limit => limit ≤ kept
    | none => false) ||
  (match request.policy.cutoff? request.now with
    | some cutoff => candidate.modified < cutoff.total
    | none => false)

/-- Treats one candidate. -/
def treat (request : SweepRequest) (progress : Progress) (candidate : Candidate) : Progress :=
  let stats := progress.stats
  if request.condemns progress.kept candidate then
    match progress.fs.remove candidate.path with
    | .ok fs => { progress with fs := fs, stats := { stats with removed := stats.removed + 1 } }
    | .error _ => { progress with stats := { stats with failed := stats.failed + 1 } }
  else
    let kept := progress.kept + 1
    if request.policy.compress && !candidate.path.isCompressed then
      match progress.fs.compress candidate.path with
      | (.ok _, fs) => ⟨fs, kept, { stats with compressed := stats.compressed + 1 }⟩
      | (.error _, fs) => ⟨fs, kept, { stats with failed := stats.failed + 1 }⟩
    else { progress with kept := kept }

/-- Runs the sweep. If the directory cannot be listed, that is its only failure. -/
def run (request : SweepRequest) (fs : FileSystem) : SweepStats × FileSystem :=
  match request.candidates fs with
  | .error _ => (⟨0, 0, 0, 1⟩, fs)
  | .ok candidates =>
    let start : Progress := ⟨fs, 0, ⟨candidates.length, 0, 0, 0⟩⟩
    let finish := (arranged candidates).foldl request.treat start
    (finish.stats, finish.fs)

/-- Runs sweeps in their order. -/
def runAll (requests : List SweepRequest) (fs : FileSystem) : FileSystem :=
  requests.foldl (fun fs request => (request.run fs).2) fs

end SweepRequest

end LogRouter
