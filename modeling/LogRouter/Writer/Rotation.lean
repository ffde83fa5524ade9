import LogRouter.Sink.Error

/-!
# Rotation settings

`Rotation` holds the settings for the rotation of files: by time or by size, and how long rotated
files are kept.
-/

namespace LogRouter

/-- A counter of 64 bits is a number. -/
instance counterToNat : Coe UInt64 Nat := ⟨UInt64.toNat⟩

/-- The settings for the rotation of files. -/
structure Rotation where
  /-- Rotate when the label of the time pattern changes, not by size. -/
  byTime : Bool
  timePattern : String
  /-- The largest size of a file, in mebibytes. -/
  maxSizeMb : UInt64
  /-- The number of backups to keep, zero for no limit. -/
  maxBackups : UInt64
  /-- The age of files to keep, zero for no limit. -/
  maxAge : UInt32
  compress : Bool
  deriving DecidableEq, Repr

namespace Rotation

/-- The settings of an empty configuration. -/
def initial : Rotation := ⟨false, "%Y-%m-%d", 100, 10, 30, true⟩

/-- The largest number of 64 bits. -/
def largestSize : Nat := 18446744073709551615

/-- The largest size of a file in bytes, as far as 64 bits count. -/
def maxSizeBytes (rotation : Rotation) : Nat :=
  min (rotation.maxSizeMb.toNat * 1048576) largestSize

end Rotation

end LogRouter
