import LogRouter.Level.Severity

/-!
# Routing modes and level filters

* `RoutingMode`: how the key of a rule selects records.
* `LevelFilter`: the predicate of a rule on the severity of a record.
* `RoutingMode.filter?`: the filter of a key; outside of `duplicate`, `all` has none.
-/

namespace LogRouter

/-- How the keys of the rules select records. -/
inductive RoutingMode where
  /-- `all` takes what is at or above the minimum level, a level takes exactly itself. -/
  | duplicate
  /-- A level takes what is at or above it. -/
  | above
  /-- A level takes exactly itself. -/
  | exact
  deriving DecidableEq, Repr, Inhabited

/-- A predicate on severities. -/
inductive LevelFilter where
  /-- The severity is at or above the level. -/
  | atLeast (level : Severity)
  /-- The severity is the level. -/
  | exactly (level : Severity)
  deriving DecidableEq, Repr

namespace LevelFilter

/-- The filter takes records of the given severity. -/
def accepts : LevelFilter → Severity → Bool
  | atLeast level, severity => level ≤ severity
  | exactly level, severity => severity = level

/-- The least severity that the filter takes. -/
def floor : LevelFilter → Severity
  | atLeast level => level
  | exactly level => level

/-- The filter in words. -/
def text : LevelFilter → String
  | atLeast level => ">= " ++ level.name
  | exactly level => "== " ++ level.name

theorem accepts_floor (f : LevelFilter) : f.accepts f.floor = true := by
  cases f <;> simp [accepts, floor, Severity.le_iff_rank_le]

theorem floor_le_of_accepts {f : LevelFilter} {s : Severity} (h : f.accepts s = true) :
    f.floor ≤ s := by
  cases f <;> simp_all [accepts, floor, Severity.le_iff_rank_le]

end LevelFilter

namespace RoutingMode

/-- The name of a mode in configurations. -/
def name : RoutingMode → String
  | duplicate => "duplicate"
  | above => "above"
  | exact => "exact"

/-- The mode with the given name, in any case and with blanks around it. -/
def ofName? (name : String) : Option RoutingMode :=
  match Text.normalName name with
  | "duplicate" => some duplicate
  | "above" => some above
  | "exact" => some exact
  | _ => none

/-- The filter of a rule with the given key under the minimum level `minLevel`. -/
def filter? (mode : RoutingMode) (minLevel : Severity) : LevelKey → Option LevelFilter
  | .all => if mode = duplicate then some (.atLeast minLevel) else none
  | .level severity => if mode = above then some (.atLeast severity) else some (.exactly severity)

end RoutingMode

end LogRouter
