import LogRouter.Text.Blank

/-!
# Severities

* `Severity`: the six severities, ordered by `Severity.rank`.
* `Severity.name`, `Severity.upperName`: the two spellings of a severity.
* `Severity.ofName?`: the severity with a given name, in any case and with blanks around it;
  `warning` is another name of `warn`.
* `LevelKey`: the key of a routing rule, a severity or `all`.
-/

namespace LogRouter

/-- The severity of a record, from the least to the most severe. -/
inductive Severity where
  | trace
  | debug
  | info
  | warn
  | error
  | fatal
  deriving DecidableEq, Repr, Inhabited

namespace Severity

/-- The place of a severity in the order, from zero. -/
def rank : Severity → Nat
  | trace => 0
  | debug => 1
  | info => 2
  | warn => 3
  | error => 4
  | fatal => 5

instance : LE Severity := ⟨fun a b => a.rank ≤ b.rank⟩

instance (a b : Severity) : Decidable (a ≤ b) := inferInstanceAs (Decidable (a.rank ≤ b.rank))

theorem le_iff_rank_le {a b : Severity} : a ≤ b ↔ a.rank ≤ b.rank := Iff.rfl

theorem rank_inj {a b : Severity} (h : a.rank = b.rank) : a = b := by
  cases a <;> cases b <;> first | rfl | exact absurd h (by decide)

/-- All severities, ascending. -/
def all : List Severity := [trace, debug, info, warn, error, fatal]

theorem mem_all (s : Severity) : s ∈ all := by cases s <;> decide

/-- The name of a severity in configurations. -/
def name : Severity → String
  | trace => "trace"
  | debug => "debug"
  | info => "info"
  | warn => "warn"
  | error => "error"
  | fatal => "fatal"

/-- The name of a severity on a line of text. -/
def upperName : Severity → String
  | trace => "TRACE"
  | debug => "DEBUG"
  | info => "INFO"
  | warn => "WARN"
  | error => "ERROR"
  | fatal => "FATAL"

/-- The severity with the given name. -/
def ofName? (name : String) : Option Severity :=
  match Text.normalName name with
  | "trace" => some trace
  | "debug" => some debug
  | "info" => some info
  | "warn" => some warn
  | "warning" => some warn
  | "error" => some error
  | "fatal" => some fatal
  | _ => none

end Severity

/-- The key of a routing rule. -/
inductive LevelKey where
  /-- The catch-all key. -/
  | all
  /-- One severity. -/
  | level (severity : Severity)
  deriving DecidableEq, Repr

namespace LevelKey

/-- The name of a key in configurations. -/
def name : LevelKey → String
  | all => "all"
  | level severity => severity.name

/-- The key with the given name. -/
def ofName? (name : String) : Option LevelKey :=
  if Text.normalName name = "all" then some all else (Severity.ofName? name).map level

/-- The place of a rule with this key among the routes: `all` first, then by severity. -/
def order : LevelKey → Nat
  | all => 0
  | level severity => 1 + severity.rank

end LevelKey

end LogRouter
