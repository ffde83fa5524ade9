import LogRouter.Settings.Basic
import LogRouter.Settings.Error
import LogRouter.Toml.Value

/-!
# Settings in a document

`Settings.ofMembers` reads the settings from the members of a TOML document. The members are taken
in their order, so of several faults the first one counts; a key that is missing leaves the value of
`Settings.initial`, and a key that is not known is skipped.

A structure is a table, or an array with the values of its keys in a fixed order. A date stands for
a table without known keys.
-/

namespace LogRouter

namespace Toml.Value

/-- The value as a string. -/
def asString : Value → Except ValueFault String
  | .string text => .ok text
  | _ => .error .malformed

/-- The value as a truth value. -/
def asBool : Value → Except ValueFault Bool
  | .boolean b => .ok b
  | _ => .error .malformed

/-- The value as a number of at most so many bits. -/
def asNat (bits : Nat) : Value → Except ValueFault Nat
  | .integer n => if 0 ≤ n ∧ n < Nat.pow 2 bits then .ok n.toNat else .error .malformed
  | _ => .error .malformed

/-- The value as a list of strings. -/
def asStrings : Value → Except ValueFault (List String)
  | .array items => items.mapM asString
  | _ => .error .malformed

/-- The value as lists of strings under keys, in ascending order of the keys. -/
def asLists : Value → Except ValueFault (List (String × List String))
  | .table members => do
    let lists ← members.mapM fun (key, v) => do return (key, ← v.asStrings)
    return lists.mergeSort fun a b => decide (a.1 ≤ b.1)
  | _ => .error .malformed

/-- The value is a table or an array without anything in it. -/
def isHollow : Value → Bool
  | .table members => members.isEmpty
  | .array items => items.isEmpty
  | _ => false

/-- The value as a format: its name, or a table with the name as its only key and a hollow value. -/
def asFormat : Value → Except ValueFault LogFormat
  | .string name =>
    match LogFormat.ofName? name with
    | some format => .ok format
    | none => .error .malformed
  | .table [(name, v)] =>
    match LogFormat.ofName? name, v.isHollow with
    | some format, true => .ok format
    | _, _ => .error .malformed
  | _ => .error .malformed

/-- The value as a severity. -/
def asSeverity (v : Value) : Except ValueFault Severity := do
  let name ← v.asString
  match Severity.ofName? name with
  | some severity => .ok severity
  | none => .error (.unknownName (.unknownLevel name))

/-- The value as a routing mode. -/
def asMode (v : Value) : Except ValueFault RoutingMode := do
  let name ← v.asString
  match RoutingMode.ofName? name with
  | some mode => .ok mode
  | none => .error (.unknownName (.unknownMode name))

/-- The members of a structure with the given keys. -/
def asMembers (keys : List String) : Value → Except ValueFault Members
  | .table members => .ok members
  | .array items => .ok (keys.zip items)
  | .dateTime _ => .ok []
  | _ => .error .malformed

end Toml.Value

open Toml (Value Members)

namespace Rotation

/-- The keys of the rotation settings. -/
def keys : List String :=
  ["enable_time_rotation", "time_pattern", "max_size_mb", "max_backups", "max_age", "compress"]

/-- The rotation settings after one member. -/
def setMember (r : Rotation) (member : String × Value) : Except ValueFault Rotation :=
  let (key, v) := member
  match key with
  | "enable_time_rotation" => do return { r with byTime := ← v.asBool }
  | "time_pattern" => do return { r with timePattern := ← v.asString }
  | "max_size_mb" => do return { r with maxSizeMb := (← v.asNat 64).toUInt64 }
  | "max_backups" => do return { r with maxBackups := (← v.asNat 64).toUInt64 }
  | "max_age" => do return { r with maxAge := (← v.asNat 32).toUInt32 }
  | "compress" => do return { r with compress := ← v.asBool }
  | _ => .ok r

/-- The rotation settings of a value. -/
def ofValue (v : Value) : Except ValueFault Rotation := do
  (← v.asMembers keys).foldlM setMember initial

end Rotation

namespace Settings

/-- The keys of the settings. -/
def keys : List String :=
  ["level", "format", "color", "destinations", "enable_level_routing", "routing_mode",
    "level_destinations", "rotation"]

/-- The settings after one member. -/
def setMember (s : Settings) (member : String × Value) : Except ValueFault Settings :=
  let (key, v) := member
  match key with
  | "level" => do return { s with level := ← v.asSeverity }
  | "format" => do return { s with format := ← v.asFormat }
  | "color" => do return { s with color := ← v.asBool }
  | "destinations" => do return { s with destinations := ← v.asStrings }
  | "enable_level_routing" => do return { s with levelRouting := ← v.asBool }
  | "routing_mode" => do return { s with mode := ← v.asMode }
  | "level_destinations" => do return { s with levelDestinations := ← v.asLists }
  | "rotation" => do return { s with rotation := ← Rotation.ofValue v }
  | _ => .ok s

/-- The settings of a value. -/
def ofValue (v : Value) : Except ValueFault Settings := do
  (← v.asMembers keys).foldlM setMember initial

/-- The settings of a document. -/
def ofMembers (members : Members) : Except ValueFault Settings :=
  match Toml.find? "output" members with
  | some v => ofValue v
  | none => .ok initial

end Settings

end LogRouter
