import LogRouter.Route.Error
import Std.Data.HashMap

/-!
# The registry of destinations

* `WriterId`: the number of a destination, sixteen bits wide.
* `Registry`: the destinations in the order of their registration, with a look-up of their
  numbers.
* `Registry.register`: the number of a destination, a new one if the string is new.

Numbers are dense from zero, so the number of a destination is its place in the list.
-/

namespace LogRouter

/-- The number of a destination. -/
structure WriterId where
  index : UInt16
  deriving DecidableEq, Repr

namespace WriterId

/-- The largest index. -/
def maxIndex : Nat := 65535

/-- The index as a place in the list of destinations. -/
def place (id : WriterId) : Nat := id.index.toNat

/-- The id in words. -/
def text (id : WriterId) : String := "writer:" ++ toString id.place

end WriterId

/-- Destinations in the order of their registration, and the number of each. -/
structure Registry where
  destinations : Array String
  ids : Std.HashMap String WriterId

namespace Registry

/-- The registry without destinations. -/
def empty : Registry := ⟨#[], ∅⟩

/-- The number of a registered destination. -/
def id? (registry : Registry) (destination : String) : Option WriterId :=
  registry.ids[destination]?

/-- The number of a destination, which is registered if it is new. -/
def register (registry : Registry) (destination : String) :
    Except RoutingError (WriterId × Registry) :=
  match registry.id? destination with
  | some id => .ok (id, registry)
  | none =>
    if registry.destinations.size ≤ WriterId.maxIndex then
      let id : WriterId := ⟨registry.destinations.size.toUInt16⟩
      .ok (id, ⟨registry.destinations.push destination, registry.ids.insert destination id⟩)
    else .error (.tooManyDestinations destination)

/-- The numbers of several destinations, registered from left to right. -/
def registerAll (registry : Registry) :
    List String → Except RoutingError (List WriterId × Registry)
  | [] => .ok ([], registry)
  | destination :: rest =>
    match registry.register destination with
    | .error e => .error e
    | .ok (id, registry) =>
      match registry.registerAll rest with
      | .error e => .error e
      | .ok (ids, registry) => .ok (id :: ids, registry)

end Registry

end LogRouter
