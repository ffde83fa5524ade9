import LogRouter.Decimal.Binary64

/-!
# JSON values

* `Json`: a JSON value; the members of an object are a list of pairs.
* `Json.insertMember`: members in strictly ascending order of their keys, the last value given to
  a key winning.
* `Json.sorted`: the same value with the members of every object in that order.

Keys are ordered by code point, which is also the order of their UTF-8 bytes.
-/

namespace LogRouter

/-- A JSON number: an integer or a finite real. -/
inductive Json.Number where
  | integer (value : Int)
  | real (value : Binary64)
  deriving DecidableEq, Repr

/-- A JSON value. -/
inductive Json where
  | null
  | bool (value : Bool)
  | number (value : Json.Number)
  | string (value : String)
  | array (items : List Json)
  | object (members : List (String × Json))
  deriving Repr, Inhabited

namespace Json

/-- The members of an object. -/
abbrev Members : Type := List (String × Json)

/-- Puts a value under a key of ascending members, replacing the value that is there. -/
def insertMember (key : String) (value : Json) : Members → Members
  | [] => [(key, value)]
  | (k, v) :: rest =>
    if key < k then (key, value) :: (k, v) :: rest
    else if key = k then (key, value) :: rest
    else (k, v) :: insertMember key value rest

/-- The members in ascending order of their keys; of two values for a key the last one is kept. -/
def sortMembers (members : Members) : Members :=
  members.foldl (fun acc (k, v) => insertMember k v acc) []

/-- The first value under a key. -/
def member? (key : String) (members : Members) : Option Json :=
  (members.find? fun (k, _) => k == key).map (·.2)

mutual

/-- The same value with the members of every object in ascending order. -/
def sorted : Json → Json
  | .array items => .array (sortedItems items)
  | .object members => .object (sortMembers (sortedMembers members))
  | v => v

/-- Every item, sorted inside. -/
def sortedItems : List Json → List Json
  | [] => []
  | v :: rest => sorted v :: sortedItems rest

/-- Every member, sorted inside. -/
def sortedMembers : Members → Members
  | [] => []
  | (k, v) :: rest => (k, sorted v) :: sortedMembers rest

end

end Json

end LogRouter
