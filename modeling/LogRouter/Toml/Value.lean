import LogRouter.Decimal.Binary64

/-!
# TOML values

`Toml.Value` is a value of a TOML document. The members of a table stand in the order in which the
document defines them, and no key occurs twice.
-/

namespace LogRouter.Toml

/-- A value of a TOML document. -/
inductive Value where
  | string (text : String)
  | integer (value : Int)
  /-- A number with a fraction or an exponent; `none` if it is infinite or not a number. -/
  | real (value : Option Binary64)
  | boolean (value : Bool)
  /-- A date, a time or both, as written. -/
  | dateTime (text : String)
  | array (items : List Value)
  | table (members : List (String × Value))
  deriving Repr, Inhabited

/-- The members of a table. -/
abbrev Members : Type := List (String × Value)

/-- The value under a key. -/
def find? {α : Type} (key : String) (members : List (String × α)) : Option α :=
  (members.find? fun (k, _) => k == key).map (·.2)

end LogRouter.Toml
