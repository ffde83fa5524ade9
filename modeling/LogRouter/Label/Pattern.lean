import LogRouter.Label.Match
import LogRouter.Label.Unit

/-!
# Time patterns

* `TimePattern`: a pattern whose items are known and whose labels can be part of a file name.
* `TimePattern.ofString`: the pattern of a text, or what is wrong with it.
* `TimePattern.label`: the label of a moment.

Whether labels hold path separators or can be written at all is tried out on one sample moment in
universal time.
-/

namespace LogRouter

/-- What can be wrong with a time pattern. -/
inductive PatternFault where
  | empty
  /-- Some field is not known. -/
  | unknownField
  /-- A label would hold a path separator, or cannot be written. -/
  | separator
  deriving DecidableEq, Repr

/-- The wording of what is wrong with the pattern `text`. -/
def PatternFault.message (text : String) : PatternFault → String
  | empty => "must not be empty"
  | unknownField => "'" ++ text ++ "' is not a valid strftime pattern"
  | separator => "bucket labels must not contain path separators"

/-- A pattern for the labels of files. -/
structure TimePattern where
  text : String
  items : List Item
  deriving DecidableEq, Repr

namespace TimePattern

/-- The moment on which patterns are tried out. -/
def sample : Moment := Moment.ofInstant .utc ⟨1735830245, 0⟩

/-- The character separates the parts of a path, here or on other systems. -/
def isSeparator (c : Char) : Bool := c == '/' || c == '\\'

/-- The pattern of a text. -/
def ofString (text : String) : Except PatternFault TimePattern :=
  if text.isEmpty then .error .empty
  else
    match Item.parse? text.toList with
    | none => .error .unknownField
    | some items =>
      match renderItems? sample items with
      | none => .error .separator
      | some label => if label.any isSeparator then .error .separator else .ok ⟨text, items⟩

/-- The label of a moment. -/
def label (pattern : TimePattern) (m : Moment) : List Char :=
  (renderItems? m pattern.items).getD []

/-- How long a label stays the same. -/
def unit (pattern : TimePattern) : BucketUnit := BucketUnit.ofPattern pattern.text.toList

end TimePattern

end LogRouter
