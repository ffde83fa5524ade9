import LogRouter.Label.Match
import LogRouter.Path.Labelled

/-!
# Names of rotated files

* `RotatedName`: the shape of the names that one writer leaves behind, a label between two fixed
  texts.
* `RotatedName.around`: the shape of the labelled forms of a path.
* `RotatedName.recognizes`: a name has the shape, possibly behind `.lz4`. A label has to be read
  whole by the pattern and may not be empty.
-/

namespace LogRouter

/-- The text in front of `s`'s rest, taken off if it is there. -/
def stripFront? (front s : List Char) : Option (List Char) :=
  if front.isPrefixOf s then some (s.drop front.length) else none

/-- The text at the end of `s`, taken off if it is there. -/
def stripBack? (back s : List Char) : Option (List Char) :=
  if back.isSuffixOf s then some (s.take (s.length - back.length)) else none

/-- The shape of names: a label of the given pattern between two fixed texts. -/
structure RotatedName where
  front : Name
  pattern : List Char
  back : Name
  deriving DecidableEq, Repr

namespace RotatedName

/-- The shape of the labelled forms of a path. -/
def around (base : Path) (separator : Char) (pattern : List Char) : RotatedName :=
  ⟨base.stem ++ [separator], pattern, base.suffix⟩

/-- The text is a label. -/
def readsLabel (names : RotatedName) (label : List Char) : Bool :=
  match Item.parse? names.pattern with
  | some items => !label.isEmpty && readsAs items label
  | none => false

/-- The label of a name that has the shape. -/
def label? (names : RotatedName) (name : Name) : Option (List Char) :=
  (stripFront? names.front name).bind (stripBack? names.back)

/-- The name has the shape. -/
def recognizesPlain (names : RotatedName) (name : Name) : Bool :=
  match names.label? name with
  | some label => names.readsLabel label
  | none => false

/-- The name has the shape, possibly behind `.lz4`. -/
def recognizes (names : RotatedName) (name : Name) : Bool :=
  names.recognizesPlain name ||
    match stripBack? ('.' :: Path.compressedExtension) name with
    | some plain => names.recognizesPlain plain
    | none => false

end RotatedName

end LogRouter
