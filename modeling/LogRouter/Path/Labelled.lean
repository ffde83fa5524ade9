import LogRouter.Path.Basic

/-!
# Labelled paths

The files that a writer leaves behind carry a label between the stem and the extension of its
path: `logs/app.log` with a dot and the label `2025-01-02` is `logs/app.2025-01-02.log`.

* `Path.labelled`: the path with a label.
* `Path.isCompressed`, `Path.compressed`: the path of a compressed file.
-/

namespace LogRouter

namespace Path

/-- The extension with its dot, empty if there is none. -/
def suffix (p : Path) : Name :=
  match p.extension? with
  | some extension => '.' :: extension
  | none => []

/-- The path with a label behind its stem. -/
def labelled (base : Path) (separator : Char) (label : Name) : Path :=
  base.withFileName (base.stem ++ separator :: (label ++ base.suffix))

/-- The extension of compressed files. -/
def compressedExtension : Name := ['l', 'z', '4']

/-- The path is that of a compressed file. -/
def isCompressed (p : Path) : Bool := p.extension? == some compressedExtension

/-- The path of the compressed form of a file. -/
def compressed (p : Path) : Path := ⟨p.chars ++ '.' :: compressedExtension⟩

end Path

end LogRouter
