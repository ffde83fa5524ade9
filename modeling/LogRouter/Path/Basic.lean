import LogRouter.Files.Error

/-!
# Paths

A path is the text of a file's place. It is taken apart at its slashes, where empty parts and the
part `.` say nothing, except for a `.` at the start of a relative path.

* `Path.components`: what a path says; `Path.sameAs` compares two paths by it.
* `Path.fileName?`, `Path.stem`, `Path.extension?`: the last part and its two halves, split at the
  last dot. A dot at the start of a name splits nothing.
* `Path.parent?`: the text in front of the last part; `Path.directory`: the directory it names.
* `Path.join`, `Path.withFileName`: a path below a path, and beside it.
* `Path.absolute`: the path seen from the root, without parts that say nothing; `..` stays.
-/

namespace LogRouter

/-- The name of a file in its directory. -/
abbrev Name : Type := List Char

/-- The text of a file's place. -/
structure Path where
  chars : List Char
  deriving DecidableEq, Repr, Inhabited

/-- What one part of a path says. -/
inductive Component where
  /-- The root of the file system. -/
  | root
  /-- The current directory. -/
  | current
  /-- The parent directory. -/
  | parent
  /-- An entry of the directory. -/
  | entry (name : Name)
  deriving DecidableEq, Repr

namespace Path

/-- The path with the given text. -/
def ofString (s : String) : Path := ⟨s.toList⟩

/-- The text of a path. -/
def text (p : Path) : String := String.ofList p.chars

/-- Splits a text at its slashes. -/
def split : List Char → List Name
  | [] => [[]]
  | c :: rest =>
    if c = '/' then [] :: split rest
    else
      match split rest with
      | [] => [[c]]
      | part :: parts => (c :: part) :: parts

/-- Joins parts with slashes. -/
def unsplit : List Name → List Char
  | [] => []
  | [part] => part
  | part :: next :: parts => part ++ '/' :: unsplit (next :: parts)

/-- The part says nothing. -/
def isIdle (part : Name) : Bool := part == [] || part == ['.']

/-- How a path starts: at the root, at the current directory by name, or without saying. -/
inductive Start where
  | root
  | current
  | plain
  deriving DecidableEq, Repr

/-- The start of a path and the text behind it. -/
def start : List Char → Start × List Char
  | '/' :: rest => (.root, rest)
  | ['.'] => (.current, [])
  | '.' :: '/' :: rest => (.current, '/' :: rest)
  | s => (.plain, s)

/-- The text of a start. -/
def Start.chars : Start → List Char
  | root => ['/']
  | current => ['.']
  | plain => []

/-- The component of a start. -/
def Start.components : Start → List Component
  | root => [.root]
  | current => [.current]
  | plain => []

/-- Drops the parts at the end that say nothing. -/
def trimIdle (parts : List Name) : List Name := (parts.reverse.dropWhile isIdle).reverse

/-- The component of a part that says something. -/
def componentOf (part : Name) : Component := if part = ['.', '.'] then .parent else .entry part

/-- What a path says. -/
def components (p : Path) : List Component :=
  (start p.chars).1.components ++
    ((split (start p.chars).2).filter (!isIdle ·)).map componentOf

/-- Two paths say the same. -/
def sameAs (p q : Path) : Bool := p.components == q.components

/-- The path starts at the root. -/
def isAbsolute (p : Path) : Bool := p.chars.head? == some '/'

/-- The parts behind the start, without those at the end that say nothing. -/
def body (p : Path) : List Name := trimIdle (split (start p.chars).2)

/-- The last part, unless it is `..` or there is none. -/
def fileName? (p : Path) : Option Name :=
  match p.body.getLast? with
  | some part => if part = ['.', '.'] then none else some part
  | none => none

/-- The text in front of the last part. The root and the empty path have none. -/
def parent? (p : Path) : Option Path :=
  match p.body with
  | [] => if (start p.chars).1 = .current then some ⟨[]⟩ else none
  | parts => some ⟨(start p.chars).1.chars ++ unsplit (trimIdle parts.dropLast)⟩

/-- The directory of a path, the current one if the path names none. -/
def directory (p : Path) : Path :=
  match p.parent? with
  | some parent => if parent.chars = [] then ⟨['.']⟩ else parent
  | none => ⟨['.']⟩

/-- The halves of a name at its last dot. Without a dot, or with one only at the start, the name
has one half. -/
def splitName (name : Name) : Name × Option Name :=
  let after := (name.reverse.takeWhile (· != '.')).reverse
  let before := (name.reverse.dropWhile (· != '.')).reverse.dropLast
  if before = [] then (name, none) else (before, some after)

/-- The file name without its extension; empty if there is no file name. -/
def stem (p : Path) : Name :=
  match p.fileName? with
  | some name => (splitName name).1
  | none => []

/-- The part of the file name behind its last dot. -/
def extension? (p : Path) : Option Name := p.fileName?.bind fun name => (splitName name).2

/-- The path `q` seen from `p`. -/
def join (p q : Path) : Path :=
  if q.isAbsolute then q
  else if p.chars = [] ∨ p.chars.getLast? = some '/' then ⟨p.chars ++ q.chars⟩
  else ⟨p.chars ++ '/' :: q.chars⟩

/-- The path with another file name. -/
def withFileName (p : Path) (name : Name) : Path :=
  match p.fileName? with
  | some _ => (p.parent?.getD ⟨[]⟩).join ⟨name⟩
  | none => p.join ⟨name⟩

/-- The text of a component as a path of its own. -/
def ofComponent : Component → Path
  | .root => ⟨['/']⟩
  | .current => ⟨['.']⟩
  | .parent => ⟨['.', '.']⟩
  | .entry name => ⟨name⟩

/-- The path starts with exactly two slashes. -/
def hasDoubleSlash : List Char → Bool
  | '/' :: '/' :: '/' :: _ => false
  | '/' :: '/' :: _ => true
  | _ => false

/-- Where the path seen from the root starts: at the root with one slash or two, or else in the
current directory, if it has a path. -/
def origin (p : Path) (cwd : Except IoError Path) : Except IoError Path :=
  if hasDoubleSlash p.chars then .ok ⟨['/', '/']⟩ else if p.isAbsolute then .ok ⟨[]⟩ else cwd

/-- The path seen from the root, where `cwd` is the current directory or the reason why that has no
path. A slash at the end is kept, as are two at the start; the empty path is nowhere. -/
def absolute (p : Path) (cwd : Except IoError Path) : Except IoError Path :=
  if p.chars = [] then .error .emptyPath
  else
    let said := p.components.filter (· ≠ .current)
    let said := if hasDoubleSlash p.chars then said.drop 1 else said
    match p.origin cwd with
    | .error e => .error e
    | .ok origin =>
      let whole := said.foldl (fun q c => q.join (ofComponent c)) origin
      .ok (if p.chars.getLast? = some '/' then whole.join ⟨[]⟩ else whole)

end Path

end LogRouter
