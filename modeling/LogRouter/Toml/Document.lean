import LogRouter.Toml.Scalar

/-!
# TOML documents

`Toml.read?` reads a document into the members of its root table.

* `Entry`: a value, a table with its two marks, or the rows of an array of tables.
* `TableState.at?`: changes the table that a path leads to. Missing tables on the way are made, and
  of an array of tables the path takes the last row.
* `State.define?`, `State.open?`: a key with its value, and the header of a table.

A table is *implicit* as long as only the path to another one has named it, and *dotted* if a key
with dots has made it. A table is defined once: a header may name a table that exists only if it is
implicit and not dotted, and a key with dots may only go through tables made by such keys.
-/

namespace LogRouter.Toml

/-! ## Values -/

/-- Drops blanks, line ends and comments. -/
def skipTrivia : List Char → List Char
  | [] => []
  | c :: rest =>
    if isLineBlank c then skipTrivia rest
    else if c = '#' then skipTrivia (rest.dropWhile isCommentChar)
    else c :: rest
termination_by s => s.length
decreasing_by
  · simp
  · have := Text.length_dropWhile_le isCommentChar rest
    simp only [List.length_cons]; omega

/-- The members of a table in braces, where a table made by keys with dots is marked. -/
inductive InlineEntry where
  | value (v : Value)
  | dotted (members : List (String × InlineEntry))

/-- Puts a value under a path of keys, through tables made by such paths. -/
def insertInline? (members : List (String × InlineEntry)) (v : Value) :
    List String → Option (List (String × InlineEntry))
  | [] => none
  | [key] =>
    match find? key members with
    | none => some (members ++ [(key, .value v)])
    | some _ => none
  | key :: path =>
    match find? key members with
    | none => (insertInline? [] v path).map fun inner => members ++ [(key, .dotted inner)]
    | some (.value _) => none
    | some (.dotted inner) =>
      (insertInline? inner v path).map fun inner =>
        members.map fun (k, entry) => if k == key then (k, .dotted inner) else (k, entry)

mutual

/-- The value of an entry. -/
def InlineEntry.toValue : InlineEntry → Value
  | .value v => v
  | .dotted members => .table (inlineMembers members)

/-- The members as values. -/
def inlineMembers : List (String × InlineEntry) → Members
  | [] => []
  | (k, entry) :: rest => (k, entry.toValue) :: inlineMembers rest

end

mutual

/-- Reads a value inside `depth` others. -/
def readValue? (depth : Nat) : (fuel : Nat) → List Char → Read Value
  | 0, _ => none
  | fuel + 1, s =>
    match s with
    | '[' :: rest =>
      if depth + 1 < depthLimit then
        (readItems? (depth + 1) fuel [] (skipTrivia rest)).map fun (items, rest) =>
          (.array items, rest)
      else none
    | '\x7b' :: rest =>
      if depth + 1 < depthLimit then
        match skipSpace rest with
        | '\x7d' :: rest => some (.table [], rest)
        | rest =>
          (readInline? (depth + 1) fuel [] rest).map fun (members, rest) =>
            (.table (inlineMembers members), rest)
      else none
    | _ => readScalar? s

/-- Reads the items of an array up to its bracket, behind the reversed `acc`. -/
def readItems? (depth : Nat) : (fuel : Nat) → List Value → List Char → Read (List Value)
  | 0, _, _ => none
  | fuel + 1, acc, s =>
    match s with
    | ']' :: rest => some (acc.reverse, rest)
    | _ =>
      match readValue? depth fuel s with
      | none => none
      | some (v, rest) =>
        match skipTrivia rest with
        | ',' :: rest => readItems? depth fuel (v :: acc) (skipTrivia rest)
        | ']' :: rest => some ((v :: acc).reverse, rest)
        | _ => none

/-- Reads the members of a table in braces up to its brace, behind those that were read. -/
def readInline? (depth : Nat) :
    (fuel : Nat) → List (String × InlineEntry) → List Char → Read (List (String × InlineEntry))
  | 0, _, _ => none
  | fuel + 1, acc, s =>
    match readKey? s with
    | some (path, '=' :: rest) =>
      match readValue? depth fuel (skipSpace rest) with
      | none => none
      | some (v, rest) =>
        match insertInline? acc v path with
        | none => none
        | some acc =>
          match skipSpace rest with
          | ',' :: rest => readInline? depth fuel acc rest
          | '\x7d' :: rest => some (acc, rest)
          | _ => none
    | _ => none

end

/-! ## Tables -/

/-- The two marks of a table. -/
structure Marks where
  /-- Only the path to another table has named it. -/
  implicit : Bool
  /-- A key with dots has made it. -/
  dotted : Bool
  deriving DecidableEq, Repr

/-- What stands under a key of a table. -/
inductive Entry where
  | value (v : Value)
  | table (marks : Marks) (entries : List (String × Entry))
  | tables (rows : List (List (String × Entry)))

/-- The entries of a table, in the order of their definition. -/
abbrev Entries : Type := List (String × Entry)

/-- A table with its marks. -/
structure TableState where
  marks : Marks
  entries : Entries

/-- The marks of a table that a header has named. -/
def Marks.explicit : Marks := ⟨false, false⟩

/-- Replaces what stands under a key. -/
def replaceEntry (key : String) (entry : Entry) (entries : Entries) : Entries :=
  entries.map fun (k, old) => if k == key then (k, entry) else (k, old)

/-- Removes what stands under a key. -/
def removeEntry (key : String) (entries : Entries) : Entries :=
  entries.filter fun (k, _) => k != key

namespace TableState

/-- The empty table that a header has named. -/
def fresh : TableState := ⟨.explicit, []⟩

/-- Changes the table that a path leads to. Missing tables on the way are implicit, and dotted if
the path is that of a key. -/
def at? (dotted : Bool) (change : TableState → Option TableState) :
    List String → TableState → Option TableState
  | [], t => change t
  | key :: path, t =>
    match find? key t.entries with
    | none =>
      (at? dotted change path ⟨⟨true, dotted⟩, []⟩).map fun inner =>
        { t with entries := t.entries ++ [(key, .table inner.marks inner.entries)] }
    | some (.value _) => none
    | some (.tables rows) =>
      match rows.getLast? with
      | none => none
      | some row =>
        (at? dotted change path ⟨.explicit, row⟩).map fun inner =>
          { t with entries := replaceEntry key (.tables (rows.dropLast ++ [inner.entries])) t.entries }
    | some (.table marks entries) =>
      if dotted && !marks.implicit then none
      else
        (at? dotted change path ⟨marks, entries⟩).map fun inner =>
          { t with entries := replaceEntry key (.table inner.marks inner.entries) t.entries }

/-- Adds a key with its value. A key with dots may only end in a table made by such a key, and
every other key in a table not made by one. -/
def addValue? (key : String) (inPath : Bool) (v : Value) (t : TableState) : Option TableState :=
  if t.marks.dotted != inPath then none
  else
    match find? key t.entries with
    | some _ => none
    | none => some { t with entries := t.entries ++ [(key, .value v)] }

end TableState

/-- How far a document was read: the tables that are finished, and the table of the last header
with its path. -/
structure State where
  root : TableState
  current : TableState
  path : List String
  /-- The last header was that of a row of an array of tables. -/
  isRow : Bool

namespace State

/-- Nothing was read. -/
def start : State := ⟨.fresh, .fresh, [], false⟩

/-- Puts the table of the last header in its place. -/
def finish? (s : State) : Option TableState :=
  match s.path.getLast? with
  | none => some s.current
  | some key =>
    TableState.at? false (fun parent =>
      match s.isRow, find? key parent.entries with
      | true, none => some { parent with entries := parent.entries ++ [(key, .tables [s.current.entries])] }
      | true, some (.tables rows) =>
        some { parent with
          entries := replaceEntry key (.tables (rows ++ [s.current.entries])) parent.entries }
      | true, some _ => none
      | false, none =>
        some { parent with
          entries := parent.entries ++ [(key, .table s.current.marks s.current.entries)] }
      | false, some (.table marks _) =>
        if marks.implicit then
          some { parent with
            entries := replaceEntry key (.table s.current.marks s.current.entries) parent.entries }
        else none
      | false, some _ => none) s.path.dropLast s.root

/-- Adds a key, which may have dots, with its value to the table of the last header. -/
def define? (s : State) (path : List String) (v : Value) : Option State :=
  match path.getLast? with
  | none => none
  | some key =>
    (TableState.at? true (TableState.addValue? key (!path.dropLast.isEmpty) v) path.dropLast
      s.current).map fun current => { s with current := current }

/-- The table of a header, which is taken out of its place if it is there. -/
def open? (s : State) (path : List String) : Option State :=
  match s.finish?, path.getLast? with
  | some root, some key =>
    match TableState.at? false some path.dropLast root with
    | none => none
    | some root =>
      match entryAt? path root with
      | none => some ⟨root, .fresh, path, false⟩
      | some (.table marks entries) =>
        if marks.implicit && !marks.dotted then
          match TableState.at? false (fun t => some { t with entries := removeEntry key t.entries })
              path.dropLast root with
          | some root => some ⟨root, ⟨.explicit, entries⟩, path, false⟩
          | none => none
        else none
      | some _ => none
  | _, _ => none
where
  /-- What stands under a path. -/
  entryAt? : List String → TableState → Option Entry
  | [], _ => none
  | [key], t => find? key t.entries
  | key :: path, t =>
    match find? key t.entries with
    | some (.table marks entries) => entryAt? path ⟨marks, entries⟩
    | some (.tables rows) => entryAt? path ⟨.explicit, rows.getLast?.getD []⟩
    | _ => none

/-- A new row of the array of tables of a header. -/
def openRow? (s : State) (path : List String) : Option State :=
  match s.finish?, path.getLast? with
  | some root, some key =>
    (TableState.at? false (fun t =>
      match find? key t.entries with
      | none => some { t with entries := t.entries ++ [(key, .tables [])] }
      | some (.tables _) => some t
      | some _ => none) path.dropLast root).map fun root => ⟨root, .fresh, path, true⟩
  | _, _ => none

end State

mutual

/-- The value of an entry. -/
def Entry.toValue : Entry → Value
  | .value v => v
  | .table _ entries => .table (membersOf entries)
  | .tables rows => .array (rowValues rows)

/-- The entries as members. -/
def membersOf : Entries → Members
  | [] => []
  | (k, entry) :: rest => (k, entry.toValue) :: membersOf rest

/-- The rows of an array of tables as values. -/
def rowValues : List Entries → List Value
  | [] => []
  | row :: rest => .table (membersOf row) :: rowValues rest

end

/-! ## Lines -/

/-- What follows the last thing on a line: blanks, a comment, and the end of the line. -/
def readLineEnd? (s : List Char) : Option (List Char) :=
  let rest := match skipSpace s with
    | '#' :: rest => rest.dropWhile isCommentChar
    | rest => rest
  match rest with
  | [] => some []
  | '\n' :: rest => some rest
  | _ => none

/-- Reads the header of a table behind its brackets. -/
def readHeader? (close : List Char) (s : List Char) : Read (List String) :=
  match readKey? s with
  | some (path, rest) =>
    if close.isPrefixOf rest then some (path, rest.drop close.length) else none
  | none => none

/-- Reads a line that is not blank. -/
def readLine? (state : State) (s : List Char) : Option (State × List Char) := do
  match s with
  | '[' :: '[' :: rest =>
    let (path, rest) ← readHeader? [']', ']'] rest
    let rest ← readLineEnd? rest
    let state ← state.openRow? path
    return (state, rest)
  | '[' :: rest =>
    let (path, rest) ← readHeader? [']'] rest
    let rest ← readLineEnd? rest
    let state ← state.open? path
    return (state, rest)
  | _ =>
    let (path, rest) ← readKey? s
    let rest ← readMark? '=' rest
    let (v, rest) ← readValue? 0 (rest.length + 1) (skipSpace rest)
    let rest ← readLineEnd? rest
    let state ← state.define? path v
    return (state, rest)

/-- Reads the lines of a document; `fuel` bounds their number. -/
def readLines? (state : State) : (fuel : Nat) → List Char → Option State
  | 0, _ => none
  | fuel + 1, s =>
    match skipSpace s with
    | [] => some state
    | '\n' :: rest => readLines? state fuel rest
    | '#' :: rest =>
      match readLineEnd? ('#' :: rest) with
      | some rest => readLines? state fuel rest
      | none => none
    | s =>
      match readLine? state s with
      | some (state, rest) => readLines? state fuel rest
      | none => none

/-- The text with `\n` at the end of every line. A return that does not stand in front of a line
end is refused. -/
def unifyLineEnds? (acc : List Char) : List Char → Option (List Char)
  | [] => some acc.reverse
  | '\r' :: '\n' :: rest => unifyLineEnds? ('\n' :: acc) rest
  | c :: rest => if c = '\r' then none else unifyLineEnds? (c :: acc) rest

/-- Drops the mark that may stand at the start of a text. -/
def skipByteOrderMark : List Char → List Char
  | '\uFEFF' :: rest => rest
  | s => s

/-- Reads a document into the members of its root table. -/
def read? (text : List Char) : Option Members := do
  let s ← unifyLineEnds? [] (skipByteOrderMark text)
  let state ← readLines? .start (s.length + 1) s
  let root ← state.finish?
  return membersOf root.entries

end LogRouter.Toml
