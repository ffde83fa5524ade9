import LogRouter.Text.Alphanumeric
import LogRouter.Text.Hexadecimal

/-!
# Regular expressions

`isExpression` tells whether a text without closing braces is a well-formed regular expression. An
opening brace would start a counted repetition or a number in braces, so it is well-formed only
where it stands for itself: in a class of characters or behind a backslash.

* `readEscaped?`: what a backslash and the characters behind it stand for.
* `skipClass?`: the rest of the text behind a class such as `[^a-z\d]`.
* `openGroup?`: the rest of the text behind the opening of a group, with its name or its flags.

An expression is matched without looking around a place of the text, so the edges of words and what
looks ahead or behind are refused.
-/

namespace LogRouter.Text

/-! ## Escapes -/

/-- What an escape stands for. -/
inductive Escaped where
  /-- The character itself. -/
  | char (c : Char)
  /-- One character of a class. -/
  | set
  /-- The start or the end of the text. -/
  | edge
  deriving DecidableEq, Repr

/-- The control character with a letter. -/
def controlOf? (c : Char) : Option Char :=
  match c with
  | 'a' => some '\x07'
  | 'f' => some '\x0c'
  | 'n' => some '\n'
  | 'r' => some '\r'
  | 't' => some '\t'
  | 'v' => some '\x0b'
  | _ => none

/-- Reads a character given by `count` hexadecimal digits. -/
def readHex? (count : Nat) (s : List Char) : Option (Escaped × List Char) :=
  if s.length < count then none else (hexChar? (s.take count)).map fun c => (.char c, s.drop count)

/-- The character stands for itself behind a backslash: it is in the ASCII range and neither a
letter nor a digit, and does not mark the edge of a word. -/
def isEscapable (c : Char) : Bool := c.toNat < 128 && !c.isAlphanum && c != '<' && c != '>'

/-- Reads what stands behind a backslash. A class named by one letter is a general category. -/
def readEscaped? : List Char → Option (Escaped × List Char)
  | [] => none
  | c :: rest =>
    if c ∈ ['d', 'D', 's', 'S', 'w', 'W'] then some (.set, rest)
    else if c ∈ ['A', 'z'] then some (.edge, rest)
    else if c = 'x' then readHex? 2 rest
    else if c = 'u' then readHex? 4 rest
    else if c = 'U' then readHex? 8 rest
    else if c ∈ ['p', 'P'] then
      if (rest.head?.map Char.toLower).any (· ∈ ['c', 'l', 'm', 'n', 'p', 's', 'z']) then
        some (.set, rest.tail)
      else none
    else
      match controlOf? c with
      | some control => some (.char control, rest)
      | none => if isEscapable c then some (.char c, rest) else none

/-! ## Classes -/

/-- The classes with a name between `[:` and `:]`. -/
def classNames : List (List Char) :=
  ["alnum", "alpha", "ascii", "blank", "cntrl", "digit", "graph", "lower", "print", "punct",
    "space", "upper", "word", "xdigit"].map String.toList

/-- The rest of the text behind a class with a name, whose opening bracket was read. -/
def skipNamedClass? : List Char → Option (List Char)
  | ':' :: s =>
    let s := if s.head? = some '^' then s.tail else s
    match s.dropWhile (· ≠ ':') with
    | ':' :: ']' :: rest => if s.takeWhile (· ≠ ':') ∈ classNames then some rest else none
    | _ => none
  | _ => none

/-- The text behind the start of a class, whose opening bracket was read. Hyphens at the start stand
for themselves, and so does a closing bracket. -/
def skipClassStart (s : List Char) : List Char :=
  let s := if s.head? = some '^' then s.tail else s
  if s.head? = some ']' then s.tail else s.dropWhile (· = '-')

/-- Reads a character or an escape of a class. -/
def readClassItem? : List Char → Option (Escaped × List Char)
  | [] => none
  | '\\' :: rest =>
    match readEscaped? rest with
    | some (.edge, _) => none
    | item => item
  | c :: rest => some (.char c, rest)

/-- The rest of the text behind an item of a class or a range from a character to a later one. -/
def skipClassRange? (s : List Char) : Option (List Char) := do
  let (low, rest) ← readClassItem? s
  match rest with
  | '-' :: ']' :: _ => rest
  | '-' :: '-' :: _ => rest
  | '-' :: rest =>
    match low, ← readClassItem? rest with
    | .char a, (.char b, rest) => if a ≤ b then some rest else none
    | _, _ => none
  | _ => rest

/-- The rest of the text behind a class that stands in `depth` other classes. Two ampersands, two
hyphens or two tildes join classes. `fuel` bounds the number of pieces. -/
def skipClassRest? : (fuel : Nat) → (depth : Nat) → List Char → Option (List Char)
  | 0, _, _ => none
  | fuel + 1, depth, s =>
    match s with
    | [] => none
    | ']' :: rest => if depth = 0 then some rest else skipClassRest? fuel (depth - 1) rest
    | '[' :: rest =>
      match skipNamedClass? rest with
      | some rest => skipClassRest? fuel depth rest
      | none => skipClassRest? fuel (depth + 1) (skipClassStart rest)
    | '&' :: '&' :: rest => skipClassRest? fuel depth rest
    | '-' :: '-' :: rest => skipClassRest? fuel depth rest
    | '~' :: '~' :: rest => skipClassRest? fuel depth rest
    | _ =>
      match skipClassRange? s with
      | some rest => skipClassRest? fuel depth rest
      | none => none

/-- The rest of the text behind a class, whose opening bracket was read. -/
def skipClass? (s : List Char) : Option (List Char) :=
  skipClassRest? (s.length + 1) 0 (skipClassStart s)

/-! ## Groups -/

/-- What an opening parenthesis starts. -/
inductive Opening where
  | group
  | named (name : List Char)
  /-- Flags that hold from there on; no group is left open. -/
  | flags
  deriving DecidableEq, Repr

/-- The text is a name of a group. -/
def isGroupName : List Char → Bool
  | [] => false
  | c :: rest =>
    (c == '_' || (isAlphanumeric c && !c.isDigit)) &&
      rest.all fun c => c ∈ ['_', '.', '[', ']'] || isAlphanumeric c

/-- The text is a list of different flags, where a hyphen turns off the ones behind it. -/
def areFlags (s : List Char) : Bool :=
  (s.all fun c => c ∈ ['i', 'm', 's', 'U', 'u', 'R', 'x', '-']) && decide s.Nodup &&
    s.getLast? != some '-'

/-- Reads the name of a group up to its closing bracket. -/
def readGroupName? (s : List Char) : Option (Opening × List Char) :=
  let name := s.takeWhile (· ≠ '>')
  match s.dropWhile (· ≠ '>') with
  | _ :: rest => if isGroupName name then some (.named name, rest) else none
  | [] => none

/-- Reads what an opening parenthesis starts. -/
def openGroup? : List Char → Option (Opening × List Char)
  | '?' :: 'P' :: '<' :: rest => readGroupName? rest
  | '?' :: '<' :: rest => readGroupName? rest
  | '?' :: rest =>
    let flags := rest.takeWhile fun c => c ≠ ':' && c ≠ ')'
    if areFlags flags then
      match rest.drop flags.length with
      | ':' :: rest => some (.group, rest)
      | ')' :: rest => if flags = [] then none else some (.flags, rest)
      | _ => none
    else none
  | rest => some (.group, rest)

/-! ## Expressions -/

/-- How far an expression was read. -/
structure ExpressionState where
  /-- The names of the groups so far. -/
  names : List (List Char)
  /-- The number of groups that are open. -/
  depth : Nat
  /-- Something stands in front that may be repeated. -/
  repeatable : Bool
  deriving DecidableEq, Repr

namespace ExpressionState

/-- Something was read that may be repeated. -/
def withItem (state : ExpressionState) : ExpressionState := { state with repeatable := true }

/-- What an opening parenthesis starts was read. -/
def enter? (state : ExpressionState) : Opening → Option ExpressionState
  | .group => some { state with depth := state.depth + 1, repeatable := false }
  | .named name =>
    if name ∈ state.names then none
    else some ⟨name :: state.names, state.depth + 1, false⟩
  | .flags => some { state with repeatable := false }

/-- Reads one piece of an expression that starts with the given character. -/
def step? (state : ExpressionState) (c : Char) (rest : List Char) :
    Option (ExpressionState × List Char) :=
  match c with
  | '(' => (openGroup? rest).bind fun (opening, rest) => (state.enter? opening).map (·, rest)
  | ')' => if state.depth = 0 then none else some (⟨state.names, state.depth - 1, true⟩, rest)
  | '|' => some ({ state with repeatable := false }, rest)
  | '[' => (skipClass? rest).map (state.withItem, ·)
  | '\\' => (readEscaped? rest).map fun (_, rest) => (state.withItem, rest)
  | '\x7b' => none
  | '*' => if state.repeatable then some (state, rest) else none
  | '+' => if state.repeatable then some (state, rest) else none
  | '?' => if state.repeatable then some (state, rest) else none
  | _ => some (state.withItem, rest)

/-- Reads the rest of an expression; `fuel` bounds the number of its pieces. -/
def finishes (state : ExpressionState) : (fuel : Nat) → List Char → Bool
  | 0, _ => false
  | _, [] => state.depth == 0
  | fuel + 1, c :: rest =>
    match state.step? c rest with
    | some (state, rest) => finishes state fuel rest
    | none => false

end ExpressionState

/-- The text, without closing braces, is a well-formed regular expression. -/
def isExpression (s : List Char) : Bool := ExpressionState.finishes ⟨[], 0, false⟩ (s.length + 1) s

end LogRouter.Text
