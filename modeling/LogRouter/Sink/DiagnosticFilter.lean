import LogRouter.Sink.Diagnostic
import LogRouter.Text.Expression

/-!
# Filters of diagnostics

A filter is a list of directives between commas. A directive is a level alone or has the form

    target[span{field=value}]=level

where everything but one of target and brackets may be missing.

* `Directive`: the warnings that a directive is about, and whether it lets them through.
* `Directive.ofText?`: reads a directive.
* `Diagnostic.isShown`: a filter lets a warning through. Of the directives about the warning the one
  that `Directive.precedes` the others decides, and of two about the same warnings the later one.

A directive with a span, or with a value of a field, is about what happens within spans. The
warnings of this program happen outside of any.
-/

namespace LogRouter

/-- The warnings that a directive is about, and whether it lets them through. -/
structure Directive where
  /-- The start of the names of the parts of the program that give them. -/
  target : List Char
  /-- They happen within spans. -/
  inSpans : Bool
  /-- The name of a field that they have. -/
  field : Option (List Char)
  admits : Bool
  deriving DecidableEq, Repr

namespace Directive

/-! ## Levels -/

/-- Whether the level with a number includes warnings. -/
def numberAdmits? (s : List Char) : Option Bool :=
  let digits := if s.head? = some '+' then s.tail else s
  if digits = [] ∨ !digits.all Char.isDigit then none
  else
    let n : Nat := digits.foldl (fun n c => n * 10 + (c.toNat - 48)) 0
    if n ≤ 5 then some (decide (2 ≤ n)) else none

/-- Whether the level with a number or a name includes warnings. -/
def levelAdmits? (s : List Char) : Option Bool :=
  let name := String.ofList (Text.lower s)
  if name ∈ ["off", "error"] then some false
  else if name ∈ ["warn", "info", "debug", "trace"] then some true
  else numberAdmits? s

/-- Whether the level behind an equals sign includes warnings. Nothing stands for the level of all
messages. -/
def statedLevelAdmits? (s : List Char) : Option Bool :=
  if s = [] then some true else levelAdmits? s

/-! ## Fields -/

/-- The text is empty or an exponent of ten. -/
def isExponent : List Char → Bool
  | [] => true
  | c :: s =>
    let digits := if s.head? = some '+' ∨ s.head? = some '-' then s.tail else s
    (c == 'e' || c == 'E') && !digits.isEmpty && digits.all Char.isDigit

/-- The text is a number without a sign. -/
def isNumber (s : List Char) : Bool :=
  let whole := s.takeWhile Char.isDigit
  String.ofList (Text.lower s) ∈ ["inf", "infinity", "nan"] ||
    match s.dropWhile Char.isDigit with
    | '.' :: rest =>
      let places := rest.takeWhile Char.isDigit
      !(whole ++ places).isEmpty && isExponent (rest.dropWhile Char.isDigit)
    | rest => !whole.isEmpty && isExponent rest

/-- The text is a value of a field: a regular expression, or a number with a plus sign in front. -/
def isValue (s : List Char) : Bool :=
  Text.isExpression s || (s.head? == some '+' && isNumber s.tail)

/-- The name of a field, and whether a value follows it. What stands behind a second equals sign
says nothing. -/
def readField? (s : List Char) : Option (List Char × Bool) :=
  if s = [] then none
  else
    match s.dropWhile (· ≠ '=') with
    | _ :: value =>
      if isValue (value.takeWhile (· ≠ '=')) then some (s.takeWhile (· ≠ '='), true) else none
    | [] => some (s, false)

/-! ## Directives -/

/-- The characters of a text from a place on up to another. -/
def cut (s : List Char) (start stop : Nat) : List Char := (s.drop start).take (stop - start)

/-- The first place from `start` on with one of the given characters. -/
def placeOf (marks s : List Char) (start : Nat) : Nat :=
  start + ((s.drop start).takeWhile (· ∉ marks)).length

/-- What the text behind the brackets of a directive, which end in front of a place, says about the
level. -/
def levelBehind? (shown s : List Char) (place : Nat) : Option Bool :=
  match shown[place]? with
  | none => some true
  | some '=' => statedLevelAdmits? (s.drop (place + 1))
  | some _ => none

/-- Reads a directive whose brackets open at a place. -/
def ofBrackets? (shown s : List Char) (place : Nat) : Option Directive :=
  let stop := placeOf [']', '\x7b'] shown (place + 1)
  match shown[stop]? with
  | some ']' => (levelBehind? shown s (stop + 1)).map (⟨s.take place, true, none, ·⟩)
  | some _ => do
    let close := placeOf ['\x7d'] shown (stop + 1)
    let (name, hasValue) ← readField? (cut s (stop + 1) close)
    if cut shown close (close + 2) ≠ ['\x7d', ']'] then none
    let admits ← levelBehind? shown s (close + 2)
    return ⟨s.take place, hasValue || place + 1 < stop, some name, admits⟩
  | none => none

/-- The character may start a target or a level. -/
def startsName (c : Char) : Bool := c ∈ ['-', ':', '_'] || Text.isAlphanumeric c

/-- Reads a directive. Its parts are looked for in the text without the blanks around it, and are
what stands at these places of the whole text; a blank in front shifts them. -/
def ofText? (s : List Char) : Option Directive :=
  let shown := Text.trim s
  match shown with
  | [] => none
  | c :: _ =>
    if c = '[' then ofBrackets? shown s 0
    else if startsName c then
      let place := placeOf ['=', '['] shown 0
      match shown[place]? with
      | none =>
        match levelAdmits? s with
        | some admits => some ⟨[], false, none, admits⟩
        | none => some ⟨s, false, none, true⟩
      | some '=' => (statedLevelAdmits? (s.drop (place + 1))).map (⟨s.take place, false, none, ·⟩)
      | some _ => ofBrackets? shown s place
    else none

/-! ## Filters -/

/-- The directive is about the warning. -/
def concerns (directive : Directive) (d : Diagnostic) : Bool :=
  !directive.inSpans && directive.target.isPrefixOf d.target.toList &&
    directive.field.all fun name =>
      name == "message".toList || d.fields.any fun field => field.1.toList == name

/-- Of two directives about one warning the one with the longer target decides, then the one with a
field, then the one with the later name of the field. -/
def precedes (a b : Directive) : Bool :=
  if a.target.length ≠ b.target.length then b.target.length < a.target.length
  else
    match a.field, b.field with
    | some name, some other => other < name
    | some _, none => true
    | none, _ => false

/-- The parts of a text between commas. -/
def parts (s : List Char) : List (List Char) :=
  s.foldr (fun c acc => if c = ',' then [] :: acc else
    match acc with
    | part :: rest => (c :: part) :: rest
    | [] => [[c]]) [[]]

/-- The directives of a filter; empty ones are left out. -/
def ofFilter? (filter : String) : Option (List Directive) :=
  ((parts filter.toList).filter (· ≠ [])).mapM ofText?

/-- The directive among those about a warning that decides on it. -/
def deciding? (directives : List Directive) (d : Diagnostic) : Option Directive :=
  (directives.filter (·.concerns d)).foldl
    (fun best next => if best.any (·.precedes next) then best else some next) none

end Directive

/-- The filter lets the warning through. A filter that makes no sense lets all warnings through. -/
def Diagnostic.isShown (filter : String) (d : Diagnostic) : Bool :=
  match Directive.ofFilter? filter with
  | none => true
  | some directives => (Directive.deciding? directives d).any (·.admits)

end LogRouter
