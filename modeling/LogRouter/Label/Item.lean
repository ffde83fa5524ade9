import LogRouter.Text.Blank

/-!
# Items of a label pattern

A pattern is a sequence of items: literal text, runs of blanks, and fields introduced by `%`.

* `NumericField`, `TextField`: the fields of a moment, by how they are written.
* `Pad`: how a numeric field is filled up to its width.
* `Item.parse?`: the items of a pattern, if every field of it is known.

A field may have a padding mark between `%` and its letter if it stands for one number alone.
-/

namespace LogRouter

/-- How a number is filled up to the width of its field. -/
inductive Pad where
  | bare
  | zero
  | space
  deriving DecidableEq, Repr

/-- A field written as a number. -/
inductive NumericField where
  | year
  | century
  | yearOfCentury
  | isoYear
  | isoYearOfCentury
  | quarter
  | month
  | day
  | weekFromSunday
  | weekFromMonday
  | isoWeek
  | weekdayFromSunday
  | weekdayFromMonday
  | ordinal
  | hour
  | hour12
  | minute
  | second
  | nanosecond
  | timestamp
  deriving DecidableEq, Repr

/-- The places after the point of a second: as many as needed, or a fixed number of them. -/
inductive Precision where
  | asNeeded
  | milli
  | micro
  | nano
  deriving DecidableEq, Repr

/-- How the offset of a zone is written. -/
inductive OffsetStyle where
  /-- Hours and minutes together. -/
  | joined
  /-- Hours, a colon and minutes. -/
  | minutes
  /-- Hours, minutes and seconds with colons. -/
  | seconds
  /-- Hours alone. -/
  | hours
  /-- A style for reading only, with `Z` for no offset and without minutes if they are zero. -/
  | permissive
  deriving DecidableEq, Repr

/-- A field written as text. -/
inductive TextField where
  | shortMonth
  | longMonth
  | shortWeekday
  | longWeekday
  | lowerHalf
  | upperHalf
  /-- A point and the places behind it. -/
  | fraction (precision : Precision)
  /-- The places behind the point, without it. -/
  | bareFraction (precision : Precision)
  | zoneName
  | offset (style : OffsetStyle)
  /-- Date, time and offset in one. -/
  | full
  deriving DecidableEq, Repr

/-- An item of a pattern. -/
inductive Item where
  | literal (text : List Char)
  | blanks (text : List Char)
  | numeric (field : NumericField) (pad : Pad)
  | word (field : TextField)
  deriving DecidableEq, Repr

namespace Item

/-- A numeric field filled with zeros. -/
def zeroed (field : NumericField) : Item := .numeric field .zero

/-- A numeric field filled with spaces. -/
def spaced (field : NumericField) : Item := .numeric field .space

/-- Hours, minutes and seconds with colons. -/
def clock : List Item :=
  [zeroed .hour, .literal [':'], zeroed .minute, .literal [':'], zeroed .second]

/-- Month, day and year of the century with slashes. -/
def slashed : List Item :=
  [zeroed .month, .literal ['/'], zeroed .day, .literal ['/'], zeroed .yearOfCentury]

/-- The items of a field whose letter alone tells what it is. -/
def ofLetter? : Char → Option (List Item)
  | 'A' => some [.word .longWeekday]
  | 'B' => some [.word .longMonth]
  | 'C' => some [zeroed .century]
  | 'D' => some slashed
  | 'F' => some [zeroed .year, .literal ['-'], zeroed .month, .literal ['-'], zeroed .day]
  | 'G' => some [zeroed .isoYear]
  | 'H' => some [zeroed .hour]
  | 'I' => some [zeroed .hour12]
  | 'M' => some [zeroed .minute]
  | 'P' => some [.word .lowerHalf]
  | 'R' => some [zeroed .hour, .literal [':'], zeroed .minute]
  | 'S' => some [zeroed .second]
  | 'T' => some clock
  | 'U' => some [zeroed .weekFromSunday]
  | 'V' => some [zeroed .isoWeek]
  | 'W' => some [zeroed .weekFromMonday]
  | 'X' => some clock
  | 'Y' => some [zeroed .year]
  | 'Z' => some [.word .zoneName]
  | 'a' => some [.word .shortWeekday]
  | 'b' => some [.word .shortMonth]
  | 'h' => some [.word .shortMonth]
  | 'c' => some ([.word .shortWeekday, .blanks [' '], .word .shortMonth, .blanks [' '],
      spaced .day, .blanks [' ']] ++ clock ++ [.blanks [' '], zeroed .year])
  | 'd' => some [zeroed .day]
  | 'e' => some [spaced .day]
  | 'f' => some [zeroed .nanosecond]
  | 'g' => some [zeroed .isoYearOfCentury]
  | 'j' => some [zeroed .ordinal]
  | 'k' => some [spaced .hour]
  | 'l' => some [spaced .hour12]
  | 'm' => some [zeroed .month]
  | 'n' => some [.blanks ['\n']]
  | 'p' => some [.word .upperHalf]
  | 'q' => some [.numeric .quarter .bare]
  | 'r' => some [zeroed .hour12, .literal [':'], zeroed .minute, .literal [':'], zeroed .second,
      .blanks [' '], .word .upperHalf]
  | 's' => some [.numeric .timestamp .bare]
  | 't' => some [.blanks ['\t']]
  | 'u' => some [.numeric .weekdayFromMonday .bare]
  | 'v' => some [spaced .day, .literal ['-'], .word .shortMonth, .literal ['-'], zeroed .year]
  | 'w' => some [.numeric .weekdayFromSunday .bare]
  | 'x' => some slashed
  | 'y' => some [zeroed .yearOfCentury]
  | 'z' => some [.word (.offset .joined)]
  | '+' => some [.word .full]
  | '%' => some [.literal ['%']]
  | _ => none

/-- The number of places that a digit in front of `f` asks for. -/
def precision? : Char → Option Precision
  | '3' => some .milli
  | '6' => some .micro
  | '9' => some .nano
  | _ => none

/-- The items of the field behind `%`, and what follows it. -/
def field? : List Char → Option (List Item × List Char)
  | ':' :: ':' :: ':' :: 'z' :: rest => some ([.word (.offset .hours)], rest)
  | ':' :: ':' :: 'z' :: rest => some ([.word (.offset .seconds)], rest)
  | ':' :: 'z' :: rest => some ([.word (.offset .minutes)], rest)
  | '.' :: 'f' :: rest => some ([.word (.fraction .asNeeded)], rest)
  | '.' :: d :: 'f' :: rest => (precision? d).map fun p => ([.word (.fraction p)], rest)
  | c :: rest =>
    match precision? c, rest with
    | some p, 'f' :: rest => some ([.word (.bareFraction p)], rest)
    | some _, _ => none
    | none, _ => (ofLetter? c).map fun items => (items, rest)
  | [] => none

/-- The padding that a mark asks for. -/
def padMark? : Char → Option Pad
  | '-' => some .bare
  | '0' => some .zero
  | '_' => some .space
  | _ => none

/-- The items behind `%`, where a mark may precede the letter, and what follows them. -/
def marked? : List Char → Option (List Item × List Char)
  | '#' :: 'z' :: rest => some ([.word (.offset .permissive)], rest)
  | '#' :: _ => none
  | c :: rest =>
    match padMark? c with
    | none => field? (c :: rest)
    | some pad =>
      match field? rest with
      | some ([.numeric field _], rest) => some ([.numeric field pad], rest)
      | _ => none
  | [] => none

/-- The character starts neither a field nor a run of blanks. -/
def isPlain (c : Char) : Bool := c != '%' && !Text.isBlank c

theorem field?_length {s rest : List Char} {items : List Item} (h : field? s = some (items, rest)) :
    rest.length < s.length := by
  unfold field? at h
  split at h
  case h_6 c tail _ _ _ _ _ =>
    split at h
    · simp only [Option.some.injEq, Prod.mk.injEq] at h
      obtain ⟨_, rfl⟩ := h
      simp only [List.length_cons]; omega
    · cases h
    · simp only [Option.map_eq_some_iff, Prod.mk.injEq] at h
      obtain ⟨_, _, _, rfl⟩ := h
      simp
  case h_7 => cases h
  case h_5 =>
    simp only [Option.map_eq_some_iff, Prod.mk.injEq] at h
    obtain ⟨_, _, _, rfl⟩ := h
    simp only [List.length_cons]; omega
  all_goals
    simp only [Option.some.injEq, Prod.mk.injEq] at h
    obtain ⟨_, rfl⟩ := h
    simp only [List.length_cons]; omega

theorem marked?_length {s rest : List Char} {items : List Item}
    (h : marked? s = some (items, rest)) : rest.length < s.length := by
  unfold marked? at h
  split at h
  · simp only [Option.some.injEq, Prod.mk.injEq] at h
    obtain ⟨_, rfl⟩ := h
    simp only [List.length_cons]; omega
  · cases h
  · split at h
    · exact field?_length h
    · split at h
      · rename_i hf
        simp only [Option.some.injEq, Prod.mk.injEq] at h
        obtain ⟨_, rfl⟩ := h
        have := field?_length hf
        simp only [List.length_cons]; omega
      · cases h
  · cases h

/-- The items of a pattern, if every field of it is known. -/
def parse? : List Char → Option (List Item)
  | [] => some []
  | '%' :: rest =>
    match _h : marked? rest with
    | none => none
    | some (items, rest') => (parse? rest').map (items ++ ·)
  | c :: rest =>
    if Text.isBlank c then
      (parse? (rest.dropWhile Text.isBlank)).map (.blanks (c :: rest.takeWhile Text.isBlank) :: ·)
    else (parse? (rest.dropWhile isPlain)).map (.literal (c :: rest.takeWhile isPlain) :: ·)
termination_by s => s.length
decreasing_by
  · have := marked?_length _h
    simp only [List.length_cons]; omega
  · have := Text.length_dropWhile_le Text.isBlank rest
    simp only [List.length_cons]; omega
  · have := Text.length_dropWhile_le isPlain rest
    simp only [List.length_cons]; omega

end Item

end LogRouter
