/-!
# Blanks and case

The characters that count as blank are those of the Unicode property `White_Space`. Names typed by
a user are compared after `trim` and `lower`; `lower` changes the letters `A` to `Z` only.
-/

namespace LogRouter.Text

/-- The characters of the Unicode property `White_Space`. -/
def isBlank (c : Char) : Bool :=
  let n := c.toNat
  (9 ≤ n && n ≤ 13) || n == 32 || n == 0x85 || n == 0xA0 || n == 0x1680 ||
    (0x2000 ≤ n && n ≤ 0x200A) || n == 0x2028 || n == 0x2029 || n == 0x202F || n == 0x205F ||
    n == 0x3000

/-- Drops the leading blanks. -/
def trimStart (s : List Char) : List Char := s.dropWhile isBlank

/-- Drops the blanks at both ends. -/
def trim (s : List Char) : List Char := (trimStart (trimStart s).reverse).reverse

/-- Lowers the letters `A` to `Z`. -/
def lower (s : List Char) : List Char := s.map Char.toLower

/-- A name as it is compared: without blanks at its ends and in lower case. -/
def normalName (s : String) : String := String.ofList (lower (trim s.toList))

/-- The text holds nothing but blanks. -/
def allBlank (s : List Char) : Bool := s.all isBlank

theorem length_dropWhile_le (p : Char → Bool) (s : List Char) :
    (s.dropWhile p).length ≤ s.length := (List.dropWhile_sublist p).length_le

end LogRouter.Text
