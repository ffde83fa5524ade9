import LogRouter.Text.Hexadecimal

/-!
# Quoted text

A quoted text stands between double quotes. `Quoted.escape` keeps every character but the quote,
the backslash and the control characters; five controls have a letter, the others four
hexadecimal digits. The quoted form of any text is free of newlines.
-/

namespace LogRouter.Text.Quoted

/-- The escaped form of one character. -/
def escape (c : Char) : List Char :=
  if c == '"' then ['\\', '"']
  else if c == '\\' then ['\\', '\\']
  else if c == '\n' then ['\\', 'n']
  else if c == '\r' then ['\\', 'r']
  else if c == '\t' then ['\\', 't']
  else if c.toNat == 8 then ['\\', 'b']
  else if c.toNat == 12 then ['\\', 'f']
  else if c.toNat < 32 then
    ['\\', 'u', '0', '0', hexDigit (c.toNat / 16), hexDigit (c.toNat % 16)]
  else [c]

/-- The quoted form of a text. -/
def encode (s : List Char) : List Char := '"' :: (s.flatMap escape ++ ['"'])

end LogRouter.Text.Quoted
