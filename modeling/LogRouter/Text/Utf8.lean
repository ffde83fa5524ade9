/-!
# UTF-8

* `Bytes`: a byte string.
* `Utf8.encode`: the bytes of a text.
* `Utf8.decode?`: the text of bytes that are UTF-8 throughout.
* `Utf8.decodeLossy`: every maximal piece that starts no character is read as `U+FFFD`.

Both readers go by the lead byte, which fixes the number of continuation bytes and the range of
the first one; that range rules out overlong forms, surrogates and numbers past `0x10FFFF`.
-/

namespace LogRouter

/-- A byte string. -/
abbrev Bytes : Type := List UInt8

namespace Utf8

/-- The bytes of a text. -/
def encode (s : List Char) : Bytes := s.flatMap String.utf8EncodeChar

/-- The bytes of a string. -/
def ofString (s : String) : Bytes := encode s.toList

/-- What a lead byte announces: the bits it contributes, the number of continuation bytes, and the
range of the first of them. -/
structure Lead where
  bits : Nat
  more : Nat
  lo : UInt8
  hi : UInt8

/-- The reading of a lead byte, if it is one. -/
def Lead.of? (b : UInt8) : Option Lead :=
  if b < 0x80 then some ⟨b.toNat, 0, 0x80, 0xBF⟩
  else if b < 0xC2 then none
  else if b < 0xE0 then some ⟨b.toNat - 0xC0, 1, 0x80, 0xBF⟩
  else if b == 0xE0 then some ⟨0, 2, 0xA0, 0xBF⟩
  else if b == 0xED then some ⟨0xD, 2, 0x80, 0x9F⟩
  else if b < 0xF0 then some ⟨b.toNat - 0xE0, 2, 0x80, 0xBF⟩
  else if b == 0xF0 then some ⟨0, 3, 0x90, 0xBF⟩
  else if b < 0xF4 then some ⟨b.toNat - 0xF0, 3, 0x80, 0xBF⟩
  else if b == 0xF4 then some ⟨4, 3, 0x80, 0x8F⟩
  else none

/-- Reads `more` continuation bytes behind the bits `acc`; stops in front of the first byte that
is out of range. -/
def continuation : (more : Nat) → (lo hi : UInt8) → (acc : Nat) → Bytes → Option Nat × Bytes
  | 0, _, _, acc, rest => (some acc, rest)
  | _ + 1, _, _, _, [] => (none, [])
  | more + 1, lo, hi, acc, b :: rest =>
    if lo ≤ b && b ≤ hi then continuation more 0x80 0xBF (acc * 64 + b.toNat % 64) rest
    else (none, b :: rest)

theorem continuation_length_le (more : Nat) (lo hi : UInt8) (acc : Nat) (s : Bytes) :
    (continuation more lo hi acc s).2.length ≤ s.length := by
  fun_induction continuation more lo hi acc s <;> simp_all
  omega

/-- Reads one character behind the lead byte `b`; without one, drops the longest piece that could
have started one. -/
def next (b : UInt8) (rest : Bytes) : Option Char × Bytes :=
  match Lead.of? b with
  | none => (none, rest)
  | some lead =>
    let (code?, rest') := continuation lead.more lead.lo lead.hi lead.bits rest
    (code?.map Char.ofNat, rest')

theorem next_length_le (b : UInt8) (rest : Bytes) : (next b rest).2.length ≤ rest.length := by
  unfold next
  split
  · exact Nat.le_refl _
  · exact continuation_length_le ..

/-- The text of `s` behind the reversed `acc`, if `s` is UTF-8 throughout. -/
def decodeOnto (acc : List Char) : Bytes → Option (List Char)
  | [] => some acc.reverse
  | b :: rest =>
    match h : next b rest with
    | (none, _) => none
    | (some c, rest') =>
      have : rest'.length ≤ rest.length := by simpa [h] using next_length_le b rest
      decodeOnto (c :: acc) rest'
termination_by s => s.length
decreasing_by simp; omega

/-- The text of bytes that are UTF-8 throughout. -/
def decode? (s : Bytes) : Option (List Char) := decodeOnto [] s

/-- The text of `s` behind the reversed `acc`, with `U+FFFD` for each piece that is not UTF-8. -/
def decodeLossyOnto (acc : List Char) : Bytes → List Char
  | [] => acc.reverse
  | b :: rest =>
    match h : next b rest with
    | (c?, rest') =>
      have : rest'.length ≤ rest.length := by simpa [h] using next_length_le b rest
      decodeLossyOnto (c?.getD '\uFFFD' :: acc) rest'
termination_by s => s.length
decreasing_by simp; omega

/-- The text of any bytes, with `U+FFFD` for each piece that is not UTF-8. -/
def decodeLossy (s : Bytes) : List Char := decodeLossyOnto [] s

end Utf8

end LogRouter
