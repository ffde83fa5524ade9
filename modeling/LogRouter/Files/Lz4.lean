import LogRouter.Text.Utf8

/-!
# LZ4 frames

* `Lz4.encode`: a frame with the content in stored blocks of at most 64 KiB.
* `Lz4.decode?`: the content of a frame, whose blocks may be stored or compressed.
* `Lz4.checksum`: the 32-bit hash that guards the header and, where the frame says so, the blocks
  and the content.

A compressed block is a sequence of literals and of copies from what was decoded before.
-/

namespace LogRouter.Lz4

/-! ## Words -/

/-- The number of bytes with the least significant byte first. -/
def ofLittle (bytes : Bytes) : Nat := bytes.foldr (fun b n => n * 256 + b.toNat) 0

/-- The `width` bytes of a number, the least significant first. -/
def toLittle : (width : Nat) → Nat → Bytes
  | 0, _ => []
  | width + 1, n => UInt8.ofNat n :: toLittle width (n / 256)

/-! ## The hash -/

/-- The five primes of the hash. -/
def prime1 : UInt32 := 2654435761

@[inherit_doc prime1]
def prime2 : UInt32 := 2246822519

@[inherit_doc prime1]
def prime3 : UInt32 := 3266489917

@[inherit_doc prime1]
def prime4 : UInt32 := 668265263

@[inherit_doc prime1]
def prime5 : UInt32 := 374761393

/-- Turns the bits of a word to the left. -/
def rotate (x : UInt32) (n : UInt32) : UInt32 := (x <<< n) ||| (x >>> (32 - n))

/-- The word of four bytes. -/
def word (bytes : Bytes) : UInt32 := (ofLittle bytes).toUInt32

/-- Mixes a word into a lane. -/
def mixLane (lane input : UInt32) : UInt32 := rotate (lane + input * prime2) 13 * prime1

/-- The four lanes of the hash. -/
structure Lanes where
  a : UInt32
  b : UInt32
  c : UInt32
  d : UInt32

/-- The lanes before any input. -/
def Lanes.initial : Lanes := ⟨prime1 + prime2, prime2, 0, 0 - prime1⟩

/-- Mixes the stripes of sixteen bytes into the lanes; `fuel` bounds their number. -/
def Lanes.absorb (lanes : Lanes) (input : Bytes) : (fuel : Nat) → Lanes × Bytes
  | 0 => (lanes, input)
  | fuel + 1 =>
    match input with
    | a0 :: a1 :: a2 :: a3 :: b0 :: b1 :: b2 :: b3 :: c0 :: c1 :: c2 :: c3 :: d0 :: d1 :: d2 ::
        d3 :: rest =>
      Lanes.absorb ⟨mixLane lanes.a (word [a0, a1, a2, a3]), mixLane lanes.b (word [b0, b1, b2, b3]),
        mixLane lanes.c (word [c0, c1, c2, c3]), mixLane lanes.d (word [d0, d1, d2, d3])⟩ rest fuel
    | _ => (lanes, input)

/-- The lanes folded into one word. -/
def Lanes.fold (lanes : Lanes) : UInt32 :=
  rotate lanes.a 1 + rotate lanes.b 7 + rotate lanes.c 12 + rotate lanes.d 18

/-- Mixes the last bytes, fewer than sixteen, into a hash. -/
def mixTail (hash : UInt32) : Bytes → UInt32
  | a :: b :: c :: d :: rest =>
    mixTail (rotate (hash + word [a, b, c, d] * prime3) 17 * prime4) rest
  | a :: rest => mixTail (rotate (hash + a.toUInt32 * prime5) 11 * prime1) rest
  | [] => hash

/-- Spreads the bits of a hash. -/
def avalanche (hash : UInt32) : UInt32 :=
  let hash := (hash ^^^ (hash >>> 15)) * prime2
  let hash := (hash ^^^ (hash >>> 13)) * prime3
  hash ^^^ (hash >>> 16)

/-- The 32-bit hash of bytes. -/
def checksum (input : Bytes) : UInt32 :=
  let length := input.length
  let (lanes, rest) := Lanes.initial.absorb input length
  let start := if length < 16 then prime5 else lanes.fold
  avalanche (mixTail (start + length.toUInt32) rest)

/-! ## Writing frames -/

/-- The four bytes at the start of a frame. -/
def magic : Bytes := [0x04, 0x22, 0x4D, 0x18]

/-- The four bytes at the start of a legacy frame, whose blocks follow at once. -/
def legacyMagic : Bytes := [0x02, 0x21, 0x4C, 0x18]

/-- The byte that guards the descriptor of a frame. -/
def descriptorCheck (descriptor : Bytes) : UInt8 := (checksum descriptor >>> 8).toUInt8

/-- The descriptor of the frames written here: independent blocks of at most 64 KiB. -/
def descriptor : Bytes := [0x60, 0x40]

/-- The largest number of bytes of a block written here. -/
def blockLength : Nat := 65536

/-- The bit of a block's length that tells that the block is stored. -/
def storedMark : Nat := 2147483648

/-- The stored blocks of the content; `fuel` bounds their number. -/
def storedBlocks (content : Bytes) : (fuel : Nat) → Bytes
  | 0 => []
  | fuel + 1 =>
    if content.isEmpty then []
    else
      let block := content.take blockLength
      toLittle 4 (storedMark + block.length) ++
        (block ++ storedBlocks (content.drop blockLength) fuel)

/-- The frame of the content. -/
def encode (content : Bytes) : Bytes :=
  magic ++ (descriptor ++ (descriptorCheck descriptor ::
    (storedBlocks content (content.length / blockLength + 1) ++ toLittle 4 0)))

/-! ## Reading frames -/

/-- Splits off the first `n` bytes, if there are so many. -/
def take? (n : Nat) (input : Bytes) : Option (Bytes × Bytes) :=
  let (front, rest) := input.splitAt n
  if front.length = n then some (front, rest) else none

/-- Adds the bytes of a long length up to the first that is not 255. -/
def longLength? (total : Nat) : Bytes → Option (Nat × Bytes)
  | [] => none
  | b :: rest => if b = 255 then longLength? (total + 255) rest else some (total + b.toNat, rest)

/-- The length in a half of a token, with the bytes that go on with it. -/
def lengthOf? (half : Nat) (input : Bytes) : Option (Nat × Bytes) :=
  if half = 15 then longLength? 15 input else some (half, input)

/-- Copies `count` bytes from `distance` bytes before the end, byte by byte. -/
def copyBack (out : Array UInt8) (distance : Nat) : (count : Nat) → Array UInt8
  | 0 => out
  | count + 1 => copyBack (out.push (out.getD (out.size - distance) 0)) distance count

/-- Decodes a compressed block behind what was decoded before. Copies reach back to the place
`start` at most, and the output grows to `limit` bytes at most; `fuel` bounds the number of
sequences. -/
def decodeBlock? (start limit : Nat) (out : Array UInt8) (input : Bytes) :
    (fuel : Nat) → Option (Array UInt8)
  | 0 => none
  | fuel + 1 =>
    match input with
    | [] => none
    | token :: input => do
      let (count, input) ← lengthOf? (token.toNat / 16) input
      let (literals, input) ← take? count input
      let out := out ++ literals.toArray
      if limit < out.size then none
      match input with
      | [] => some out
      | low :: high :: input =>
        let distance := low.toNat + 256 * high.toNat
        let (count, input) ← lengthOf? (token.toNat % 16) input
        if distance = 0 ∨ out.size < start + distance ∨ limit < out.size + (count + 4) then none
        else decodeBlock? start limit (copyBack out distance (count + 4)) input fuel
      | _ => none

/-- What the descriptor of a frame says. -/
structure Descriptor where
  /-- Blocks copy from the blocks before them. -/
  linked : Bool
  blockChecksums : Bool
  contentLength : Option Nat
  contentChecksum : Bool
  /-- The largest number of bytes of a block, both as it is written and decoded. -/
  maxBlock : Nat

/-- What holds for a legacy frame, which has no descriptor. -/
def Descriptor.legacy : Descriptor := ⟨false, false, none, false, 8388608⟩

/-- The largest number of bytes of a block, by its number in the descriptor. -/
def maxBlock? : Nat → Option Nat
  | 4 => some 65536
  | 5 => some 262144
  | 6 => some 1048576
  | 7 => some 4194304
  | _ => none

/-- Reads the descriptor of a frame. -/
def readDescriptor? (input : Bytes) : Option (Descriptor × Bytes) := do
  let (start, _) ← take? 2 input
  let flags := (start.getD 0 0).toNat
  let sizes := (start.getD 1 0).toNat
  if flags / 64 ≠ 1 ∨ flags / 2 % 2 = 1 ∨ flags % 2 = 1 ∨ sizes / 128 = 1 ∨ sizes % 16 ≠ 0 then none
  let maxBlock ← maxBlock? (sizes / 16)
  let sized := flags / 8 % 2 = 1
  let (whole, rest) ← take? (if sized then 10 else 2) input
  let (check, rest) ← take? 1 rest
  if check ≠ [descriptorCheck whole] then none
  return (⟨flags / 32 % 2 = 0, flags / 16 % 2 = 1,
    if sized then some (ofLittle (whole.drop 2)) else none, flags / 4 % 2 = 1, maxBlock⟩, rest)

/-- Decodes one block, stored or compressed, behind what was decoded before. -/
def appendBlock? (d : Descriptor) (isStored : Bool) (out : Array UInt8) (block : Bytes) :
    Option (Array UInt8) :=
  if isStored then some (out ++ block.toArray)
  else
    decodeBlock? (if d.linked then 0 else out.size) (out.size + d.maxBlock) out block
      (block.length + 1)

/-- Decodes the blocks of a frame; `fuel` bounds their number. They end with the end mark, and the
bytes behind it are part of the result. A frame may also break off without the mark, where the next
block would start or behind a block without content. -/
def decodeBlocks? (d : Descriptor) (out : Array UInt8) (input : Bytes) :
    (fuel : Nat) → Option (Array UInt8 × Option Bytes)
  | 0 => none
  | fuel + 1 =>
    match take? 4 input with
    | none => some (out, none)
    | some (head, input) => do
      let mark := ofLittle head
      if mark = 0 then return (out, some input)
      let length := mark % storedMark
      if d.maxBlock < length then none
      let (block, input) ← take? length input
      let input ←
        if d.blockChecksums then do
          let (check, input) ← take? 4 input
          if word check = checksum block then some input else none
        else some input
      let extended ← appendBlock? d (storedMark ≤ mark) out block
      if extended.size = out.size then return (out, none)
      decodeBlocks? d extended input fuel

/-- What the descriptor says about the whole content holds, where `rest` stands behind the end
mark. -/
def Descriptor.admits (d : Descriptor) (content rest : Bytes) : Bool :=
  (match d.contentLength with
    | some length => length == content.length
    | none => true) &&
  (!d.contentChecksum ||
    match take? 4 rest with
    | some (check, _) => word check == checksum content
    | none => false)

/-- The content of the frame at the start of the bytes. Four bytes with nothing behind them are a
frame that was never written, without content. The content of a frame that breaks off is what was
written of it. -/
def decode? (input : Bytes) : Option Bytes := do
  let (start, input) ← take? 4 input
  if start = legacyMagic then
    let (out, _) ← decodeBlocks? .legacy #[] input (input.length + 1)
    return out.toList
  if input.isEmpty then return []
  if start ≠ magic then none
  let (d, input) ← readDescriptor? input
  let (out, rest?) ← decodeBlocks? d #[] input (input.length + 1)
  let content := out.toList
  match rest? with
  | some rest => if d.admits content rest then some content else none
  | none => some content

end LogRouter.Lz4
