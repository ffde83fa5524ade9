import LogRouter.Files.Lz4
import Mathlib.Algebra.Ring.Nat
import Mathlib.Tactic.Common

/-!
# Reading frames back

* `take?_append`, `ofLittle_toLittle`: what was put in front of some bytes is read off them again.
* `decodeBlocks?_end`, `decodeBlocks?_stored`: the end mark and a stored block.
* **`decode?_encode`**: a frame has the content that it was made of.
-/

namespace LogRouter.Lz4

/-! ## Words -/

@[simp] theorem length_toLittle : ∀ width n : Nat, (toLittle width n).length = width
  | 0, _ => rfl
  | width + 1, n => congrArg (· + 1) (length_toLittle width (n / 256))

theorem ofLittle_toLittle : ∀ {width n : Nat}, n < 256 ^ width → ofLittle (toLittle width n) = n
  | 0, n, h => by
    have hzero : n = 0 := by simpa using h
    rw [hzero]
    rfl
  | width + 1, n, h => by
    have hrest : ofLittle (toLittle width (n / 256)) = n / 256 :=
      ofLittle_toLittle (Nat.div_lt_of_lt_mul (by rwa [Nat.pow_succ, Nat.mul_comm] at h))
    have hstep : ofLittle (toLittle (width + 1) n) =
        ofLittle (toLittle width (n / 256)) * 256 + (UInt8.ofNat n).toNat := rfl
    rw [hstep, hrest, UInt8.toNat_ofNat']
    omega

@[simp] theorem take?_append (front rest : Bytes) :
    take? front.length (front ++ rest) = some (front, rest) := by
  simp [take?]

@[simp] theorem take?_toLittle (n : Nat) (rest : Bytes) :
    take? 4 (toLittle 4 n ++ rest) = some (toLittle 4 n, rest) := by
  simpa using take?_append (toLittle 4 n) rest

/-! ## Blocks -/

variable {d : Descriptor} {out : Array UInt8}

theorem decodeBlocks?_end (d : Descriptor) (out : Array UInt8) (rest : Bytes) (fuel : Nat) :
    decodeBlocks? d out (toLittle 4 0 ++ rest) (fuel + 1) = some (out, some rest) := by
  simp [decodeBlocks?, ofLittle_toLittle]

theorem decodeBlocks?_stored (hchecks : d.blockChecksums = false) {block : Bytes}
    (hblock : 0 < block.length ∧ block.length ≤ d.maxBlock ∧ d.maxBlock < storedMark) (rest : Bytes)
    (fuel : Nat) :
    decodeBlocks? d out (toLittle 4 (storedMark + block.length) ++ (block ++ rest)) (fuel + 1) =
      decodeBlocks? d (out ++ block.toArray) rest fuel := by
  obtain ⟨hpos, hmax, hmark⟩ := hblock
  have hword : ofLittle (toLittle 4 (storedMark + block.length)) = storedMark + block.length :=
    ofLittle_toLittle (by unfold storedMark at *; omega)
  have hlength : (storedMark + block.length) % storedMark = block.length := by
    rw [Nat.add_mod_left, Nat.mod_eq_of_lt (Nat.lt_of_le_of_lt hmax hmark)]
  have hne : block ≠ [] := List.length_pos_iff.mp hpos
  rw [decodeBlocks?.eq_2, take?_toLittle]
  simp [hword, hlength, hchecks, hne, appendBlock?, Nat.not_lt.mpr hmax]

theorem decodeBlocks?_storedBlocks (hchecks : d.blockChecksums = false)
    (hmax : d.maxBlock = blockLength) (rest : Bytes) :
    ∀ (count : Nat) (content : Bytes) (out : Array UInt8) (fuel : Nat),
      content.length ≤ count * blockLength → count < fuel →
      decodeBlocks? d out (storedBlocks content count ++ (toLittle 4 0 ++ rest)) fuel =
        some (out ++ content.toArray, some rest)
  | _, _, _, 0, _, hfuel => absurd hfuel (Nat.not_lt_zero _)
  | 0, content, out, fuel + 1, hlength, _ => by
    have hempty : content = [] := by simpa using hlength
    rw [hempty, storedBlocks, List.nil_append, decodeBlocks?_end, Array.append_empty]
  | count + 1, content, out, fuel + 1, hlength, hfuel => by
    unfold storedBlocks
    split_ifs with hempty
    · rw [List.isEmpty_iff] at hempty
      rw [List.nil_append, decodeBlocks?_end, hempty, Array.append_empty]
    · -- the first block is taken off, and the others are those of what is left
      have hpos := List.length_pos_iff.mpr (mt List.isEmpty_iff.mpr hempty)
      have hblock : 0 < (content.take blockLength).length ∧
          (content.take blockLength).length ≤ d.maxBlock ∧ d.maxBlock < storedMark := by
        rw [List.length_take, hmax, blockLength, storedMark]
        omega
      have hrest : (content.drop blockLength).length ≤ count * blockLength := by
        rw [List.length_drop]
        rw [Nat.succ_mul] at hlength
        omega
      have hwhole : (content.take blockLength).toArray ++ (content.drop blockLength).toArray =
          content.toArray := by
        simp
      simp only [List.append_assoc]
      rw [decodeBlocks?_stored hchecks hblock,
        decodeBlocks?_storedBlocks hchecks hmax rest count _ _ fuel hrest (by omega),
        Array.append_assoc, hwhole]

theorem length_le_storedBlocks : ∀ (count : Nat) (content : Bytes),
    content.length ≤ count * blockLength → content.length ≤ (storedBlocks content count).length
  | 0, content, h => by
    rw [Nat.zero_mul] at h
    exact Nat.le_trans h (Nat.zero_le _)
  | count + 1, content, h => by
    unfold storedBlocks
    split_ifs with hempty
    · rw [List.isEmpty_iff] at hempty
      simp [hempty]
    · rw [Nat.succ_mul] at h
      have hrest := length_le_storedBlocks count (content.drop blockLength)
        (by rw [List.length_drop]; omega)
      rw [List.length_drop] at hrest
      simp only [List.length_append, List.length_take]
      omega

/-! ## Frames -/

theorem readDescriptor?_descriptor (rest : Bytes) :
    readDescriptor? (descriptor ++ descriptorCheck descriptor :: rest) =
      some (⟨false, false, none, false, blockLength⟩, rest) := by
  simp [readDescriptor?, descriptor, take?, maxBlock?, blockLength]

/-- **A frame has the content that it was made of.** -/
theorem decode?_encode (content : Bytes) : decode? (encode content) = some content := by
  have hcount : content.length ≤ (content.length / blockLength + 1) * blockLength := by
    unfold blockLength
    omega
  have hfuel := length_le_storedBlocks _ _ hcount
  unfold decode? encode
  set blocks := storedBlocks content (content.length / blockLength + 1)
  have hmagic : take? 4 (magic ++ (descriptor ++ descriptorCheck descriptor :: (blocks ++ toLittle 4 0))) =
      some (magic, descriptor ++ descriptorCheck descriptor :: (blocks ++ toLittle 4 0)) :=
    take?_append magic _
  -- there are no more blocks than bytes, so that the fuel is enough
  have hblocks := decodeBlocks?_storedBlocks (d := ⟨false, false, none, false, blockLength⟩) rfl rfl []
    (content.length / blockLength + 1) content #[] ((blocks ++ toLittle 4 0).length + 1) hcount
    (by
      rw [List.length_append, length_toLittle]
      have := Nat.div_le_self content.length blockLength
      omega)
  rw [List.append_nil] at hblocks
  rw [hmagic]
  simp only [Option.bind_eq_bind, Option.bind_some]
  rw [if_neg (by decide), if_neg (by simp [descriptor]), if_neg (by simp), readDescriptor?_descriptor]
  simp only [Option.bind_some]
  rw [hblocks]
  simp [Descriptor.admits]

end LogRouter.Lz4
