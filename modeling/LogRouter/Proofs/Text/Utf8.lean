import LogRouter.Text.Utf8
import Mathlib.Tactic.IntervalCases

/-!
# Writing and reading UTF-8

* `Lead.of?_ofNat_two` and its like: what the lead bytes of characters announce.
* `next_encodeChar`: the first character of a text is read back.
* **`decode?_encode`**: the bytes of a text are read back as the text.
* `count_newline_encode`: only the newline has the byte of the newline.
-/

namespace LogRouter.Utf8

theorem toNat_ofNat {n : Nat} (h : n < 256) : (UInt8.ofNat n).toNat = n :=
  UInt8.toNat_ofNat_of_lt' h

theorem ofNat_inj_of_lt {n k : Nat} (hn : n < 256) (hk : k < 256) :
    UInt8.ofNat n = UInt8.ofNat k ↔ n = k := by
  rw [← UInt8.toNat_inj, toNat_ofNat hn, toNat_ofNat hk]

theorem ofNat_lt_iff {n : Nat} (hn : n < 256) (b : UInt8) : UInt8.ofNat n < b ↔ n < b.toNat := by
  rw [UInt8.lt_iff_toNat_lt, toNat_ofNat hn]

/-! ## Lead bytes -/

theorem Lead.of?_ofNat_one {n : Nat} (h : n < 128) :
    Lead.of? (UInt8.ofNat n) = some ⟨n, 0, 0x80, 0xBF⟩ := by
  have hlt : UInt8.ofNat n < 0x80 := (ofNat_lt_iff (by omega) _).mpr h
  rw [Lead.of?, if_pos hlt, toNat_ofNat (by omega)]

theorem Lead.of?_ofNat_two {n : Nat} (h : 2 ≤ n) (h' : n < 32) :
    Lead.of? (UInt8.ofNat (n + 192)) = some ⟨n, 1, 0x80, 0xBF⟩ := by
  interval_cases n <;> rfl

theorem Lead.of?_ofNat_three {n : Nat} (h : n < 16) : Lead.of? (UInt8.ofNat (n + 224)) =
    some ⟨n, 2, if n = 0 then 0xA0 else 0x80, if n = 13 then 0x9F else 0xBF⟩ := by
  interval_cases n <;> rfl

theorem Lead.of?_ofNat_four {n : Nat} (h : n < 5) : Lead.of? (UInt8.ofNat (n + 240)) =
    some ⟨n, 3, if n = 0 then 0x90 else 0x80, if n = 4 then 0x8F else 0xBF⟩ := by
  interval_cases n <;> rfl

/-! ## Characters -/

theorem continuation_ofNat {n : Nat} (h : n < 64) (more : Nat) {lo hi : UInt8}
    (hlo : lo.toNat ≤ n + 128) (hhi : n + 128 ≤ hi.toNat) (acc : Nat) (rest : Bytes) :
    continuation (more + 1) lo hi acc (UInt8.ofNat (n + 128) :: rest) =
      continuation more 0x80 0xBF (acc * 64 + n) rest := by
  have hvalue : (UInt8.ofNat (n + 128)).toNat = n + 128 := toNat_ofNat (by omega)
  have hin : (lo ≤ UInt8.ofNat (n + 128) && UInt8.ofNat (n + 128) ≤ hi) = true := by
    simp only [Bool.and_eq_true, decide_eq_true_eq, UInt8.le_iff_toNat_le, hvalue]
    exact ⟨hlo, hhi⟩
  have hbits : (n + 128) % 64 = n := by omega
  rw [continuation, if_pos hin, hvalue, hbits]

theorem next_encodeChar (c : Char) (rest : Bytes) : ∃ b more, String.utf8EncodeChar c = b :: more ∧
    next b (more ++ rest) = (some c, rest) := by
  have hvalid : c.val.toNat < 0xD800 ∨ 0xDFFF < c.val.toNat ∧ c.val.toNat < 0x110000 := c.valid
  have hchar : Char.ofNat c.val.toNat = c := Char.ofNat_toNat c
  unfold String.utf8EncodeChar
  simp only
  generalize c.val.toNat = v at hvalid hchar
  split_ifs with h₁ h₂ h₃
  · refine ⟨_, _, rfl, ?_⟩
    rw [next, Lead.of?_ofNat_one (by omega)]
    simp [continuation, hchar]
  · refine ⟨_, _, rfl, ?_⟩
    rw [next, Lead.of?_ofNat_two (by omega) (by omega)]
    simp only [List.cons_append, List.nil_append]
    rw [continuation_ofNat (by omega) _ (by simp) (by simp; omega), continuation]
    have : v / 64 % 32 * 64 + v % 64 = v := by omega
    simp [this, hchar]
  · refine ⟨_, _, rfl, ?_⟩
    rw [next, Lead.of?_ofNat_three (by omega)]
    simp only [List.cons_append, List.nil_append]
    rw [continuation_ofNat (by omega) _ (by split_ifs <;> simp; omega)
        (by split_ifs <;> simp <;> omega),
      continuation_ofNat (by omega) _ (by simp) (by simp; omega), continuation]
    have : (v / 4096 % 16 * 64 + v / 64 % 64) * 64 + v % 64 = v := by omega
    simp [this, hchar]
  · refine ⟨_, _, rfl, ?_⟩
    rw [next, Lead.of?_ofNat_four (by omega)]
    simp only [List.cons_append, List.nil_append]
    rw [continuation_ofNat (by omega) _ (by split_ifs <;> simp; omega)
        (by split_ifs <;> simp <;> omega),
      continuation_ofNat (by omega) _ (by simp) (by simp; omega),
      continuation_ofNat (by omega) _ (by simp) (by simp; omega), continuation]
    have : ((v / 262144 % 8 * 64 + v / 4096 % 64) * 64 + v / 64 % 64) * 64 + v % 64 = v := by omega
    simp [this, hchar]

/-! ## Texts -/

theorem decodeOnto_cons {b : UInt8} {rest rest' : Bytes} {c : Char}
    (h : next b rest = (some c, rest')) (acc : List Char) :
    decodeOnto acc (b :: rest) = decodeOnto (c :: acc) rest' := by
  rw [decodeOnto]
  split
  · rename_i hnext
    rw [h] at hnext
    cases hnext
  · rename_i hnext
    rw [h] at hnext
    cases hnext
    rfl

theorem decodeOnto_encode (s acc : List Char) :
    decodeOnto acc (encode s) = some (acc.reverse ++ s) := by
  induction s generalizing acc with
  | nil => simp [encode, decodeOnto]
  | cons c s ih =>
    obtain ⟨b, more, hbytes, hnext⟩ := next_encodeChar c (encode s)
    have hencode : encode (c :: s) = b :: (more ++ encode s) := by
      simp [encode, hbytes]
    rw [hencode, decodeOnto_cons hnext, ih]
    simp

/-- **The bytes of a text are read back as the text.** -/
theorem decode?_encode (s : List Char) : decode? (encode s) = some s := decodeOnto_encode s []

theorem eq_newline_of_mem {c : Char} (h : (10 : UInt8) ∈ String.utf8EncodeChar c) : c = '\n' := by
  have hlarge : ∀ n, 128 ≤ n → n < 256 → (10 : UInt8) ≠ UInt8.ofNat n := fun n hn hn' h => by
    have := (ofNat_inj_of_lt (by decide : 10 < 256) hn').mp h
    omega
  unfold String.utf8EncodeChar at h
  simp only at h
  split_ifs at h
  · have hvalue : 10 = c.val.toNat :=
      (ofNat_inj_of_lt (by decide) (by omega)).mp (List.mem_singleton.mp h)
    rw [← Char.ofNat_toNat c]
    exact congrArg Char.ofNat hvalue.symm
  -- all bytes of the other characters are large
  all_goals
    exfalso
    simp only [List.mem_cons, List.not_mem_nil, or_false] at h
  · rcases h with h | h <;> exact hlarge _ (by omega) (by omega) h
  · rcases h with h | h | h <;> exact hlarge _ (by omega) (by omega) h
  · rcases h with h | h | h | h <;> exact hlarge _ (by omega) (by omega) h

/-- **The bytes of a text have as many newlines as the text.** -/
theorem count_newline_encode (s : List Char) : (encode s).count 10 = s.count '\n' := by
  induction s with
  | nil => rfl
  | cons c s ih =>
    have hchar : (String.utf8EncodeChar c).count 10 = if c = '\n' then 1 else 0 := by
      split_ifs with hc
      · subst hc
        decide
      · exact List.count_eq_zero.mpr fun hmem => hc (eq_newline_of_mem hmem)
    have hencode : encode (c :: s) = String.utf8EncodeChar c ++ encode s := rfl
    rw [hencode, List.count_append, ih, hchar, List.count_cons, Nat.add_comm]
    simp

theorem newline_mem_encode_iff {s : List Char} : 10 ∈ encode s ↔ '\n' ∈ s := by
  rw [← List.count_pos_iff, count_newline_encode, List.count_pos_iff]

end LogRouter.Utf8
