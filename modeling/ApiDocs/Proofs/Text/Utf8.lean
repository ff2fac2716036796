import ApiDocs.Text.Utf8
import Mathlib.Algebra.Group.Nat.Defs
import Mathlib.Tactic.SplitIfs

/-! Bytes that come from a text are read as this text. A character's bytes are a lead byte and a
tail of bytes that hold six bits each, and after every byte the reader waits for the one that comes.
-/

namespace ApiDocs.Text.Utf8

/-! ## Characters -/

/-- The last `k` bytes of a character, with six bits of its code point in each. -/
def tail (v : Nat) : Nat → List UInt8
  | 0 => []
  | k + 1 => UInt8.ofNat (v / 64 ^ k % 64 + 0x80) :: tail v k

/-- All of the code point has been read but for `k + 1` bytes, and the first of these may come. -/
structure Awaits (p : Pending) (v k : Nat) : Prop where
  owed : p.owed = k + 1
  bits : p.bits = v / 64 ^ (k + 1)
  low : p.low ≤ v / 64 ^ k % 64 + 0x80
  high : v / 64 ^ k % 64 + 0x80 ≤ p.high

theorem decodeFrom_cons {b : Nat} (byte : b < 256) (p : Option Pending) (rest : List UInt8) :
    decodeFrom p (UInt8.ofNat b :: rest) = (step p b).1 ++ decodeFrom (step p b).2 rest := by
  have read : (UInt8.ofNat b).toNat = b := by
    rw [UInt8.toNat_ofNat']
    omega
  cases p <;> rw [decodeFrom, read]

theorem Awaits.step_last {p : Pending} {v : Nat} (h : Awaits p v 0) :
    step (some p) (v % 64 + 0x80) = ([Char.ofNat v], none) := by
  obtain ⟨owed, bits, low, high⟩ := h
  simp only [Nat.zero_add, Nat.pow_one, Nat.pow_zero, Nat.div_one] at owed bits low high
  have whole : p.bits * 64 + (v % 64 + 0x80 - 0x80) = v := by omega
  simp only [step]
  rw [if_pos ⟨low, high⟩, whole, if_pos (by omega)]

theorem Awaits.exists_step {p : Pending} {v k : Nat} (h : Awaits p v (k + 1)) :
    ∃ q, step (some p) (v / 64 ^ (k + 1) % 64 + 0x80) = ([], some q) ∧ Awaits q v k := by
  obtain ⟨owed, bits, low, high⟩ := h
  have longer : p.bits * 64 + (v / 64 ^ (k + 1) % 64 + 0x80 - 0x80) = v / 64 ^ (k + 1) := by
    have split : v / 64 ^ (k + 1 + 1) = v / 64 ^ (k + 1) / 64 := by
      rw [Nat.div_div_eq_div_mul, Nat.pow_succ 64 (k + 1)]
    rw [bits, split]
    omega
  have sixBits : v / 64 ^ k % 64 < 64 := Nat.mod_lt _ (by omega)
  refine ⟨⟨k + 1, 0x80, 0xBF, v / 64 ^ (k + 1)⟩, ?_, rfl, rfl, Nat.le_add_left _ _, ?_⟩
  · simp only [step]
    rw [if_pos ⟨low, high⟩, longer, if_neg (by omega), owed]
    rfl
  · show v / 64 ^ k % 64 + 0x80 ≤ 0xBF
    omega

/-- The bytes that are owed complete the character. -/
theorem decodeFrom_tail {p : Pending} {v k : Nat} (h : Awaits p v k) (rest : List UInt8) :
    decodeFrom (some p) (tail v (k + 1) ++ rest) = Char.ofNat v :: decodeFrom none rest := by
  induction k generalizing p with
  | zero =>
    have byte : v % 64 + 0x80 < 256 := by omega
    have whole : tail v 1 = [UInt8.ofNat (v % 64 + 0x80)] := by simp [tail]
    rw [whole, List.singleton_append, decodeFrom_cons byte, h.step_last]
    rfl
  | succ k ih =>
    have byte : v / 64 ^ (k + 1) % 64 + 0x80 < 256 := by omega
    obtain ⟨q, next, awaits⟩ := h.exists_step
    rw [tail, List.cons_append, decodeFrom_cons byte, next]
    exact ih awaits

/-- Two bytes hold the code points from 80 on. -/
theorem exists_lead_two {v : Nat} (long : 0x7F < v) (short : v ≤ 0x7FF) :
    ∃ p, lead (v / 64 % 32 + 0xC0) = ([], some p) ∧ Awaits p v 0 := by
  have high : v / 64 % 32 = v / 64 := by omega
  rw [high]
  unfold lead
  rw [if_neg (by omega), if_pos (by omega)]
  exact ⟨_, rfl, rfl, by simp, by simp, by simp; omega⟩

/-- Three bytes hold the code points from 800 on, without the surrogates. -/
theorem exists_lead_three {v : Nat} (long : 0x7FF < v) (short : v ≤ 0xFFFF)
    (scalar : v < 0xD800 ∨ 0xDFFF < v) :
    ∃ p, lead (v / 4096 % 16 + 0xE0) = ([], some p) ∧ Awaits p v 1 := by
  have high : v / 4096 % 16 = v / 4096 := by omega
  rw [high]
  unfold lead
  rw [if_neg (by omega), if_neg (by omega)]
  split_ifs with first surrogates others
  · exact ⟨_, rfl, rfl, by simp; omega, by simp; omega, by simp; omega⟩
  · exact ⟨_, rfl, rfl, by simp; omega, by simp, by simp; omega⟩
  · exact ⟨_, rfl, rfl, by simp, by simp, by simp; omega⟩
  all_goals omega

/-- Four bytes hold the code points from 10000 on. -/
theorem exists_lead_four {v : Nat} (long : 0xFFFF < v) (short : v ≤ 0x10FFFF) :
    ∃ p, lead (v / 262144 % 8 + 0xF0) = ([], some p) ∧ Awaits p v 2 := by
  have high : v / 262144 % 8 = v / 262144 := by omega
  rw [high]
  unfold lead
  rw [if_neg (by omega), if_neg (by omega), if_neg (by omega), if_neg (by omega), if_neg (by omega)]
  split_ifs with first others last
  · exact ⟨_, rfl, rfl, by simp; omega, by simp; omega, by simp; omega⟩
  · exact ⟨_, rfl, rfl, by simp, by simp, by simp; omega⟩
  · exact ⟨_, rfl, rfl, by simp; omega, by simp, by simp; omega⟩
  all_goals omega

theorem encodeChar_eq (c : Char) :
    String.utf8EncodeChar c =
      if c.toNat ≤ 0x7F then [UInt8.ofNat c.toNat]
      else if c.toNat ≤ 0x7FF then UInt8.ofNat (c.toNat / 64 % 32 + 0xC0) :: tail c.toNat 1
      else if c.toNat ≤ 0xFFFF then UInt8.ofNat (c.toNat / 4096 % 16 + 0xE0) :: tail c.toNat 2
      else UInt8.ofNat (c.toNat / 262144 % 8 + 0xF0) :: tail c.toNat 3 := by
  simp [String.utf8EncodeChar, tail]

/-- The bytes of a character are read as this character, whatever follows. -/
theorem decodeFrom_encodeChar (c : Char) (rest : List UInt8) :
    decodeFrom none (String.utf8EncodeChar c ++ rest) = c :: decodeFrom none rest := by
  have scalar : c.toNat < 0xD800 ∨ 0xDFFF < c.toNat ∧ c.toNat < 0x110000 := c.valid
  have back : Char.ofNat c.toNat = c := Char.ofNat_toNat c
  -- a lead byte that is read as such leaves the tail to be read
  have multibyte : ∀ {b k : Nat}, b < 256 → (∃ p, lead b = ([], some p) ∧ Awaits p c.toNat k) →
      decodeFrom none (UInt8.ofNat b :: tail c.toNat (k + 1) ++ rest) =
        c :: decodeFrom none rest := by
    rintro b k byte ⟨p, first, awaits⟩
    rw [List.cons_append, decodeFrom_cons byte, step, first, List.nil_append,
      decodeFrom_tail awaits, back]
  rw [encodeChar_eq]
  split_ifs with one two three
  · have ascii : lead c.toNat = ([Char.ofNat c.toNat], none) := if_pos (by omega)
    rw [List.singleton_append, decodeFrom_cons (by omega), step, ascii, back]
    rfl
  · exact multibyte (by omega) (exists_lead_two (by omega) two)
  · exact multibyte (by omega) (exists_lead_three (by omega) three (by omega))
  · exact multibyte (by omega) (exists_lead_four (by omega) (by omega))

/-! ## Texts -/

theorem decode_encode_append (s : List Char) (rest : List UInt8) :
    decode (encode s ++ rest) = s ++ decode rest := by
  induction s with
  | nil => rfl
  | cons c s ih =>
    rw [encode, List.flatMap_cons, List.append_assoc, decode, decodeFrom_encodeChar]
    exact congrArg (c :: ·) ih

theorem decode_encode (s : List Char) : decode (encode s) = s := by
  have whole := decode_encode_append s []
  rw [List.append_nil] at whole
  exact whole.trans (List.append_nil s)

theorem length_encode (s : String) : (encode s.toList).length = s.utf8ByteSize := by
  have bytes : (encode s.toList).toByteArray = s.toByteArray := String.utf8Encode_toList
  rw [String.utf8ByteSize, ← bytes, List.size_toByteArray]

end ApiDocs.Text.Utf8
