import Mathlib
import Harvest.Text.Utf8

namespace Harvest.Text.Utf8

def encode (c : Char) : List Nat :=
  (String.utf8EncodeChar c).map UInt8.toNat

theorem toNat_lt_or (c : Char) : c.toNat < 0xD800 ∨ 0xDFFF < c.toNat ∧ c.toNat < 0x110000 :=
  c.valid

theorem encode_eq (c : Char) : encode c =
    if c.toNat < 0x80 then [c.toNat]
    else if c.toNat < 0x800 then [0xC0 + c.toNat / 0x40, 0x80 + c.toNat % 0x40]
    else if c.toNat < 0x10000 then
      [0xE0 + c.toNat / 0x1000, 0x80 + c.toNat / 0x40 % 0x40, 0x80 + c.toNat % 0x40]
    else
      [0xF0 + c.toNat / 0x40000, 0x80 + c.toNat / 0x1000 % 0x40, 0x80 + c.toNat / 0x40 % 0x40,
        0x80 + c.toNat % 0x40] := by
  have bound := toNat_lt_or c
  have shape : encode c = List.map UInt8.toNat
      (if c.toNat ≤ 127 then [UInt8.ofNat c.toNat]
      else if c.toNat ≤ 2047 then
        [UInt8.ofNat (c.toNat / 64 % 32 + 192), UInt8.ofNat (c.toNat % 64 + 128)]
      else if c.toNat ≤ 65535 then
        [UInt8.ofNat (c.toNat / 4096 % 16 + 224), UInt8.ofNat (c.toNat / 64 % 64 + 128),
          UInt8.ofNat (c.toNat % 64 + 128)]
      else
        [UInt8.ofNat (c.toNat / 262144 % 8 + 240), UInt8.ofNat (c.toNat / 4096 % 64 + 128),
          UInt8.ofNat (c.toNat / 64 % 64 + 128), UInt8.ofNat (c.toNat % 64 + 128)]) := rfl
  rw [shape]
  generalize c.toNat = n at bound
  split_ifs <;> first
    | omega
    | simp only [List.map_cons, List.map_nil, UInt8.toNat_ofNat', List.cons.injEq, and_true]
      omega

theorem encode_lt (c : Char) : ∀ b ∈ encode c, b < 256 := by
  intro b member
  obtain ⟨byte, -, rfl⟩ := List.mem_map.1 member
  exact byte.toNat_lt

variable {p : Pending} {digit : Nat}

theorem decodeFrom_first {b : Nat} (begins : start b = .longer p) (rest : List Nat) :
    decodeFrom none (b :: rest) = decodeFrom (some p) rest := by
  simp [decodeFrom, step, begin, begins]

theorem decodeFrom_inner (inner : 1 < p.needed) (low : p.low ≤ 0x80 + digit)
    (high : 0x80 + digit ≤ p.high) (rest : List Nat) :
    decodeFrom (some p) ((0x80 + digit) :: rest) =
      decodeFrom (some ⟨p.needed - 1, 0x80, 0xBF, p.value * 0x40 + digit⟩) rest := by
  have more : ¬ p.needed ≤ 1 := by omega
  simp [decodeFrom, step, low, high, more]

theorem decodeFrom_last (last : p.needed = 1) (low : p.low ≤ 0x80 + digit)
    (high : 0x80 + digit ≤ p.high) (rest : List Nat) :
    decodeFrom (some p) ((0x80 + digit) :: rest) =
      Char.ofNat (p.value * 0x40 + digit) :: decodeFrom none rest := by
  simp [decodeFrom, step, last, low, high]

theorem start_two {high : Nat} (least : 2 ≤ high) (most : high < 0x20) :
    start (0xC0 + high) = .longer ⟨1, 0x80, 0xBF, high⟩ := by
  unfold start
  rw [if_neg (by omega), if_neg (by omega), if_pos (by omega), Nat.add_sub_cancel_left]

theorem start_three {high : Nat} (most : high < 0x10) :
    start (0xE0 + high) = .longer ⟨2, if high = 0 then 0xA0 else 0x80,
      if high = 0xD then 0x9F else 0xBF, high⟩ := by
  have least : 0xE0 + high = 0xE0 ↔ high = 0 := by omega
  have surrogate : 0xE0 + high = 0xED ↔ high = 0xD := by omega
  unfold start
  rw [if_neg (by omega), if_neg (by omega), if_neg (by omega), if_pos (by omega),
    Nat.add_sub_cancel_left]
  simp only [least, surrogate]

theorem start_four {high : Nat} (most : high < 5) :
    start (0xF0 + high) = .longer ⟨3, if high = 0 then 0x90 else 0x80,
      if high = 4 then 0x8F else 0xBF, high⟩ := by
  have least : 0xF0 + high = 0xF0 ↔ high = 0 := by omega
  have last : 0xF0 + high = 0xF4 ↔ high = 4 := by omega
  unfold start
  rw [if_neg (by omega), if_neg (by omega), if_neg (by omega), if_neg (by omega),
    if_pos (by omega), Nat.add_sub_cancel_left]
  simp only [least, last]

theorem decode_encode_append (c : Char) (rest : List Nat) :
    decode (encode c ++ rest) = c :: decode rest := by
  have bound := toNat_lt_or c
  have whole : Char.ofNat c.toNat = c := Char.ofNat_toNat c
  rw [encode_eq]
  unfold decode
  generalize c.toNat = n at bound whole ⊢
  -- the bounds on the second byte hold since the value is in the range of its length
  split_ifs with one two three
  · simp [decodeFrom, step, begin, start, one, whole]
  · have value : n / 0x40 * 0x40 + n % 0x40 = n := by omega
    simp only [List.cons_append, List.nil_append]
    rw [decodeFrom_first (start_two (by omega) (by omega)),
      decodeFrom_last rfl (by simp) (by simp; omega), value, whole]
  · have value : (n / 0x1000 * 0x40 + n / 0x40 % 0x40) * 0x40 + n % 0x40 = n := by omega
    simp only [List.cons_append, List.nil_append]
    rw [decodeFrom_first (start_three (by omega)),
      decodeFrom_inner (by simp) (by dsimp only; split <;> omega) (by dsimp only; split <;> omega),
      decodeFrom_last rfl (by simp) (by simp; omega), value, whole]
  · have value : ((n / 0x40000 * 0x40 + n / 0x1000 % 0x40) * 0x40 + n / 0x40 % 0x40) * 0x40 +
        n % 0x40 = n := by omega
    simp only [List.cons_append, List.nil_append]
    rw [decodeFrom_first (start_four (by omega)),
      decodeFrom_inner (by simp) (by dsimp only; split <;> omega) (by dsimp only; split <;> omega),
      decodeFrom_inner (by simp) (by simp) (by simp; omega),
      decodeFrom_last rfl (by simp) (by simp; omega), value, whole]

theorem decode_flatMap_encode (cs : List Char) : decode (cs.flatMap encode) = cs := by
  induction cs with
  | nil => rfl
  | cons c rest ih => rw [List.flatMap_cons, decode_encode_append, ih]

end Harvest.Text.Utf8
