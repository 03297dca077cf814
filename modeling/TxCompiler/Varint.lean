/-
**`write_varint` is the canonical code of `u64`.** The writer of `tron_proto.rs`, against the
decoder its tests check it with.

`write_varint_eq` has related the writer's loop to `Wire.varint`, so its length, its last byte
and its prefix-freeness are facts about that function. What is left is the decoder, which is
not the reader of `Wire`: it ORs seven bits at a time into a 64-bit accumulator, at a shift
that grows to 63. `decode_varint_loop_append` carries the invariant
`acc + m * 2 ^ shift = value`, where `m` is what is still to be read; as the value is below
`2 ^ 64`, a group that is left always lands at a shift below 64 and loses no bit there, not
even the tenth, of which only the lowest bit is free.
-/
import TxCompiler.TronProto

set_option autoImplicit false

namespace TxCompiler

open Rust

/-! ## The decoder of the tests -/

/-- The `for` loop, at byte `i`. -/
def decode_varint_loop : List UInt8 → ℕ → UInt64 → UInt32 → Option (UInt64 × ℕ)
  | [], _, _, _ => none
  | byte :: rest, i, value, shift => do
    let chunk := (byte &&& 0x7f).toUInt64
    let shifted ← (checked_shl chunk shift).filter fun _ => shift < 64
    let value := value ||| shifted
    if byte &&& 0x80 = 0 then some (value, i + 1)
    else do
      let shift ← checked_add_u32 shift 7
      decode_varint_loop rest (i + 1) value shift

def decode_varint (bs : List UInt8) : Option (UInt64 × ℕ) := decode_varint_loop bs 0 0 0

/-! ## One turn of the loop -/

theorem payload_bits (byte : UInt8) : (byte &&& 0x7f).toUInt64.toNat = byte.toNat % 128 := by
  rw [UInt8.toNat_toUInt64, UInt8.toNat_and]
  exact Nat.and_two_pow_sub_one_eq_mod byte.toNat 7

theorem continuation_bit (byte : UInt8) : byte &&& 0x80 = 0 ↔ byte.toNat < 128 := by
  have hlt := byte.toNat_lt
  have hand : (byte &&& 0x80).toNat = (byte.toNat.testBit 7).toNat * 2 ^ 7 := by
    rw [UInt8.toNat_and]
    exact Nat.and_two_pow byte.toNat 7
  have h0 : (0 : UInt8).toNat = 0 := rfl
  rw [← UInt8.toNat_inj, hand, h0, Nat.testBit_eq_decide_div_mod_eq]
  by_cases h : byte.toNat < 128
  · rw [decide_eq_false (by omega)]
    simp [h]
  · rw [decide_eq_true (by omega)]
    simp [h]

/-- A group that fits is added: it lands above the bits accumulated so far. -/
theorem or_group {acc : UInt64} (byte : UInt8) {shift : UInt32} (hshift : shift.toNat < 64)
    (hacc : acc.toNat < 2 ^ shift.toNat) (hfit : byte.toNat % 128 * 2 ^ shift.toNat < 2 ^ 64) :
    (acc ||| (byte &&& 0x7f).toUInt64 <<< shift.toUInt64).toNat
      = acc.toNat + byte.toNat % 128 * 2 ^ shift.toNat := by
  have hgroup : ((byte &&& 0x7f).toUInt64 <<< shift.toUInt64).toNat
      = 2 ^ shift.toNat * (byte.toNat % 128) := by
    rw [UInt64.toNat_shiftLeft, payload_bits, UInt32.toNat_toUInt64, Nat.mod_eq_of_lt hshift,
      Nat.shiftLeft_eq, Nat.mod_eq_of_lt hfit, Nat.mul_comm]
  rw [UInt64.toNat_or, hgroup, Nat.or_comm, ← Nat.two_pow_add_eq_or_of_lt hacc]
  ring

/-- Below 64 neither the shift nor its increment can fail. -/
theorem decode_varint_loop_cons (byte : UInt8) (rest : List UInt8) (i : ℕ) (acc : UInt64)
    {shift : UInt32} (hshift : shift.toNat < 64) :
    decode_varint_loop (byte :: rest) i acc shift
      = if byte.toNat < 128 then
          some (acc ||| (byte &&& 0x7f).toUInt64 <<< shift.toUInt64, i + 1)
        else decode_varint_loop rest (i + 1) (acc ||| (byte &&& 0x7f).toUInt64 <<< shift.toUInt64)
          (shift + 7) := by
  have hlt : shift < 64 := by
    rw [UInt32.lt_iff_toNat_lt]
    exact hshift
  have h7 : (7 : UInt32).toNat = 7 := rfl
  have hadd : checked_add_u32 shift 7 = some (shift + 7) := by
    rw [checked_add_u32, if_pos]
    omega
  rw [decode_varint_loop]
  dsimp only
  rw [checked_shl, if_pos hshift, Option.filter_some, if_pos (decide_eq_true hlt), hadd]
  simp only [continuation_bit, Option.bind_eq_bind, Option.bind_some]

/-! ## The loop -/

/-- The lowest group of a number, and the groups above it seven bits further up. -/
theorem split_group (m s : ℕ) :
    m * 2 ^ s = m % 128 * 2 ^ s + m / 128 * 2 ^ (s + 7) := by
  conv_lhs => rw [← Nat.mod_add_div m 128]
  rw [pow_add]
  ring

/-- A further group is only left where there is room for it. -/
theorem next_shift_lt {m s : ℕ} (h : 128 ≤ m) (hlt : m * 2 ^ s < 2 ^ 64) : s + 7 < 64 := by
  have hnext : 2 ^ (s + 7) ≤ m / 128 * 2 ^ (s + 7) := Nat.le_mul_of_pos_left _ (by omega)
  have hsplit := split_group m s
  by_contra hge
  have hpow : 2 ^ 64 ≤ 2 ^ (s + 7) := Nat.pow_le_pow_right (by decide) (by omega)
  omega

/-- What is accumulated and what is left make up the value. -/
theorem decode_varint_loop_append (value : UInt64) (suffix : List UInt8) (m i : ℕ) (acc : UInt64)
    (shift : UInt32) (hshift : shift.toNat < 64) (hacc : acc.toNat < 2 ^ shift.toNat)
    (hvalue : acc.toNat + m * 2 ^ shift.toNat = value.toNat) :
    decode_varint_loop (Wire.varint m ++ suffix) i acc shift
      = some (value, i + (Wire.varint m).length) := by
  induction m using Nat.strong_induction_on generalizing i acc shift with
  | _ m ih =>
    have hv := value.toNat_lt
    -- the group of this turn is part of what is left, so it fits
    have hfit : m % 128 * 2 ^ shift.toNat < 2 ^ 64 := by
      have := Nat.mul_le_mul_right (2 ^ shift.toNat) (Nat.mod_le m 128)
      omega
    rcases Nat.lt_or_ge m 128 with h | h
    · have hb : (UInt8.ofNat m).toNat = m := by
        rw [UInt8.toNat_ofNat']
        omega
      have hacc' := or_group (UInt8.ofNat m) hshift hacc (by rw [hb]; exact hfit)
      rw [hb, Nat.mod_eq_of_lt h, hvalue] at hacc'
      rw [Wire.varint_of_lt h, List.singleton_append, decode_varint_loop_cons _ _ _ _ hshift, hb,
        if_pos h, UInt64.toNat_inj.1 hacc', List.length_singleton]
    · have hb : (UInt8.ofNat (m % 128 + 128)).toNat = m % 128 + 128 := by
        rw [UInt8.toNat_ofNat']
        omega
      have hmod : (m % 128 + 128) % 128 = m % 128 := by omega
      have hacc' := or_group (UInt8.ofNat (m % 128 + 128)) hshift hacc
        (by rw [hb, hmod]; exact hfit)
      rw [hb, hmod] at hacc'
      have hsplit := split_group m shift.toNat
      have hnext : shift.toNat + 7 < 64 := next_shift_lt h (by omega)
      have hshift7 : (shift + 7).toNat = shift.toNat + 7 := by
        rw [UInt32.toNat_add]
        have h7 : (7 : UInt32).toNat = 7 := rfl
        omega
      rw [Wire.varint_of_ge h, List.cons_append, decode_varint_loop_cons _ _ _ _ hshift, hb,
        if_neg (by omega), ih (m / 128) (by omega) _ _ _ (by omega) ?_ ?_, List.length_cons]
      · congr 2
        omega
      · have hle := Nat.mul_le_mul_right (2 ^ shift.toNat) (show m % 128 ≤ 127 by omega)
        rw [hacc', hshift7, pow_add]
        omega
      · rw [hacc', hshift7]
        omega

theorem decode_varint_append (value : UInt64) (suffix : List UInt8) :
    decode_varint (Wire.varint value.toNat ++ suffix)
      = some (value, (Wire.varint value.toNat).length) := by
  have h := decode_varint_loop_append value suffix value.toNat 0 0 0 (by decide) (by decide)
    (by simp)
  rwa [Nat.zero_add] at h

/-! ## The code -/

/-- **The canonical LEB128 code of `u64`**, behind whatever the buffer holds and in front of
whatever follows. -/
theorem write_varint_canonical (out : List UInt8) (value : UInt64) (suffix : List UInt8) :
    ∃ code : List UInt8, write_varint out value = out ++ code ∧
      code.length = max 1 (Nat.size value.toNat ⌈/⌉ 7) ∧ 1 ≤ code.length ∧ code.length ≤ 10 ∧
      (∀ b ∈ code.dropLast, 0x80 ≤ b) ∧
      (∃ last, code.getLast? = some last ∧ last < 0x80 ∧ (last = 0 → value = 0)) ∧
      decode_varint (code ++ suffix) = some (value, code.length) ∧
      ∀ value', code <+: write_varint [] value' → value' = value := by
  refine ⟨Wire.varint value.toNat, write_varint_eq out value, Wire.length_varint _, ?_,
    length_varint_u64_le value.toNat_lt, ?_, ?_, decode_varint_append value suffix, ?_⟩
  · exact List.length_pos_iff.2 (Wire.varint_ne_nil _)
  · obtain ⟨init, last, heq, hinit, -, -⟩ := Wire.varint_canonical value.toNat
    rw [heq, List.dropLast_concat]
    intro b hb
    rw [UInt8.le_iff_toNat_le]
    exact hinit b hb
  · obtain ⟨init, last, heq, -, hlast, hzero⟩ := Wire.varint_canonical value.toNat
    refine ⟨last, by rw [heq, List.getLast?_concat], ?_, ?_⟩
    · rw [UInt8.lt_iff_toNat_lt]
      exact hlast
    · rintro rfl
      rw [← UInt64.toNat_inj]
      exact hzero rfl
  · intro value' hprefix
    rw [write_varint_eq, List.nil_append] at hprefix
    exact UInt64.toNat_inj.1 (Wire.eq_of_varint_prefix hprefix).symm

end TxCompiler
