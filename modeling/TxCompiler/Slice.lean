/-
The partial operations on byte slices, arrays and machine integers: indexing,
slicing, `copy_from_slice`, `Vec::with_capacity`, the checked conversions between
integer types and the additions a debug build checks.

A vector of bytes is a `List UInt8`, a fixed-size array `[u8; n]` a list with its
length (`FixedBytes n`), and `usize` is the 64-bit type. Every lemma here is the
success case: the caller shows the bound, and the operation is then an equation.
-/
import TxCompiler.Numeral

set_option autoImplicit false

namespace Rust

/-- `[u8; n]`. -/
abbrev FixedBytes (n : ℕ) := { bs : List UInt8 // bs.length = n }

variable {ε : Type}

/-! ## Slices -/

/-- `bs[i]`. -/
def index (bs : List UInt8) (i : ℕ) : Run ε UInt8 :=
  match bs[i]? with
  | some b => .ok b
  | none => panicked .index

/-- `&bs[i..j]`. -/
def slice (bs : List UInt8) (i j : ℕ) : Run ε (List UInt8) :=
  if i ≤ j ∧ j ≤ bs.length then .ok ((bs.drop i).take (j - i)) else panicked .slice

/-- `dst[i..j].copy_from_slice(src)`. -/
def copy_from_slice {n : ℕ} (dst : FixedBytes n) (i j : ℕ) (src : List UInt8) :
    Run ε (FixedBytes n) :=
  if h : i ≤ j ∧ j ≤ n then
    if hs : src.length = j - i then
      .ok ⟨dst.val.take i ++ src ++ dst.val.drop j, by
        have := dst.property
        simp only [List.length_append, List.length_take, List.length_drop, hs]
        omega⟩
    else panicked .copyLength
  else panicked .slice

/-- `[0_u8; n]`. -/
def zeroed (n : ℕ) : FixedBytes n := ⟨List.replicate n 0, List.length_replicate ..⟩

theorem index_of_lt {bs : List UInt8} {i : ℕ} (h : i < bs.length) :
    (index bs i : Run ε UInt8) = .ok bs[i] := by
  rw [index, List.getElem?_eq_getElem h]

theorem slice_of_le {bs : List UInt8} {i j : ℕ} (hij : i ≤ j) (hj : j ≤ bs.length) :
    (slice bs i j : Run ε (List UInt8)) = .ok ((bs.drop i).take (j - i)) :=
  if_pos ⟨hij, hj⟩

theorem copy_from_slice_eq {n : ℕ} {dst : FixedBytes n} {i j : ℕ} {src : List UInt8}
    (hij : i ≤ j) (hj : j ≤ n) (hs : src.length = j - i) :
    ∃ out : FixedBytes n, (copy_from_slice dst i j src : Run ε (FixedBytes n)) = .ok out ∧
      out.val = dst.val.take i ++ src ++ dst.val.drop j := by
  rw [copy_from_slice, dif_pos ⟨hij, hj⟩, dif_pos hs]
  exact ⟨_, rfl, rfl⟩

/-! ## Machine integers -/

/-- `a + b` on `usize`, in a build with overflow checks. -/
def usize_add (a b : ℕ) : Run ε ℕ := if a + b < 2 ^ 64 then .ok (a + b) else panicked .overflow

/-- `Vec::with_capacity`: an empty vector, or a panic past `isize::MAX` bytes. -/
def with_capacity (n : ℕ) : Run ε (List UInt8) :=
  if n < 2 ^ 63 then .ok [] else panicked .capacity

/-- `u64::checked_add`. -/
def checked_add (a b : UInt64) : Option UInt64 :=
  if a.toNat + b.toNat < 2 ^ 64 then some (a + b) else none

/-- `u32::checked_add`. -/
def checked_add_u32 (a b : UInt32) : Option UInt32 :=
  if a.toNat + b.toNat < 2 ^ 32 then some (a + b) else none

/-- `u64::checked_shl`: `None` when the shift reaches the width; the bits shifted out are lost. -/
def checked_shl (a : UInt64) (shift : UInt32) : Option UInt64 :=
  if shift.toNat < 64 then some (a <<< shift.toUInt64) else none

/-- `u64::try_from` on a wider unsigned integer. -/
def u64_try_from (n : ℕ) : Option UInt64 :=
  if n < 2 ^ 64 then some (UInt64.ofNat n) else none

/-- `u64::try_from` on an `i64`. -/
def u64_try_from_i64 (i : Int64) : Option UInt64 :=
  if 0 ≤ i.toInt then some (UInt64.ofNat i.toInt.toNat) else none

/-- `i64::try_from` on a `u64`. -/
def i64_try_from_u64 (n : UInt64) : Option Int64 :=
  if n.toNat < 2 ^ 63 then some (Int64.ofNat n.toNat) else none

/-- `u32::try_from` on a `u64`. -/
def u32_try_from_u64 (n : UInt64) : Option UInt32 :=
  if n.toNat < 2 ^ 32 then some n.toUInt32 else none

/-- `u16::try_from` on a `u64`. -/
def u16_try_from_u64 (n : UInt64) : Option UInt16 :=
  if n.toNat < 2 ^ 16 then some n.toUInt16 else none

/-- `u8::try_from` on a `u64`. -/
def u8_try_from_u64 (n : UInt64) : Option UInt8 :=
  if n.toNat < 2 ^ 8 then some n.toUInt8 else none

/-- `str::parse::<u64>`. -/
def u64_from_str (s : String) : Option UInt64 := (parse_uint 64 s).map UInt64.ofNat

/-- `str::parse::<u128>`. -/
def u128_from_str (s : String) : Option (BitVec 128) := (parse_uint 128 s).map (BitVec.ofNat 128)

theorem usize_add_of_lt {a b : ℕ} (h : a + b < 2 ^ 64) : (usize_add a b : Run ε ℕ) = .ok (a + b) :=
  if_pos h

theorem with_capacity_of_lt {n : ℕ} (h : n < 2 ^ 63) :
    (with_capacity n : Run ε (List UInt8)) = .ok [] := if_pos h

theorem usize_add_eq_ok {a b c : ℕ} :
    (usize_add a b : Run ε ℕ) = .ok c ↔ a + b < 2 ^ 64 ∧ a + b = c := by
  unfold usize_add
  by_cases h : a + b < 2 ^ 64
  · rw [if_pos h, Except.ok.injEq, and_iff_right h]
  · rw [if_neg h]
    simp only [panicked_ne_ok, h, false_and]

theorem with_capacity_eq_ok {n : ℕ} {bs : List UInt8} :
    (with_capacity n : Run ε (List UInt8)) = .ok bs ↔ n < 2 ^ 63 ∧ [] = bs := by
  unfold with_capacity
  by_cases h : n < 2 ^ 63
  · rw [if_pos h, Except.ok.injEq, and_iff_right h]
  · rw [if_neg h]
    simp only [panicked_ne_ok, h, false_and]

theorem toNat_ofNat_u64 {n : ℕ} (h : n < 2 ^ 64) : (UInt64.ofNat n).toNat = n := by
  rw [UInt64.toNat_ofNat']
  exact Nat.mod_eq_of_lt h

theorem u64_try_from_of_lt {n : ℕ} (h : n < 2 ^ 64) :
    u64_try_from n = some (UInt64.ofNat n) := if_pos h

theorem u64_from_str_repr (n : ℕ) :
    u64_from_str n.repr = if n < 2 ^ 64 then some (UInt64.ofNat n) else none := by
  rw [u64_from_str, parse_uint_repr]
  split <;> rfl

theorem u128_from_str_repr (n : ℕ) :
    u128_from_str n.repr = if n < 2 ^ 128 then some (BitVec.ofNat 128 n) else none := by
  rw [u128_from_str, parse_uint_repr]
  split <;> rfl

/-- A non-negative `i64` is below `2^63`, so the conversion loses nothing. -/
theorem u64_try_from_i64_of_nonneg {i : Int64} (h : 0 ≤ i.toInt) :
    ∃ u, u64_try_from_i64 i = some u ∧ (u.toNat : ℤ) = i.toInt ∧ u.toNat < 2 ^ 63 := by
  have hlt := i.toInt_lt
  refine ⟨_, if_pos h, ?_⟩
  rw [toNat_ofNat_u64 (by omega)]
  omega

/-- The conversion is exact where it succeeds. -/
theorem u64_try_from_i64_eq_some {i : Int64} {u : UInt64} :
    u64_try_from_i64 i = some u ↔ (u.toNat : ℤ) = i.toInt := by
  by_cases hnonneg : 0 ≤ i.toInt
  · obtain ⟨v, hv, hval, -⟩ := u64_try_from_i64_of_nonneg hnonneg
    rw [hv, Option.some.injEq, ← hval, Nat.cast_inj, UInt64.toNat_inj, eq_comm]
  · rw [u64_try_from_i64, if_neg hnonneg]
    exact iff_of_false (by simp) (by omega)

/-- Masking to sixteen bits always fits a `u16`. -/
theorem u16_try_from_mask (n : UInt64) :
    ∃ u, u16_try_from_u64 (n &&& 0xffff) = some u ∧ u.toNat = n.toNat % 2 ^ 16 := by
  -- the mask `2^16 - 1` is a remainder
  have hmask : (n &&& 0xffff).toNat = n.toNat % 2 ^ 16 := by
    rw [UInt64.toNat_and]
    exact Nat.and_two_pow_sub_one_eq_mod n.toNat 16
  have hlt : (n &&& 0xffff).toNat < 2 ^ 16 := by
    rw [hmask]
    exact Nat.mod_lt _ (by decide)
  refine ⟨_, if_pos hlt, ?_⟩
  rw [UInt64.toNat_toUInt16, hmask, Nat.mod_mod]

end Rust
