/-
Hexadecimal text: two digits a byte, high half first, either letter case on the way
in and lower case on the way out.

`decode` accepts exactly the even-length strings of hexadecimal digits
(`hexdigits_of_decode`, `decode_of_hexdigits`), and two strings decode to the same
bytes exactly when they differ in letter case only (`decode_eq_iff_lowercase`): case
is the one thing decoding forgets. `be_value_decode` is the arithmetic reading of a decoded word,
which is what relates a number read off the text to one read off the bytes.
-/
import TxCompiler.Numeral

set_option autoImplicit false

namespace Hex

open Rust

/-- The bytes a hexadecimal string spells; `none` on an odd length or another character. -/
def decode : List UInt8 → Option (List UInt8)
  | [] => some []
  | [_] => none
  | hi :: lo :: rest =>
    if is_ascii_hexdigit hi && is_ascii_hexdigit lo then
      (decode rest).map (UInt8.ofNat (16 * digit_value hi + digit_value lo) :: ·)
    else none

/-- The lower-case digit of a half byte. -/
def digit_char (n : ℕ) : Char := if n < 10 then Char.ofNat (48 + n) else Char.ofNat (87 + n)

/-- Lower-case hexadecimal text, without a prefix. -/
def encode (bs : List UInt8) : String :=
  String.ofList (bs.flatMap fun b => [digit_char (b.toNat / 16), digit_char (b.toNat % 16)])

/-! ## What decodes -/

theorem decode_cons {hi lo : UInt8} {rest bs : List UInt8} :
    decode (hi :: lo :: rest) = some bs ↔ is_ascii_hexdigit hi = true ∧
      is_ascii_hexdigit lo = true ∧ ∃ tl, decode rest = some tl ∧
        bs = UInt8.ofNat (16 * digit_value hi + digit_value lo) :: tl := by
  rw [decode]
  by_cases hh : is_ascii_hexdigit hi = true <;> by_cases hl : is_ascii_hexdigit lo = true <;>
    simp [hh, hl, eq_comm]

theorem decode_of_not_hex {hi lo : UInt8} {rest : List UInt8}
    (h : ¬ (is_ascii_hexdigit hi && is_ascii_hexdigit lo) = true) :
    decode (hi :: lo :: rest) = none := by
  rw [decode, if_neg h]

-- A proof about a text that decodes follows `decode.induct`: the empty text, a single
-- digit, a pair of digits in front of the rest, and a pair that is not hexadecimal. The
-- second and the last contradict that it decodes.
theorem length_of_decode {s bs : List UInt8} (h : decode s = some bs) :
    s.length = 2 * bs.length := by
  induction s using decode.induct generalizing bs with
  | case1 =>
    simp only [decode, Option.some.injEq] at h
    subst h
    rfl
  | case2 => simp [decode] at h
  | case3 hi lo rest hd ih =>
    obtain ⟨-, -, tl, htl, rfl⟩ := decode_cons.1 h
    simp only [List.length_cons, ih htl]
    omega
  | case4 hi lo rest hd =>
    simp [decode_of_not_hex hd] at h

theorem hexdigits_of_decode {s bs : List UInt8} (h : decode s = some bs) :
    ∀ b ∈ s, is_ascii_hexdigit b = true := by
  induction s using decode.induct generalizing bs with
  | case1 => simp
  | case2 => simp [decode] at h
  | case3 hi lo rest hd ih =>
    obtain ⟨hhi, hlo, tl, htl, -⟩ := decode_cons.1 h
    intro b hb
    rcases List.mem_cons.1 hb with rfl | hb
    · exact hhi
    · rcases List.mem_cons.1 hb with rfl | hb
      · exact hlo
      · exact ih htl b hb
  | case4 hi lo rest hd =>
    simp [decode_of_not_hex hd] at h

theorem decode_of_hexdigits {s : List UInt8} {k : ℕ} (hlen : s.length = 2 * k)
    (h : ∀ b ∈ s, is_ascii_hexdigit b = true) : ∃ bs, decode s = some bs := by
  induction s using decode.induct generalizing k with
  | case1 => exact ⟨[], rfl⟩
  | case2 => simp at hlen; omega
  | case3 hi lo rest hd ih =>
    simp only [List.length_cons] at hlen
    -- the length stays even behind a pair
    obtain ⟨tl, htl⟩ := ih (k := k - 1) (by omega) fun b hb => h b (by simp [hb])
    exact ⟨_, decode_cons.2 ⟨h hi (by simp), h lo (by simp), tl, htl, rfl⟩⟩
  | case4 hi lo rest hd =>
    rw [h hi (by simp), h lo (by simp)] at hd
    simp at hd

/-! ## Concatenation -/

theorem decode_append {s t xs ys : List UInt8} (hs : decode s = some xs)
    (ht : decode t = some ys) : decode (s ++ t) = some (xs ++ ys) := by
  induction s using decode.induct generalizing xs with
  | case1 =>
    simp only [decode, Option.some.injEq] at hs
    rw [← hs]
    exact ht
  | case2 => simp [decode] at hs
  | case3 hi lo rest hd ih =>
    obtain ⟨hhi, hlo, tl, htl, rfl⟩ := decode_cons.1 hs
    exact decode_cons.2 ⟨hhi, hlo, tl ++ ys, ih htl, rfl⟩
  | case4 hi lo rest hd =>
    simp [decode_of_not_hex hd] at hs

/-- A string that decodes splits, at any even position, into two that do. -/
theorem decode_split {s bs : List UInt8} (h : decode s = some bs) (k : ℕ) :
    decode (s.take (2 * k)) = some (bs.take k) ∧ decode (s.drop (2 * k)) = some (bs.drop k) := by
  induction k generalizing s bs with
  | zero => exact ⟨rfl, h⟩
  | succ k ih =>
    match s, h with
    | [], h =>
      simp only [decode, Option.some.injEq] at h
      subst h
      simp [decode]
    | hi :: lo :: rest, h =>
      obtain ⟨hhi, hlo, tl, htl, rfl⟩ := decode_cons.1 h
      obtain ⟨h1, h2⟩ := ih htl
      rw [show 2 * (k + 1) = 2 * k + 1 + 1 by ring]
      exact ⟨decode_cons.2 ⟨hhi, hlo, _, h1, rfl⟩, h2⟩

theorem decode_replicate_zero (k : ℕ) :
    decode (List.replicate (2 * k) 0x30) = some (List.replicate k 0) := by
  induction k with
  | zero => rfl
  | succ k ih =>
    rw [show 2 * (k + 1) = 2 * k + 1 + 1 by ring, List.replicate_succ, List.replicate_succ]
    exact decode_cons.2 ⟨rfl, rfl, _, ih, rfl⟩

/-! ## Letter case -/

theorem hexdigit_lowercase (b : UInt8) :
    is_ascii_hexdigit (lowercase_byte b) = is_ascii_hexdigit b := by
  rw [Bool.eq_iff_iff, is_ascii_hexdigit_iff, is_ascii_hexdigit_iff, toNat_lowercase_byte]
  split_ifs <;> omega

/-- A hexadecimal digit is its value, up to letter case. -/
theorem lowercase_of_digit_value {a b : UInt8} (ha : is_ascii_hexdigit a = true)
    (hb : is_ascii_hexdigit b = true) (h : digit_value a = digit_value b) :
    lowercase_byte a = lowercase_byte b := by
  -- the values of `0-9` and of the letters do not overlap, so equal values put both
  -- digits in the same class
  have key : ∀ {b}, is_ascii_hexdigit b = true → (lowercase_byte b).toNat =
      if digit_value b < 10 then digit_value b + 48 else digit_value b + 87 := by
    intro b hb
    rw [is_ascii_hexdigit_iff] at hb
    rw [toNat_lowercase_byte, digit_value_eq]
    split_ifs <;> omega
  rw [← UInt8.toNat_inj, key ha, key hb, h]

@[simp] theorem decode_lowercase (s : List UInt8) :
    decode (s.map lowercase_byte) = decode s := by
  induction s using decode.induct with
  | case1 => rfl
  | case2 => rfl
  | case3 hi lo rest hd ih =>
    simp only [List.map_cons, decode, hexdigit_lowercase, digit_value_lowercase]
    rw [ih]
  | case4 hi lo rest hd =>
    simp only [List.map_cons, decode, hexdigit_lowercase]
    rw [if_neg (by simpa using hd), if_neg (by simpa using hd)]

theorem lowercase_of_decode {s t bs : List UInt8} (hs : decode s = some bs)
    (ht : decode t = some bs) : s.map lowercase_byte = t.map lowercase_byte := by
  induction s using decode.induct generalizing t bs with
  | case1 =>
    have hlen := length_of_decode ht
    rw [← length_of_decode hs] at hlen
    rw [List.length_eq_zero_iff.1 hlen]
  | case2 => simp [decode] at hs
  | case3 hi lo rest hd ih =>
    obtain ⟨hhi, hlo, tl, htl, rfl⟩ := decode_cons.1 hs
    have hlen := length_of_decode ht
    match t, ht with
    | [], ht => simp [decode] at ht
    | hi' :: lo' :: rest', ht =>
      obtain ⟨hhi', hlo', tl', htl', heq⟩ := decode_cons.1 ht
      injection heq with hb htail
      subst htail
      -- the bytes agree and both halves are below sixteen, so the digits have equal values
      have hb := congrArg UInt8.toNat hb
      have h1 := digit_value_lt_sixteen hhi
      have h2 := digit_value_lt_sixteen hlo
      have h3 := digit_value_lt_sixteen hhi'
      have h4 := digit_value_lt_sixteen hlo'
      rw [UInt8.toNat_ofNat', UInt8.toNat_ofNat'] at hb
      rw [List.map_cons, List.map_cons, List.map_cons, List.map_cons, ih htl htl',
        lowercase_of_digit_value hhi hhi' (by omega), lowercase_of_digit_value hlo hlo' (by omega)]
  | case4 hi lo rest hd =>
    simp [decode_of_not_hex hd] at hs

/-- **Letter case is all that decoding forgets.** -/
theorem decode_eq_iff_lowercase {s t xs ys : List UInt8} (hs : decode s = some xs)
    (ht : decode t = some ys) : xs = ys ↔ s.map lowercase_byte = t.map lowercase_byte := by
  constructor
  · rintro rfl
    exact lowercase_of_decode hs ht
  · intro h
    rw [← decode_lowercase, h, decode_lowercase, ht] at hs
    exact (Option.some.inj hs).symm

/-! ## The number a decoded word spells -/

/-- The big-endian value of the bytes is the radix-16 value of the text. -/
theorem be_value_decode {s bs : List UInt8} (h : decode s = some bs) :
    be_value bs = radix_value 16 s := by
  induction s using decode.induct generalizing bs with
  | case1 =>
    simp only [decode, Option.some.injEq] at h
    rw [← h]
    rfl
  | case2 => simp [decode] at h
  | case3 hi lo rest hd ih =>
    obtain ⟨hhi, hlo, tl, htl, rfl⟩ := decode_cons.1 h
    have hlen := length_of_decode htl
    have h1 := digit_value_lt_sixteen hhi
    have h2 := digit_value_lt_sixteen hlo
    -- a pair of digits is one byte: `16 * hi + lo` on either reading
    have hbyte : be_value [UInt8.ofNat (16 * digit_value hi + digit_value lo)]
        = 16 * digit_value hi + digit_value lo := by
      rw [← List.nil_append [_], be_value_append_singleton, be_value_nil, UInt8.toNat_ofNat']
      omega
    have hpair : radix_value 16 ([hi] ++ [lo]) = 16 * digit_value hi + digit_value lo := by
      rw [radix_value_append_singleton, ← List.nil_append [hi], radix_value_append_singleton]
      simp [radix_value]
    calc be_value (UInt8.ofNat (16 * digit_value hi + digit_value lo) :: tl)
        = be_value [UInt8.ofNat (16 * digit_value hi + digit_value lo)] * 256 ^ tl.length
            + be_value tl := be_value_append [_] tl
      _ = radix_value 16 ([hi] ++ [lo]) * 16 ^ rest.length + radix_value 16 rest := by
          rw [hbyte, hpair, ih htl, hlen, pow_mul]
          norm_num
      _ = radix_value 16 (hi :: lo :: rest) := (radix_value_append 16 [hi, lo] rest).symm
  | case4 hi lo rest hd =>
    simp [decode_of_not_hex hd] at h

/-! ## Round trip -/

theorem bytes_encode_cons (b : UInt8) (bs : List UInt8) :
    ∃ hi lo, bytes (encode (b :: bs)) = hi :: lo :: bytes (encode bs) ∧
      is_ascii_hexdigit hi = true ∧ is_ascii_hexdigit lo = true ∧
        UInt8.ofNat (16 * digit_value hi + digit_value lo) = b := by
  -- every half byte has a digit, one byte of UTF-8 long, with that value
  have key : ∀ n : Fin 16, ∃ d, String.utf8EncodeChar (digit_char n.val) = [d] ∧
      is_ascii_hexdigit d = true ∧ digit_value d = n.val := by
    intro n
    refine ⟨UInt8.ofNat (digit_char n.val).val.toNat, ?_⟩
    revert n
    decide
  have hb := b.toNat_lt
  obtain ⟨hi, h1, h2, h3⟩ := key ⟨b.toNat / 16, by omega⟩
  obtain ⟨lo, h4, h5, h6⟩ := key ⟨b.toNat % 16, by omega⟩
  refine ⟨hi, lo, ?_, h2, h5, ?_⟩
  · rw [encode, bytes_ofList, List.flatMap_cons, List.flatMap_append, encode, bytes_ofList]
    simp only [List.flatMap_cons, List.flatMap_nil, h1, h4]
    rfl
  · rw [h3, h6, ← UInt8.toNat_inj, UInt8.toNat_ofNat']
    simp only
    omega

/-- Decoding an encoding gives the bytes back. -/
@[simp] theorem decode_encode (bs : List UInt8) : decode (bytes (encode bs)) = some bs := by
  induction bs with
  | nil => rfl
  | cons b bs ih =>
    obtain ⟨hi, lo, h, hhi, hlo, hb⟩ := bytes_encode_cons b bs
    rw [h]
    exact decode_cons.2 ⟨hhi, hlo, bs, ih, by rw [hb]⟩

/-- Encoding writes no capital letter. -/
theorem lowercase_encode (bs : List UInt8) : ∀ b ∈ bytes (encode bs), lowercase_byte b = b := by
  have hall : ∀ n : Fin 16, (String.utf8EncodeChar (digit_char n.val)).all
      (fun b => lowercase_byte b == b) = true := by
    decide
  have key : ∀ n : Fin 16, ∀ b ∈ String.utf8EncodeChar (digit_char n.val),
      lowercase_byte b = b := by
    intro n b hb
    exact beq_iff_eq.1 (List.all_eq_true.1 (hall n) b hb)
  rw [encode, bytes_ofList]
  intro b hb
  obtain ⟨c, hc, hb⟩ := List.mem_flatMap.1 hb
  obtain ⟨x, -, hc⟩ := List.mem_flatMap.1 hc
  have hx := x.toNat_lt
  rcases List.mem_pair.1 hc with rfl | rfl
  · exact key ⟨x.toNat / 16, by omega⟩ b hb
  · exact key ⟨x.toNat % 16, by omega⟩ b hb

/-- A text without capital letters is the encoding of what it decodes to. -/
theorem eq_encode_of_decode {s : String} {bs : List UInt8} (h : decode (bytes s) = some bs)
    (hlow : ∀ b ∈ bytes s, lowercase_byte b = b) : s = encode bs := by
  have hfix : ∀ t : List UInt8, (∀ b ∈ t, lowercase_byte b = b) → t.map lowercase_byte = t := by
    intro t ht
    exact (List.map_congr_left ht).trans (List.map_id' t)
  rw [← bytes_inj, ← hfix _ hlow, ← hfix _ (lowercase_encode bs)]
  exact lowercase_of_decode h (decode_encode bs)

end Hex
