/-
Rust's `str`, over Lean's `String`: both are sequences of Unicode scalar values
stored as UTF-8, so the two types have the same values. What differs is the
vocabulary. Rust code measures, tests and slices a string **by bytes**, and a
slice off a character boundary panics; this file states those operations on
`bytes s`, the UTF-8 encoding of `s`.

The one fact that is not bookkeeping is `is_char_boundary_of_ascii`: a position
behind nothing but ASCII bytes is a character boundary. Every slice of the
modelled code is taken behind a check that makes its prefix ASCII, so this is the
only boundary lemma the callers need. The converse direction is why the order of
those checks matters: a two-byte character can sit astride any position of a
string that has only had its length checked.
-/
import TxCompiler.Run

set_option autoImplicit false

namespace Rust

/-! ## Bytes -/

/-- `u8::is_ascii_digit`. -/
def is_ascii_digit (b : UInt8) : Bool := 0x30 ≤ b && b ≤ 0x39

/-- `u8::is_ascii_hexdigit`. -/
def is_ascii_hexdigit (b : UInt8) : Bool :=
  is_ascii_digit b || (0x41 ≤ b && b ≤ 0x46) || (0x61 ≤ b && b ≤ 0x66)

/-- `u8::to_ascii_lowercase`. -/
def lowercase_byte (b : UInt8) : UInt8 := if 0x41 ≤ b && b ≤ 0x5a then b + 32 else b

-- The byte classes are stated over `toNat`, so that facts about one byte are linear
-- arithmetic and no proof has to run through the 256 cases.
theorem is_ascii_digit_iff {b : UInt8} :
    is_ascii_digit b = true ↔ 48 ≤ b.toNat ∧ b.toNat ≤ 57 := by
  simp [is_ascii_digit, UInt8.le_iff_toNat_le]

theorem is_ascii_hexdigit_iff {b : UInt8} : is_ascii_hexdigit b = true ↔
    (48 ≤ b.toNat ∧ b.toNat ≤ 57) ∨ (65 ≤ b.toNat ∧ b.toNat ≤ 70) ∨
      (97 ≤ b.toNat ∧ b.toNat ≤ 102) := by
  simp [is_ascii_hexdigit, is_ascii_digit_iff, UInt8.le_iff_toNat_le, or_assoc]

theorem toNat_lowercase_byte (b : UInt8) : (lowercase_byte b).toNat =
    if 65 ≤ b.toNat ∧ b.toNat ≤ 90 then b.toNat + 32 else b.toNat := by
  unfold lowercase_byte
  by_cases h : 65 ≤ b.toNat ∧ b.toNat ≤ 90
  · rw [if_pos (by simpa [UInt8.le_iff_toNat_le] using h), if_pos h, UInt8.toNat_add]
    have h32 : (32 : UInt8).toNat = 32 := rfl
    -- `90 + 32` is below 256, so the byte addition does not wrap
    omega
  · rw [if_neg (by simpa [UInt8.le_iff_toNat_le] using h), if_neg h]

theorem hexdigit_lt {b : UInt8} (h : is_ascii_hexdigit b = true) : b.toNat < 128 := by
  rw [is_ascii_hexdigit_iff] at h
  omega

theorem hexdigit_of_digit {b : UInt8} (h : is_ascii_digit b = true) :
    is_ascii_hexdigit b = true := by
  simp [is_ascii_hexdigit, h]

/-- `str::as_bytes`. -/
def bytes (s : String) : List UInt8 := s.toByteArray.data.toList

/-- `str::len`, a number of bytes. -/
def len (s : String) : ℕ := s.utf8ByteSize

@[simp] theorem length_bytes (s : String) : (bytes s).length = len s := by
  simp [bytes, len, ByteArray.size_data]

theorem bytes_inj {s t : String} : bytes s = bytes t ↔ s = t := by
  rw [bytes, bytes, Array.toList_inj, ← String.toByteArray_inj]
  exact ⟨fun h => ByteArray.ext h, fun h => by rw [h]⟩

@[simp] theorem bytes_append (s t : String) : bytes (s ++ t) = bytes s ++ bytes t := by
  simp [bytes, ByteArray.data_append]

@[simp] theorem bytes_empty : bytes "" = [] := rfl

theorem bytes_eq_nil {s : String} : bytes s = [] ↔ s = "" := by
  rw [← bytes_empty, bytes_inj]

theorem bytes_ofList (cs : List Char) :
    bytes (String.ofList cs) = cs.flatMap String.utf8EncodeChar := by
  simp [bytes, String.toByteArray_ofList, List.utf8Encode]

theorem bytes_eq_flatMap (s : String) : bytes s = s.toList.flatMap String.utf8EncodeChar := by
  rw [← bytes_ofList, String.ofList_toList]

/-! ## Characters and their encodings -/

/-- A character whose encoding starts with an ASCII byte is that byte. -/
theorem utf8EncodeChar_of_ascii {c : Char} {b : UInt8} {rest : List UInt8}
    (h : String.utf8EncodeChar c = b :: rest) (hb : b.toNat < 128) :
    rest = [] ∧ c.val.toNat = b.toNat := by
  unfold String.utf8EncodeChar at h
  dsimp only at h
  -- one byte is emitted below 128; the lead byte of every longer form is at least `0xc0`
  split at h
  · injection h with h1 h2
    refine ⟨h2.symm, ?_⟩
    rw [← h1, UInt8.toNat_ofNat']
    omega
  · exfalso
    split at h <;> [skip; split at h] <;>
    · injection h with h1 _
      rw [← h1, UInt8.toNat_ofNat'] at hb
      omega

/-- ASCII text has a byte for each character. -/
theorem bytes_ofList_of_ascii {cs : List Char} (h : ∀ c ∈ cs, c.val.toNat < 128) :
    bytes (String.ofList cs) = cs.map fun c => UInt8.ofNat c.val.toNat := by
  rw [bytes_ofList, List.map_eq_flatMap]
  refine List.flatMap_congr fun c hc => ?_
  have hlt := h c hc
  unfold String.utf8EncodeChar
  dsimp only
  rw [if_pos (by omega)]

theorem utf8EncodeChar_ne_nil (c : Char) : String.utf8EncodeChar c ≠ [] := by
  unfold String.utf8EncodeChar
  dsimp only
  split_ifs <;> simp

/-- The first byte decides the first character, when it is ASCII. -/
theorem toList_of_ascii_head {s : String} {b : UInt8} {rest : List UInt8}
    (h : bytes s = b :: rest) (hb : b.toNat < 128) :
    ∃ c cs, s.toList = c :: cs ∧ c.val.toNat = b.toNat := by
  -- the head of the bytes is the head of the first character's encoding
  rw [bytes_eq_flatMap] at h
  cases hs : s.toList with
  | nil => simp [hs] at h
  | cons c cs =>
    refine ⟨c, cs, rfl, ?_⟩
    rw [hs, List.flatMap_cons] at h
    cases he : String.utf8EncodeChar c with
    | nil => exact absurd he (utf8EncodeChar_ne_nil c)
    | cons b' bs =>
      rw [he, List.cons_append] at h
      injection h with h1 _
      rw [h1] at he
      exact (utf8EncodeChar_of_ascii he hb).2

/-! ## Character boundaries and slices -/

/-- `str::is_char_boundary`. -/
def is_char_boundary (s : String) (i : ℕ) : Prop := (⟨i⟩ : String.Pos.Raw).IsValid s

instance (s : String) (i : ℕ) : Decidable (is_char_boundary s i) :=
  inferInstanceAs (Decidable ((⟨i⟩ : String.Pos.Raw).IsValid s))

theorem is_char_boundary.le {s : String} {i : ℕ} (h : is_char_boundary s i) : i ≤ len s :=
  h.le_utf8ByteSize

theorem is_char_boundary_len (s : String) : is_char_boundary s (len s) :=
  String.Pos.Raw.isValid_rawEndPos

/-- The characters of an ASCII prefix take one byte each. The induction is on the
number of bytes, and each of them is one character. -/
private theorem length_take_of_ascii (k : ℕ) : ∀ cs : List Char,
    k ≤ (cs.flatMap String.utf8EncodeChar).length →
    (∀ b ∈ (cs.flatMap String.utf8EncodeChar).take k, b.toNat < 128) →
    ((cs.take k).flatMap String.utf8EncodeChar).length = k := by
  induction k with
  | zero => intro cs _ _; simp
  | succ k ih =>
    intro cs hk h
    cases cs with
    | nil => simp at hk
    | cons c cs =>
      cases he : String.utf8EncodeChar c with
      | nil => exact absurd he (utf8EncodeChar_ne_nil c)
      | cons b bs =>
        rw [List.flatMap_cons, he, List.cons_append, List.take_succ_cons] at h
        -- an ASCII first byte is the whole of its character
        obtain ⟨rfl, -⟩ := utf8EncodeChar_of_ascii he (h b (List.mem_cons_self ..))
        rw [List.flatMap_cons, he] at hk
        have hrest := ih cs (by simpa using hk) fun x hx => h x (List.mem_cons_of_mem _ hx)
        rw [List.take_succ_cons, List.flatMap_cons, he, List.length_append, hrest]
        simp [Nat.add_comm]

/-- **Behind ASCII there is a boundary.** A position with nothing but ASCII bytes
before it does not fall inside a character. -/
theorem is_char_boundary_of_ascii {s : String} {k : ℕ} (hk : k ≤ len s)
    (h : ∀ b ∈ (bytes s).take k, b.toNat < 128) : is_char_boundary s k := by
  -- `k` ASCII bytes are `k` characters, so the position is behind the first `k` of them
  refine String.Pos.Raw.isValid_iff_exists_take_toList.2 ⟨k, ?_⟩
  rw [← length_bytes, bytes_eq_flatMap] at hk
  rw [bytes_eq_flatMap] at h
  show k = len (String.ofList (s.toList.take k))
  rw [← length_bytes, bytes_ofList, length_take_of_ascii k s.toList hk h]

/-- `str::get(i..j)`. -/
def get_range (s : String) (i j : ℕ) : Option String :=
  if h : i ≤ j ∧ is_char_boundary s i ∧ is_char_boundary s j then
    some ⟨s.toByteArray.extract i j,
      (String.Pos.Raw.isValidUTF8_extract_iff ⟨i⟩ ⟨j⟩ h.1 h.2.2.le).2 (.inr h.2)⟩
  else none

theorem bytes_get_range {s t : String} {i j : ℕ} (h : get_range s i j = some t) :
    bytes t = ((bytes s).drop i).take (j - i) := by
  unfold get_range at h
  split at h
  · injection h with h
    subst h
    simp [bytes, ByteArray.data_extract, List.extract_eq_take_drop]
  · simp at h

theorem get_range_eq_some {s : String} {i j : ℕ} (hij : i ≤ j)
    (hi : is_char_boundary s i) (hj : is_char_boundary s j) : ∃ t, get_range s i j = some t := by
  rw [get_range, dif_pos ⟨hij, hi, hj⟩]
  exact ⟨_, rfl⟩

variable {ε : Type}

/-- `&s[i..j]`. -/
def str_slice (s : String) (i j : ℕ) : Run ε String :=
  match get_range s i j with
  | some t => .ok t
  | none => panicked .slice

/-- `&s[i..]`. -/
def str_slice_from (s : String) (i : ℕ) : Run ε String := str_slice s i (len s)

theorem bytes_of_str_slice {s t : String} {i j : ℕ} (h : (str_slice s i j : Run ε String) = .ok t) :
    bytes t = ((bytes s).drop i).take (j - i) := by
  unfold str_slice at h
  cases hget : get_range s i j with
  | none => simp [hget] at h
  | some u =>
    rw [hget] at h
    rw [← Except.ok.inj h]
    exact bytes_get_range hget

/-- A slice has no other bytes than the string. -/
theorem mem_of_str_slice {s t : String} {i j : ℕ} (h : (str_slice s i j : Run ε String) = .ok t)
    {b : UInt8} (hb : b ∈ bytes t) : b ∈ bytes s := by
  rw [bytes_of_str_slice h] at hb
  exact List.mem_of_mem_drop (List.mem_of_mem_take hb)

/-- A slice whose ends lie behind ASCII bytes is taken, and has the bytes between them. -/
theorem str_slice_of_ascii {s : String} {i j : ℕ} (hij : i ≤ j) (hj : j ≤ len s)
    (h : ∀ b ∈ (bytes s).take j, b.toNat < 128) :
    ∃ t, (str_slice s i j : Run ε String) = .ok t ∧ bytes t = ((bytes s).drop i).take (j - i) := by
  -- the start lies behind a part of the same ASCII bytes
  have hi : is_char_boundary s i := by
    refine is_char_boundary_of_ascii (le_trans hij hj) fun b hb => h b ?_
    rw [← Nat.min_eq_left hij, ← List.take_take] at hb
    exact List.mem_of_mem_take hb
  obtain ⟨t, ht⟩ := get_range_eq_some hij hi (is_char_boundary_of_ascii hj h)
  exact ⟨t, by rw [str_slice, ht], bytes_get_range ht⟩

/-- The tail of a string from a position behind ASCII bytes. -/
theorem str_slice_from_of_ascii {s : String} {i : ℕ} (hi : i ≤ len s)
    (h : ∀ b ∈ (bytes s).take i, b.toNat < 128) :
    ∃ t, (str_slice_from s i : Run ε String) = .ok t ∧ bytes t = (bytes s).drop i := by
  obtain ⟨t, ht⟩ := get_range_eq_some hi (is_char_boundary_of_ascii hi h) (is_char_boundary_len s)
  refine ⟨t, by rw [str_slice_from, str_slice, ht], ?_⟩
  rw [bytes_get_range ht, List.take_of_length_le]
  simp

/-! ## Prefixes -/

/-- `str::starts_with`. -/
def starts_with (s p : String) : Bool := (bytes p).isPrefixOf (bytes s)

/-- `str::strip_prefix`. -/
def strip_prefix (s p : String) : Option String :=
  if starts_with s p then get_range s (len p) (len s) else none

theorem starts_with_iff {s p : String} :
    starts_with s p = true ↔ bytes s = bytes p ++ (bytes s).drop (len p) := by
  rw [starts_with, List.isPrefixOf_iff_prefix, List.prefix_iff_eq_append, length_bytes]
  exact eq_comm

theorem len_le_of_starts_with {s p : String} (h : starts_with s p = true) : len p ≤ len s := by
  have := congrArg List.length (starts_with_iff.1 h)
  simp only [List.length_append, length_bytes, List.length_drop] at this
  omega

/-- A string continues its prefix with the rest of its bytes. -/
theorem strip_prefix_eq_some {s p : String} (h : starts_with s p = true)
    (hp : ∀ b ∈ bytes p, b.toNat < 128) :
    ∃ t, strip_prefix s p = some t ∧ bytes t = (bytes s).drop (len p) := by
  have hle := len_le_of_starts_with h
  have hascii : ∀ b ∈ (bytes s).take (len p), b.toNat < 128 := by
    rw [starts_with_iff.1 h, List.take_append_of_le_length (by simp)]
    exact fun b hb => hp b (List.mem_of_mem_take hb)
  obtain ⟨t, ht⟩ := get_range_eq_some hle (is_char_boundary_of_ascii hle hascii)
    (is_char_boundary_len s)
  refine ⟨t, ?_, ?_⟩
  · unfold strip_prefix
    rw [if_pos h, ht]
  · rw [bytes_get_range ht, List.take_of_length_le]
    simp

theorem strip_prefix_eq_none {s p : String} (h : starts_with s p = false) :
    strip_prefix s p = none := by
  unfold strip_prefix
  simp [h]

/-! ## Letter case and blanks -/

/-- `str::to_ascii_lowercase`. -/
def to_ascii_lowercase (s : String) : String := String.ofList (s.toList.map Char.toLower)

/-- `str::eq_ignore_ascii_case`. -/
def eq_ignore_ascii_case (s t : String) : Bool :=
  (bytes s).map lowercase_byte == (bytes t).map lowercase_byte

/-- Lower-casing a character lower-cases its encoding: only ASCII is affected, and
the bytes of a longer encoding are all above it. -/
theorem utf8EncodeChar_toLower (c : Char) :
    String.utf8EncodeChar c.toLower = (String.utf8EncodeChar c).map lowercase_byte := by
  have hbyte : ∀ n, 128 ≤ n → n < 256 → lowercase_byte (UInt8.ofNat n) = UInt8.ofNat n := by
    intro n h1 h2
    rw [lowercase_byte, if_neg]
    simp only [Bool.and_eq_true, decide_eq_true_eq, UInt8.le_iff_toNat_le, UInt8.toNat_ofNat']
    simp
    omega
  -- only the 128 characters of one byte can be affected, so they are enumerated
  by_cases hc : c.val.toNat < 128
  · have hall : ∀ n : Fin 128, String.utf8EncodeChar (Char.ofNat n.val).toLower
        = (String.utf8EncodeChar (Char.ofNat n.val)).map lowercase_byte := by decide
    have := hall ⟨c.val.toNat, hc⟩
    simpa using this
  · have hlow : c.toLower = c := by
      rw [Char.toLower, dif_neg]
      simp only [ge_iff_le, not_and, UInt32.le_iff_toNat_le]
      intro _ h2
      have : (90 : UInt32).toNat = 90 := rfl
      have h3 : c.val.toNat ≤ 90 := h2
      omega
    -- the character is its own lower case, and none of the bytes of its encoding is a
    -- capital letter
    rw [hlow]
    symm
    unfold String.utf8EncodeChar
    dsimp only
    rw [if_neg (by omega)]
    split_ifs <;> simp (disch := omega) only [List.map_cons, List.map_nil, hbyte]

theorem bytes_to_ascii_lowercase (s : String) :
    bytes (to_ascii_lowercase s) = (bytes s).map lowercase_byte := by
  rw [to_ascii_lowercase, bytes_ofList, bytes_eq_flatMap]
  induction s.toList with
  | nil => rfl
  | cons c cs ih =>
    rw [List.map_cons, List.flatMap_cons, List.flatMap_cons, List.map_append, ih,
      utf8EncodeChar_toLower]

/-- The characters `str::trim` removes: the Unicode property `White_Space`. -/
def is_whitespace (c : Char) : Bool :=
  let v := c.val.toNat
  (0x09 ≤ v && v ≤ 0x0d) || v == 0x20 || v == 0x85 || v == 0xa0 || v == 0x1680
    || (0x2000 ≤ v && v ≤ 0x200a) || v == 0x2028 || v == 0x2029 || v == 0x202f
    || v == 0x205f || v == 0x3000

/-- `s.trim().is_empty()`. -/
def is_blank (s : String) : Bool := s.toList.all is_whitespace

/-- A string that starts with a visible ASCII character is not blank. -/
theorem is_blank_of_head {s : String} {b : UInt8} {rest : List UInt8}
    (h : bytes s = b :: rest) (hlo : 0x20 < b.toNat) (hhi : b.toNat < 0x80) :
    is_blank s = false := by
  obtain ⟨c, cs, hs, hc⟩ := toList_of_ascii_head h hhi
  have hw : is_whitespace c = false := by
    simp only [is_whitespace, hc, Bool.or_eq_false_iff, Bool.and_eq_false_iff,
      decide_eq_false_iff_not, beq_eq_false_iff_ne]
    omega
  rw [is_blank, hs, List.all_cons, hw, Bool.false_and]

end Rust
