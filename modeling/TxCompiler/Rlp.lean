/-
Recursive length prefix (RLP), the serialisation of Ethereum.

An item is a byte string or a list of items. `encode` writes it and `decode` is a
strict reader: it accepts the shortest form of every header only and no trailing
bytes. `decode_encode` says reading undoes writing for every item whose encoding is
shorter than `2^64` bytes, which makes the encoding injective (`encode_inj`). A
signing pre-image is such an item, with its integers in the shortest big-endian form
(`uint`), and a list always starts at or above `0xc0` (`encode_list_head`), which is
what keeps it apart from a typed envelope.
-/
import TxCompiler.Numeral

set_option autoImplicit false

namespace Rlp

open Rust

/-- A string of bytes, or a list of items. -/
inductive Item where
  | bytes (bs : List UInt8)
  | list (items : List Item)
  deriving Repr

/-- An integer is the byte string of its shortest big-endian form. -/
def uint (n : ℕ) : Item := .bytes (be_min n)

/-! ## Writing -/

/-- The header of a payload of `n` bytes: one byte up to 55, and past that the length
of the length, then the length. -/
def header (offset n : ℕ) : List UInt8 :=
  if n < 56 then [UInt8.ofNat (offset + n)]
  else UInt8.ofNat (offset + 55 + (be_min n).length) :: be_min n

mutual

def encode : Item → List UInt8
  | .bytes bs =>
    match bs with
    | [b] => if b.toNat < 128 then [b] else header 128 1 ++ [b]
    | bs => header 128 bs.length ++ bs
  | .list items => header 192 (encode_all items).length ++ encode_all items

def encode_all : List Item → List UInt8
  | [] => []
  | x :: xs => encode x ++ encode_all xs

end

/-! ## Reading -/

/-- The length a header announces; `k` is its first byte less the offset. A length
that has a shorter form is refused. -/
def read_length (k : ℕ) (rest : List UInt8) : Option (ℕ × List UInt8) :=
  if k < 56 then some (k, rest)
  else
    let ds := rest.take (k - 55)
    let n := be_value ds
    if ds.length = k - 55 ∧ ds.head? ≠ some 0 ∧ 56 ≤ n then some (n, rest.drop (k - 55)) else none

/-- The first `n` bytes and the rest. -/
def split_at (n : ℕ) (bs : List UInt8) : Option (List UInt8 × List UInt8) :=
  if n ≤ bs.length then some (bs.take n, bs.drop n) else none

/-- A byte string below `0x80` has a shorter form, the byte itself. -/
def is_padded (bs : List UInt8) : Bool :=
  match bs with
  | [b] => b.toNat < 128
  | _ => false

mutual

def read_item : ℕ → List UInt8 → Option (Item × List UInt8)
  | 0, _ => none
  | _ + 1, [] => none
  | fuel + 1, b :: rest =>
    if b.toNat < 128 then some (.bytes [b], rest)
    else if b.toNat < 192 then do
      let (n, tl) ← read_length (b.toNat - 128) rest
      let (bs, tl) ← split_at n tl
      if is_padded bs then none else some (.bytes bs, tl)
    else do
      let (n, tl) ← read_length (b.toNat - 192) rest
      let (bs, tl) ← split_at n tl
      let items ← read_items fuel bs
      some (.list items, tl)

def read_items : ℕ → List UInt8 → Option (List Item)
  | _, [] => some []
  | 0, _ :: _ => none
  | fuel + 1, b :: bs => do
    let (x, rest) ← read_item fuel (b :: bs)
    let xs ← read_items fuel rest
    some (x :: xs)

end

/-- The item a byte string encodes, all of it. -/
def decode (bs : List UInt8) : Option Item :=
  match read_item (2 * bs.length) bs with
  | some (x, []) => some x
  | _ => none

/-! ## Headers -/

theorem header_of_lt {offset n : ℕ} (h : n < 56) : header offset n = [UInt8.ofNat (offset + n)] :=
  if_pos h

theorem header_of_ge {offset n : ℕ} (h : 56 ≤ n) :
    header offset n = UInt8.ofNat (offset + 55 + (be_min n).length) :: be_min n :=
  if_neg (by omega)

theorem length_be_min_pos {n : ℕ} (h : n ≠ 0) : 0 < (be_min n).length := by
  rw [List.length_pos_iff]
  intro hnil
  apply h
  rw [← be_value_be_min n, hnil, be_value_nil]

/-- A header is read back as the length it announces. -/
theorem read_header {offset n : ℕ} (hoff : offset + 64 ≤ 256) (hn : n < 2 ^ 64)
    (tl : List UInt8) : ∃ b rest, header offset n ++ tl = b :: rest ∧ offset ≤ b.toNat ∧
      b.toNat < offset + 64 ∧ read_length (b.toNat - offset) rest = some (n, tl) := by
  rcases Nat.lt_or_ge n 56 with h | h
  · -- the length sits in the first byte
    have hb : (UInt8.ofNat (offset + n)).toNat = offset + n := by
      rw [UInt8.toNat_ofNat']; omega
    refine ⟨UInt8.ofNat (offset + n), tl, by rw [header_of_lt h, List.singleton_append],
      by omega, by omega, ?_⟩
    rw [hb, Nat.add_sub_cancel_left, read_length, if_pos h]
  · -- a long header announces its length in at most eight bytes, and the reader takes as
    -- many as the first byte says
    have hle : (be_min n).length ≤ 8 := length_be_min_le (k := 8) (by norm_num at hn ⊢; exact hn)
    have hpos := length_be_min_pos (n := n) (by omega)
    have hb : (UInt8.ofNat (offset + 55 + (be_min n).length)).toNat
        = offset + 55 + (be_min n).length := by
      rw [UInt8.toNat_ofNat']; omega
    refine ⟨_, be_min n ++ tl, by rw [header_of_ge h, List.cons_append], by omega, by omega, ?_⟩
    rw [hb, show offset + 55 + (be_min n).length - offset = (be_min n).length + 55 by omega,
      read_length, if_neg (by omega)]
    have htake : (be_min n ++ tl).take ((be_min n).length + 55 - 55) = be_min n := by
      rw [Nat.add_sub_cancel, List.take_left']
      rfl
    have hdrop : (be_min n ++ tl).drop ((be_min n).length + 55 - 55) = tl := by
      rw [Nat.add_sub_cancel, List.drop_left']
      rfl
    simp only [htake, hdrop, be_value_be_min]
    rw [if_pos ⟨by omega, be_min_head_ne_zero n, h⟩]

theorem length_header_pos (offset n : ℕ) : 0 < (header offset n).length := by
  rcases Nat.lt_or_ge n 56 with h | h
  · rw [header_of_lt h]; simp
  · rw [header_of_ge h]; simp

theorem split_at_append (bs tl : List UInt8) : split_at bs.length (bs ++ tl) = some (bs, tl) := by
  rw [split_at, if_pos (by simp)]
  simp

/-- A byte string that is not its own encoding has a header. -/
theorem encode_bytes {bs : List UInt8} (h : is_padded bs = false) :
    encode (.bytes bs) = header 128 bs.length ++ bs := by
  -- only the one-byte string has two candidate encodings
  rcases bs with _ | ⟨b, _ | ⟨c, bs⟩⟩
  · simp [encode]
  · have hb : ¬ b.toNat < 128 := by simpa [is_padded] using h
    simp only [encode]
    rw [if_neg hb]
    rfl
  · simp [encode]

theorem encode_byte {b : UInt8} (h : b.toNat < 128) : encode (.bytes [b]) = [b] := by
  simp only [encode]
  rw [if_pos h]

theorem length_encode_pos (x : Item) : 0 < (encode x).length := by
  cases x with
  | bytes bs =>
    -- a small byte is its own encoding, everything else has a header
    by_cases h : is_padded bs = true
    · obtain ⟨b, rfl, hb⟩ : ∃ b, bs = [b] ∧ b.toNat < 128 := by
        rcases bs with _ | ⟨b, _ | ⟨c, bs⟩⟩ <;> simp_all [is_padded]
      rw [encode_byte hb]
      simp
    · have := length_header_pos 128 bs.length
      rw [encode_bytes (by simpa using h), List.length_append]
      omega
  | list items =>
    have := length_header_pos 192 (encode_all items).length
    rw [encode, List.length_append]
    omega

/-- A list starts at or above `0xc0`. -/
theorem encode_list_head {items : List Item} (h : (encode (.list items)).length < 2 ^ 64) :
    ∃ b rest, encode (.list items) = b :: rest ∧ 192 ≤ b.toNat := by
  rw [encode, List.length_append] at h
  obtain ⟨b, rest, heq, hb, -, -⟩ :=
    @read_header 192 (encode_all items).length (by decide) (by omega) (encode_all items)
  exact ⟨b, rest, by rw [encode, heq], hb⟩

/-! ## Reading undoes writing -/

mutual

/-- One item. The fuel is twice the length of the encoding: a list spends one unit on
its header, and each of its items one on being reached. -/
theorem read_item_encode : ∀ (x : Item) (fuel : ℕ) (tl : List UInt8),
    (encode x).length < 2 ^ 64 → 2 * (encode x).length ≤ fuel + 1 →
    read_item fuel (encode x ++ tl) = some (x, tl)
  | .bytes bs, fuel, tl, hlen, hfuel => by
    have hpos := length_encode_pos (.bytes bs)
    obtain ⟨fuel, rfl⟩ : ∃ k, fuel = k + 1 := ⟨fuel - 1, by omega⟩
    by_cases h : is_padded bs = true
    · obtain ⟨b, rfl, hb⟩ : ∃ b, bs = [b] ∧ b.toNat < 128 := by
        rcases bs with _ | ⟨b, _ | ⟨c, bs⟩⟩ <;> simp_all [is_padded]
      rw [encode_byte hb, List.singleton_append, read_item, if_pos hb]
    · have hpad : is_padded bs = false := by simpa using h
      rw [encode_bytes hpad, List.length_append] at hlen
      obtain ⟨b, rest, heq, h1, h2, hread⟩ :=
        @read_header 128 bs.length (by decide) (by omega) (bs ++ tl)
      rw [encode_bytes hpad, List.append_assoc, heq, read_item, if_neg (by omega),
        if_pos (by omega), hread]
      simp [split_at_append, hpad]
  | .list items, fuel, tl, hlen, hfuel => by
    have hpos := length_header_pos 192 (encode_all items).length
    rw [encode, List.length_append] at hlen hfuel
    obtain ⟨fuel, rfl⟩ : ∃ k, fuel = k + 1 := ⟨fuel - 1, by omega⟩
    obtain ⟨b, rest, heq, h1, h2, hread⟩ :=
      @read_header 192 (encode_all items).length (by decide) (by omega)
        (encode_all items ++ tl)
    rw [encode, List.append_assoc, heq, read_item, if_neg (by omega), if_neg (by omega), hread]
    simp [split_at_append, read_items_encode items fuel (by omega) (by omega)]

theorem read_items_encode : ∀ (xs : List Item) (fuel : ℕ),
    (encode_all xs).length < 2 ^ 64 → 2 * (encode_all xs).length ≤ fuel →
    read_items fuel (encode_all xs) = some xs
  | [], fuel, _, _ => by simp [encode_all, read_items]
  | x :: xs, fuel, hlen, hfuel => by
    have hpos := length_encode_pos x
    rw [encode_all, List.length_append] at hlen hfuel
    obtain ⟨fuel, rfl⟩ : ∃ k, fuel = k + 1 := ⟨fuel - 1, by omega⟩
    have hx := read_item_encode x fuel (encode_all xs) (by omega) (by omega)
    have hxs := read_items_encode xs fuel (by omega) (by omega)
    rw [encode_all]
    -- the reader looks at the first byte, and an item is never empty
    cases hw : encode x ++ encode_all xs with
    | nil =>
      have := congrArg List.length hw
      simp only [List.length_append, List.length_nil] at this
      omega
    | cons b bs =>
      rw [hw] at hx
      rw [read_items, hx]
      simp [hxs]

end

/-- **Reading undoes writing.** -/
theorem decode_encode {x : Item} (h : (encode x).length < 2 ^ 64) : decode (encode x) = some x := by
  have hread := read_item_encode x (2 * (encode x).length) [] h (by omega)
  rw [List.append_nil] at hread
  rw [decode, hread]

theorem encode_inj {x y : Item} (hx : (encode x).length < 2 ^ 64)
    (hy : (encode y).length < 2 ^ 64) (h : encode x = encode y) : x = y := by
  have hd := decode_encode hx
  rw [h, decode_encode hy] at hd
  exact (Option.some.inj hd).symm

theorem uint_inj {m n : ℕ} (h : uint m = uint n) : m = n := be_min_inj (Item.bytes.inj h)

/-! ## Sizes -/

theorem length_header_le {offset n : ℕ} (h : n < 2 ^ 64) : (header offset n).length ≤ 9 := by
  rcases Nat.lt_or_ge n 56 with h' | h'
  · rw [header_of_lt h']; simp
  · have := length_be_min_le (n := n) (k := 8) (by norm_num at h ⊢; exact h)
    rw [header_of_ge h', List.length_cons]
    omega

theorem length_encode_bytes_le {bs : List UInt8} (h : bs.length < 2 ^ 64) :
    (encode (.bytes bs)).length ≤ 9 + bs.length := by
  by_cases hpad : is_padded bs = true
  · obtain ⟨b, rfl, hb⟩ : ∃ b, bs = [b] ∧ b.toNat < 128 := by
      rcases bs with _ | ⟨b, _ | ⟨c, bs⟩⟩ <;> simp_all [is_padded]
    rw [encode_byte hb]
    simp
  · have := @length_header_le 128 _ h
    rw [encode_bytes (by simpa using hpad), List.length_append]
    omega

theorem length_encode_uint_le {n k : ℕ} (hk : k < 2 ^ 63) (h : n < 256 ^ k) :
    (encode (uint n)).length ≤ 9 + k := by
  have hmin := length_be_min_le h
  have := @length_encode_bytes_le (be_min n) (by omega)
  rw [uint]
  omega

/-- A list of at most `k` items of at most `n` bytes. -/
theorem length_encode_list_le {items : List Item} {n k : ℕ}
    (h : ∀ x ∈ items, (encode x).length ≤ n) (hk : items.length ≤ k) (hsmall : n * k < 2 ^ 64) :
    (encode (.list items)).length ≤ 9 + n * k := by
  -- the payload, by induction on the items; the bounds on their number come back afterwards
  have hall : (encode_all items).length ≤ n * items.length := by
    clear hk hsmall
    induction items with
    | nil => simp [encode_all]
    | cons x xs ih =>
      have hx := h x (List.mem_cons_self ..)
      have hxs := ih fun y hy => h y (List.mem_cons_of_mem _ hy)
      rw [encode_all, List.length_append, List.length_cons, Nat.mul_succ]
      omega
  have hmul : n * items.length ≤ n * k := Nat.mul_le_mul_left n hk
  have := @length_header_le 192 (encode_all items).length (by omega)
  rw [encode, List.length_append]
  omega

theorem length_encode_all (items : List Item) :
    (encode_all items).length = (items.map fun x => (encode x).length).sum := by
  induction items with
  | nil => simp [encode_all]
  | cons x xs ih => rw [encode_all, List.length_append, ih, List.map_cons, List.sum_cons]

/-- A list is as long as its items and a header, however unequal the items are. -/
theorem length_encode_list_le_sum {items : List Item} {n : ℕ}
    (h : (items.map fun x => (encode x).length).sum ≤ n) (hn : n < 2 ^ 64) :
    (encode (.list items)).length ≤ 9 + n := by
  rw [← length_encode_all] at h
  have := @length_header_le 192 (encode_all items).length (by omega)
  rw [encode, List.length_append]
  omega

/-! The same for short payloads, where the header is counted exactly -/

theorem length_header_of_lt {offset n : ℕ} (h : n < 56) : (header offset n).length = 1 := by
  rw [header_of_lt h, List.length_singleton]

/-- A long header is one byte and the length it announces. -/
theorem length_header_le_of_lt {offset n k : ℕ} (hk : 0 < k) (h : n < 256 ^ k) :
    (header offset n).length ≤ 1 + k := by
  rcases Nat.lt_or_ge n 56 with h' | h'
  · rw [length_header_of_lt h']
    omega
  · have := length_be_min_le h
    rw [header_of_ge h', List.length_cons]
    omega

theorem length_encode_bytes_le_header (bs : List UInt8) :
    (encode (.bytes bs)).length ≤ (header 128 bs.length).length + bs.length := by
  by_cases hpad : is_padded bs = true
  · obtain ⟨b, rfl, hb⟩ : ∃ b, bs = [b] ∧ b.toNat < 128 := by
      rcases bs with _ | ⟨b, _ | ⟨c, bs⟩⟩ <;> simp_all [is_padded]
    rw [encode_byte hb, List.length_singleton]
    omega
  · rw [encode_bytes (by simpa using hpad), List.length_append]

theorem length_encode_bytes_of_lt {bs : List UInt8} (h : bs.length < 56) :
    (encode (.bytes bs)).length ≤ 1 + bs.length := by
  have := length_encode_bytes_le_header bs
  rwa [length_header_of_lt h] at this

theorem length_encode_uint_of_lt {n k : ℕ} (hk : k < 56) (h : n < 256 ^ k) :
    (encode (uint n)).length ≤ 1 + k := by
  have hmin := length_be_min_le h
  have := @length_encode_bytes_of_lt (be_min n) (by omega)
  rw [uint]
  omega

end Rlp
