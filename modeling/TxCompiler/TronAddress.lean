/-
`tron_address.rs`: decoding a Tron address, in its hexadecimal or its base58check
spelling.

The file itself says that every return path produces twenty-one bytes led by `0x41`,
and that callers depend on it. `tron_address_to_bytes_spec` is that statement, as a
triple: it also says that no input panics, which here is the question of whether
`unprefixed[2..]` can fall inside a character. It cannot, because the two bytes before
it have just been compared with ASCII digits (`strip_hex_prefix_eq`); the length check
alone would not be enough.
-/
import TxCompiler.Crates

set_option autoImplicit false

namespace TxCompiler

open Rust

/-- A prefix and the twenty bytes of an account. -/
def TRON_ADDRESS_LEN : ℕ := 21

/-- The prefix of the main network. -/
def TRON_ADDRESS_PREFIX : UInt8 := 0x41

/-- The one error of this file, whatever is wrong with the address. -/
def invalid_address (address : String) : TxCompilerError :=
  .with_details .InvalidAddress "Invalid Tron address format" [("address", .string address)]

/-- `bs[0]` is read only behind the length check, as `||` short-circuits. -/
def enforce_shape (bs : List UInt8) (address : String) : Run Unit :=
  if bs.length ≠ TRON_ADDRESS_LEN then fail (invalid_address address)
  else do
    let first ← index bs 0
    reject_if (first ≠ TRON_ADDRESS_PREFIX) (invalid_address address)

/-- `s.strip_prefix("0x").unwrap_or(s)`, the expression four functions of the crate share. -/
def strip_0x (s : String) : String := strip_prefix s "0x" |>.getD s

/-- The hexadecimal payload, when `address` matches `^(0x)?41[0-9a-fA-F]{40}$`. -/
def strip_hex_prefix (address : String) : Run (Option String) :=
  let unprefixed := strip_0x address
  if len unprefixed ≠ 42 then .ok none
  else do
    let b0 ← index (bytes unprefixed) 0
    if b0 ≠ 0x34 then .ok none
    else do
      let b1 ← index (bytes unprefixed) 1
      if b1 ≠ 0x31 then .ok none
      else do
        let rest ← str_slice_from unprefixed 2
        .ok (if (bytes rest).all is_ascii_hexdigit then some unprefixed else none)

/-- An address in one of its three texts: hexadecimal, hexadecimal behind `0x`, base58check. -/
def tron_address_to_bytes (cr : Crates) (address : String) : Run (List UInt8) := do
  -- a text of the hexadecimal shape is never tried as base58check, not even when its
  -- decoding fails
  match ← strip_hex_prefix address with
  | some stripped =>
    let bs ← ok_or (cr.hex_decode stripped) (invalid_address address)
    enforce_shape bs address
    .ok bs
  | none =>
    if starts_with address "T" ∧ len address = 34 then do
      let bs ← ok_or (cr.bs58_decode_check address) (invalid_address address)
      enforce_shape bs address
      .ok bs
    else fail (invalid_address address)

/-! ## The `0x` prefix -/

theorem bytes_0x : bytes "0x" = [0x30, 0x78] := by decide

theorem strip_0x_of_starts_with {s : String} {rest : List UInt8}
    (h : bytes s = 0x30 :: 0x78 :: rest) : bytes (strip_0x s) = rest := by
  have hs : starts_with s "0x" = true := by
    rw [starts_with_iff, ← length_bytes, bytes_0x, h]
    rfl
  obtain ⟨t, ht, hbytes⟩ := strip_prefix_eq_some hs (by rw [bytes_0x]; simp)
  rw [strip_0x, ht, Option.getD_some, hbytes, ← length_bytes, bytes_0x, h]
  rfl

theorem strip_0x_of_not_starts_with {s : String} (h : ∀ rest, bytes s ≠ 0x30 :: 0x78 :: rest) :
    strip_0x s = s := by
  have hs : starts_with s "0x" = false := by
    rw [Bool.eq_false_iff, Ne, starts_with_iff, bytes_0x]
    exact h _
  rw [strip_0x, strip_prefix_eq_none hs, Option.getD_none]

/-- What is left of a string behind an optional `0x`. -/
theorem bytes_strip_0x (s : String) :
    bytes s = 0x30 :: 0x78 :: bytes (strip_0x s) ∨ strip_0x s = s := by
  by_cases h : ∃ rest, bytes s = 0x30 :: 0x78 :: rest
  · obtain ⟨rest, hrest⟩ := h
    exact .inl (by rw [strip_0x_of_starts_with hrest, hrest])
  · exact .inr (strip_0x_of_not_starts_with fun rest hrest => h ⟨rest, hrest⟩)

/-- Text that decodes is what is left behind an optional `0x`: its digits do not start
with one themselves. -/
theorem strip_0x_of_decode {s : String} {ds bs : List UInt8}
    (hs : bytes s = ds ∨ bytes s = bytes "0x" ++ ds) (hdec : Hex.decode ds = some bs) :
    bytes (strip_0x s) = ds := by
  rcases hs with rfl | hs
  · rw [strip_0x_of_not_starts_with]
    intro rest hrest
    -- the `x` of a second prefix would have to be a hexadecimal digit
    have hx := Hex.hexdigits_of_decode hdec 0x78 (by rw [hrest]; simp)
    exact absurd hx (by decide)
  · rw [bytes_0x] at hs
    exact strip_0x_of_starts_with hs

/-- Hexadecimal text is decoded from behind an optional `0x`. -/
theorem decode_strip_0x {s : String} {bs : List UInt8} :
    Hex.decode (bytes (strip_0x s)) = some bs ↔
      ∃ ds, (bytes s = ds ∨ bytes s = bytes "0x" ++ ds) ∧ Hex.decode ds = some bs := by
  constructor
  · intro hdec
    refine ⟨_, ?_, hdec⟩
    rcases bytes_strip_0x s with h | h
    · exact .inr (by rw [bytes_0x]; exact h)
    · exact .inl (by rw [h])
  · rintro ⟨ds, hs, hdec⟩
    rw [strip_0x_of_decode hs hdec, hdec]

/-! ## The hexadecimal form -/

/-- `41` and forty hexadecimal digits. -/
def IsTronHex (u : String) : Prop :=
  ∃ ds, bytes u = 0x34 :: 0x31 :: ds ∧ ds.length = 40 ∧ ∀ b ∈ ds, is_ascii_hexdigit b = true

/-- `strip_hex_prefix` never panics, and its answer is decided by the shape. -/
theorem strip_hex_prefix_eq (address : String) :
    (IsTronHex (strip_0x address) ∧ strip_hex_prefix address = .ok (some (strip_0x address))) ∨
      (¬ IsTronHex (strip_0x address) ∧ strip_hex_prefix address = .ok none) := by
  unfold strip_hex_prefix
  dsimp only
  -- only the text behind the prefix is looked at
  generalize strip_0x address = u
  -- one case for each check of the source, in its order
  by_cases hlen : len u = 42
  · rw [if_neg (by simpa using hlen)]
    have hlb : (bytes u).length = 42 := by rw [length_bytes, hlen]
    rw [index_of_lt (by omega), ok_bind]
    by_cases h0 : (bytes u)[0] = 0x34
    · rw [if_neg (by simpa using h0), index_of_lt (by omega), ok_bind]
      by_cases h1 : (bytes u)[1] = 0x31
      · rw [if_neg (by simpa using h1)]
        have hsplit : bytes u = 0x34 :: 0x31 :: (bytes u).drop 2 := by
          conv_lhs => rw [← List.drop_zero (l := bytes u), List.drop_eq_getElem_cons (by omega),
            List.drop_eq_getElem_cons (by omega)]
          rw [h0, h1]
        -- the slice starts behind the two ASCII bytes just compared
        obtain ⟨rest, hrest, hb⟩ := @str_slice_from_of_ascii TxCompilerError u 2 (by omega) (by
          rw [hsplit]
          intro b hb
          simp only [List.take_succ_cons, List.take_zero, List.mem_cons, List.not_mem_nil,
            or_false] at hb
          rcases hb with rfl | rfl <;> decide)
        rw [hrest, ok_bind, hb]
        by_cases hall : ((bytes u).drop 2).all is_ascii_hexdigit = true
        · rw [if_pos hall]
          refine .inl ⟨⟨(bytes u).drop 2, hsplit, ?_, List.all_eq_true.1 hall⟩, rfl⟩
          rw [List.length_drop, hlb]
        · rw [if_neg hall]
          refine .inr ⟨?_, rfl⟩
          rintro ⟨ds, hds, -, hhex⟩
          rw [hds] at hall
          exact hall (List.all_eq_true.2 hhex)
      · rw [if_pos h1]
        refine .inr ⟨?_, rfl⟩
        rintro ⟨ds, hds, -⟩
        simp [hds] at h1
    · rw [if_pos h0]
      refine .inr ⟨?_, rfl⟩
      rintro ⟨ds, hds, -⟩
      simp [hds] at h0
  · rw [if_pos hlen]
    refine .inr ⟨?_, rfl⟩
    rintro ⟨ds, hds, h40, -⟩
    apply hlen
    rw [← length_bytes, hds]
    simp [h40]

/-! ## The shape every address has -/

/-- Twenty-one bytes led by `0x41`. -/
def IsTronBytes (bs : List UInt8) : Prop := bs.length = 21 ∧ bs.head? = some 0x41

theorem enforce_shape_spec (bs : List UInt8) (address : String) :
    Post (enforce_shape bs address) fun _ => IsTronBytes bs := by
  unfold enforce_shape
  by_cases hlen : bs.length = 21
  · rw [if_neg (by simpa [TRON_ADDRESS_LEN] using hlen), index_of_lt (by omega), ok_bind]
    refine Post.reject_if.mono fun _ h => ⟨hlen, ?_⟩
    rw [List.head?_eq_getElem?, List.getElem?_eq_getElem (by omega)]
    exact congrArg some (not_not.1 h)
  · rw [if_pos (by simpa [TRON_ADDRESS_LEN] using hlen)]
    exact Post.err

theorem enforce_shape_of_shape {bs : List UInt8} (h : IsTronBytes bs) (address : String) :
    enforce_shape bs address = .ok () := by
  obtain ⟨hlen, hhead⟩ := h
  rw [List.head?_eq_getElem?, List.getElem?_eq_getElem (by omega)] at hhead
  rw [enforce_shape, if_neg (by simpa [TRON_ADDRESS_LEN] using hlen), index_of_lt (by omega),
    ok_bind]
  exact reject_if_of_not (by simpa [TRON_ADDRESS_PREFIX] using hhead)

/-- **Every address decodes to twenty-one bytes led by `0x41`**, and no input panics. -/
theorem tron_address_to_bytes_spec (cr : Crates) (address : String) :
    Post (tron_address_to_bytes cr address) IsTronBytes := by
  -- both branches end in the same three lines, whichever decoder `o` comes from
  have tail : ∀ o : Option (List UInt8), Post (do
      let bs ← ok_or o (invalid_address address)
      enforce_shape bs address
      .ok bs) IsTronBytes := fun o =>
    Post.bind (Post.ok_or fun _ h => h) fun bs _ =>
      Post.bind (enforce_shape_spec bs address) fun _ h => h
  unfold tron_address_to_bytes
  rcases strip_hex_prefix_eq address with ⟨-, h⟩ | ⟨-, h⟩ <;> rw [h, ok_bind]
  · exact tail _
  · dsimp only
    split
    · exact tail _
    · exact Post.err

/-- On the hexadecimal form the result is the decoded payload. -/
theorem tron_address_to_bytes_hex {cr : Crates} {address : String} {bs : List UInt8}
    (hform : IsTronHex (strip_0x address)) (hdec : cr.hex_decode (strip_0x address) = some bs)
    (hshape : IsTronBytes bs) : tron_address_to_bytes cr address = .ok bs := by
  unfold tron_address_to_bytes
  rcases strip_hex_prefix_eq address with ⟨-, h⟩ | ⟨hn, -⟩
  · rw [h, ok_bind]
    dsimp only
    rw [hdec, ok_or_some, ok_bind, enforce_shape_of_shape hshape, ok_bind]
  · exact absurd hform hn

/-! ## The two spellings -/

/-- The spellings of the address with the bytes `bs`: hexadecimal digits of either case
behind an optional `0x`, or thirty-four base58check characters led by `T`. -/
def SpellsTron (cr : Crates) (address : String) (bs : List UInt8) : Prop :=
  IsTronBytes bs ∧
    ((∃ ds, (bytes address = ds ∨ bytes address = bytes "0x" ++ ds) ∧ Hex.decode ds = some bs) ∨
      ((bytes address).head? = some 0x54 ∧ len address = 34 ∧
        cr.bs58_decode_check address = some bs))

/-- Only the digits `41` decode to `0x41`, so the shape of the bytes is the shape of the text. -/
theorem isTronHex_of_decode {u : String} {bs : List UInt8}
    (hdec : Hex.decode (bytes u) = some bs) (hshape : IsTronBytes bs) : IsTronHex u := by
  have hlen := Hex.length_of_decode hdec
  have hhex := Hex.hexdigits_of_decode hdec
  obtain ⟨h21, hhead⟩ := hshape
  match hu : bytes u with
  | [] => rw [hu, h21] at hlen; simp at hlen
  | [_] => rw [hu, h21] at hlen; simp at hlen
  | hi :: lo :: rest =>
    rw [hu] at hdec hlen hhex
    obtain ⟨hhi, hlo, tl, -, rfl⟩ := Hex.decode_cons.1 hdec
    -- the first pair of digits is the first byte, and `0x41` is `16 * 4 + 1`
    have hbyte := congrArg UInt8.toNat (Option.some.inj hhead)
    have h1 := digit_value_lt_sixteen hhi
    have h2 := digit_value_lt_sixteen hlo
    have h41 : (0x41 : UInt8).toNat = 65 := rfl
    rw [UInt8.toNat_ofNat', h41] at hbyte
    have hvhi : digit_value hi = 4 := by omega
    have hvlo : digit_value lo = 1 := by omega
    -- a value below ten is spelt by its decimal digit only
    have hdigit : ∀ {b : UInt8}, is_ascii_hexdigit b = true → digit_value b < 10 →
        b.toNat = 48 + digit_value b := by
      intro b hb hv
      rw [is_ascii_hexdigit_iff] at hb
      rw [digit_value_eq] at hv ⊢
      split_ifs at hv ⊢ <;> omega
    have h4 : hi = 0x34 := by
      rw [← UInt8.toNat_inj, hdigit hhi (by omega), hvhi]
      rfl
    have h1 : lo = 0x31 := by
      rw [← UInt8.toNat_inj, hdigit hlo (by omega), hvlo]
      rfl
    refine ⟨rest, by rw [hu, h4, h1], ?_, fun b hb => hhex b (by simp [hb])⟩
    simp only [List.length_cons] at hlen h21
    omega

/-- **Decoding accepts the two spellings and nothing else.** -/
theorem tron_address_to_bytes_eq_ok {cr : Crates} (hcr : HexLaws cr) {address : String}
    {bs : List UInt8} :
    tron_address_to_bytes cr address = .ok bs ↔ SpellsTron cr address bs := by
  constructor
  · intro h
    refine ⟨(tron_address_to_bytes_spec cr address).of_eq_ok h, ?_⟩
    unfold tron_address_to_bytes at h
    -- the branch that was taken is the spelling that was used
    rcases strip_hex_prefix_eq address with ⟨-, heq⟩ | ⟨-, heq⟩
    · rw [heq, ok_bind] at h
      simp only [bind_eq_ok, ok_or_eq_ok, Except.ok.injEq, hcr.decode] at h
      obtain ⟨bs', hdec, -, -, rfl⟩ := h
      exact .inl (decode_strip_0x.1 hdec)
    · rw [heq, ok_bind] at h
      dsimp only at h
      split at h
      · next hT =>
        simp only [bind_eq_ok, ok_or_eq_ok, Except.ok.injEq] at h
        obtain ⟨bs', hdec, -, -, rfl⟩ := h
        have hhead : bytes address = 0x54 :: (bytes address).drop 1 := starts_with_iff.1 hT.1
        exact .inr ⟨by rw [hhead]; rfl, hT.2, hdec⟩
      · simp at h
  · rintro ⟨hshape, ⟨ds, hs, hdec⟩ | ⟨hhead, hlen, hdec⟩⟩
    · rw [← strip_0x_of_decode hs hdec] at hdec
      exact tron_address_to_bytes_hex (isTronHex_of_decode hdec hshape)
        (by rw [hcr.decode, hdec]) hshape
    · obtain ⟨tl, htl⟩ : ∃ tl, bytes address = 0x54 :: tl := by
        cases hb : bytes address with
        | nil => rw [hb] at hhead; simp at hhead
        | cons b tl => rw [hb] at hhead; exact ⟨tl, by rw [Option.some.inj hhead]⟩
      unfold tron_address_to_bytes
      rcases strip_hex_prefix_eq address with ⟨⟨ds, hds, -⟩, -⟩ | ⟨-, heq⟩
      · -- a text that starts with `T` is not of the hexadecimal shape, with or without `0x`
        exfalso
        rcases bytes_strip_0x address with h0 | h0
        · rw [htl] at h0; simp at h0
        · rw [h0, htl] at hds; simp at hds
      · have hT : starts_with address "T" = true := by
          rw [starts_with_iff, htl]
          rfl
        rw [heq, ok_bind]
        dsimp only
        rw [if_pos ⟨hT, hlen⟩, hdec, ok_or_some, ok_bind, enforce_shape_of_shape hshape, ok_bind]

/-- The bytes an address spells, found by its first letter: no hexadecimal digit is a `T`. -/
def tron_bytes (cr : Crates) (address : String) : Option (List UInt8) :=
  let bs :=
    if (bytes address).head? = some 0x54 then
      if len address = 34 then cr.bs58_decode_check address else none
    else Hex.decode (bytes (strip_0x address))
  bs.filter fun bs => bs.length = 21 ∧ bs.head? = some 0x41

/-- Text that starts with a `T` is not hexadecimal, with or without `0x`. -/
theorem not_hex_of_head {s : String} {ds bs : List UInt8} (hT : (bytes s).head? = some 0x54)
    (hs : bytes s = ds ∨ bytes s = bytes "0x" ++ ds) : Hex.decode ds ≠ some bs := by
  intro hdec
  rcases hs with rfl | hs
  · obtain ⟨tl, htl⟩ := List.head?_eq_some_iff.1 hT
    have hdigit := Hex.hexdigits_of_decode hdec 0x54 (by rw [htl]; simp)
    exact absurd hdigit (by decide)
  · rw [hs, bytes_0x] at hT
    simp at hT

/-- **`tron_bytes` computes what an address spells.** -/
theorem tron_bytes_eq_some {cr : Crates} {address : String} {bs : List UInt8} :
    tron_bytes cr address = some bs ↔ SpellsTron cr address bs := by
  unfold tron_bytes SpellsTron IsTronBytes
  dsimp only
  rw [Option.filter_eq_some_iff, decide_eq_true_eq, and_comm]
  refine and_congr_right fun _ => ?_
  by_cases hT : (bytes address).head? = some 0x54
  · rw [if_pos hT]
    constructor
    · intro h
      by_cases hlen : len address = 34
      · rw [if_pos hlen] at h
        exact .inr ⟨hT, hlen, h⟩
      · rw [if_neg hlen] at h
        cases h
    · rintro (⟨ds, hs, hdec⟩ | ⟨-, hlen, h⟩)
      · exact absurd hdec (not_hex_of_head hT hs)
      · rw [if_pos hlen, h]
  · rw [if_neg hT, decode_strip_0x]
    exact ⟨.inl, fun h => h.resolve_right fun h' => hT h'.1⟩

theorem SpellsTron.unique {cr : Crates} {address : String} {bs bs' : List UInt8}
    (h : SpellsTron cr address bs) (h' : SpellsTron cr address bs') : bs = bs' :=
  Option.some.inj ((tron_bytes_eq_some.2 h).symm.trans (tron_bytes_eq_some.2 h'))

/-- An accepted address starts with a visible character. -/
theorem tron_address_not_blank {cr : Crates} {address : String} {bs : List UInt8}
    (h : tron_address_to_bytes cr address = .ok bs) : is_blank address = false := by
  unfold tron_address_to_bytes at h
  -- the first character is `0` or `4` in the hexadecimal form, `T` in the other
  rcases strip_hex_prefix_eq address with ⟨⟨ds, hds, -⟩, -⟩ | ⟨-, heq⟩
  · rcases bytes_strip_0x address with h0 | h0
    · exact is_blank_of_head h0 (by decide) (by decide)
    · rw [h0] at hds
      exact is_blank_of_head hds (by decide) (by decide)
  · rw [heq, ok_bind] at h
    dsimp only at h
    split at h
    · next hT =>
      have hb : bytes address = 0x54 :: (bytes address).drop 1 := starts_with_iff.1 hT.1
      exact is_blank_of_head hb (by decide) (by decide)
    · simp at h

end TxCompiler
