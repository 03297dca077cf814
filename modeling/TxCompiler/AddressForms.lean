/-
**Which strings are Tron addresses.** The decoder accepts the hexadecimal form and the
base58check texts of twenty-one bytes led by `0x41`, and nothing else (`accepted_iff`).

Base58check text is decoded only behind a guard, a leading `T` and a length of thirty-four,
that the format does not have. The guard loses no address (`guard_of_base58check`): with its
checksum an address is twenty-five bytes led by `0x41`, and every such number is at least
`26 * 58 ^ 33` and below `27 * 58 ^ 33`. That holds of any hash function, so nothing is
assumed of the one that makes the checksum.

The two forms do not meet, and neither meets the form of an EVM address, which is `0x` and
forty digits: with a prefix the hexadecimal form is two bytes longer, and without one it
starts with a `4`.
-/
import TxCompiler.Calldata
import TxCompiler.Reference

set_option autoImplicit false

namespace TxCompiler

open Rust

/-! ## The hexadecimal form -/

/-- `^(0x)?41[0-9a-fA-F]{40}$`, where `ds` is what the prefix is optional in front of. -/
def MatchesHexForm (s : String) (ds : List UInt8) : Prop :=
  (bytes s = ds ∨ bytes s = bytes "0x" ++ ds) ∧ ∃ rest, ds = 0x34 :: 0x31 :: rest ∧
    rest.length = 40 ∧ ∀ b ∈ rest, is_ascii_hexdigit b = true

theorem MatchesHexForm.decodes {s : String} {ds : List UInt8} (h : MatchesHexForm s ds) :
    ∃ bs, Hex.decode ds = some bs ∧ IsTronBytes bs := by
  obtain ⟨-, rest, rfl, h40, hhex⟩ := h
  obtain ⟨tl, htl⟩ := Hex.decode_of_hexdigits (k := 20) h40 hhex
  have hlen := Hex.length_of_decode htl
  refine ⟨0x41 :: tl, Hex.decode_cons.2 ⟨by decide, by decide, tl, htl, rfl⟩, ?_, rfl⟩
  rw [List.length_cons]
  omega

theorem MatchesHexForm.of_decode {s : String} {ds bs : List UInt8}
    (hs : bytes s = ds ∨ bytes s = bytes "0x" ++ ds) (hdec : Hex.decode ds = some bs)
    (hshape : IsTronBytes bs) : MatchesHexForm s ds := by
  have hstrip := strip_0x_of_decode hs hdec
  rw [← hstrip] at hdec
  obtain ⟨rest, hrest, h40, hhex⟩ := isTronHex_of_decode hdec hshape
  exact ⟨hs, rest, by rw [← hstrip, hrest], h40, hhex⟩

theorem MatchesHexForm.length {s : String} {ds : List UInt8} (h : MatchesHexForm s ds) :
    ds.length = 42 := by
  obtain ⟨-, rest, rfl, h40, -⟩ := h
  rw [List.length_cons, List.length_cons, h40]

/-! ## The base58check form -/

/-- Twenty-five bytes led by `0x41`, as a number. -/
theorem be_value_address {tl : List UInt8} (h : tl.length = 24) :
    be_value (0x41 :: tl) = 65 * 256 ^ 24 + be_value tl := by
  have hvalue := be_value_append [0x41] tl
  rw [h] at hvalue
  exact hvalue

/-- **The guard loses no address**, whatever the checksum is. -/
theorem guard_of_base58check {sum : List UInt8 → FixedBytes 4} {s : String}
    {payload : List UInt8} (h : Base58.decode_check sum s = some payload)
    (hshape : IsTronBytes payload) : (bytes s).head? = some 0x54 ∧ len s = 34 := by
  obtain ⟨h21, hhead⟩ := hshape
  obtain ⟨tl, rfl⟩ := List.head?_eq_some_iff.1 hhead
  rw [Base58.decode_check_eq_some, Base58.encode_check, List.cons_append] at h
  have h24 : (tl ++ (sum (0x41 :: tl)).val).length = 24 := by
    rw [List.length_cons] at h21
    rw [List.length_append, (sum (0x41 :: tl)).property]
    omega
  generalize tl ++ (sum (0x41 :: tl)).val = low at h h24
  have hlow := be_value_lt low
  have hvalue := be_value_address h24
  rw [h24] at hlow
  -- `26` is the digit `T`, and the two ends of the interval are numbers to be compared
  have hlo : 26 * 58 ^ 33 ≤ be_value (0x41 :: low) := by
    rw [hvalue]
    exact Nat.le_add_right_of_le (by norm_num)
  have hhi : be_value (0x41 :: low) < (26 + 1) * 58 ^ 33 := by
    rw [hvalue]
    calc 65 * 256 ^ 24 + be_value low < 65 * 256 ^ 24 + 256 ^ 24 := Nat.add_lt_add_left hlow _
      _ ≤ (26 + 1) * 58 ^ 33 := by norm_num
  have hascii := Base58.encode_ascii (0x41 :: low)
  obtain ⟨cs, hcs, h33⟩ := Base58.encode_of_range (by simp) (by decide) (by decide) hlo hhi
  rw [hcs, String.toList_ofList] at hascii
  have hbytes : bytes s = 0x54 :: cs.map fun c => UInt8.ofNat c.val.toNat := by
    rw [h, hcs, bytes_ofList_of_ascii hascii, List.map_cons]
    rfl
  refine ⟨by rw [hbytes, List.head?_cons], ?_⟩
  rw [← length_bytes, hbytes, List.length_cons, List.length_map, h33]

/-! ## What is accepted -/

/-- **Each form is accepted as what it spells**, and no other string is. -/
theorem accepted_iff {cr : Crates} (hhex : HexLaws cr) (hbs58 : Bs58Laws cr) {s : String}
    {bs : List UInt8} : tron_address_to_bytes cr s = .ok bs ↔
      (∃ ds, MatchesHexForm s ds ∧ Hex.decode ds = some bs) ∨
        (Base58.decode_check cr.checksum s = some bs ∧ IsTronBytes bs) := by
  rw [tron_address_to_bytes_eq_ok hhex, SpellsTron, hbs58.decode_check]
  constructor
  · rintro ⟨hshape, ⟨ds, hs, hdec⟩ | ⟨-, -, hdec⟩⟩
    · exact .inl ⟨ds, .of_decode hs hdec hshape, hdec⟩
    · exact .inr ⟨hdec, hshape⟩
  · rintro (⟨ds, hform, hdec⟩ | ⟨hdec, hshape⟩)
    · obtain ⟨bs', hdec', hshape⟩ := hform.decodes
      obtain rfl : bs = bs' := Option.some.inj (hdec.symm.trans hdec')
      exact ⟨hshape, .inl ⟨ds, hform.1, hdec⟩⟩
    · obtain ⟨hhead, hlen⟩ := guard_of_base58check hdec hshape
      exact ⟨hshape, .inr ⟨hhead, hlen, hdec⟩⟩

/-- Neither letter case nor the prefix changes what is decoded. -/
theorem hex_forms_agree {cr : Crates} (hhex : HexLaws cr) (hbs58 : Bs58Laws cr) {s t : String}
    {ds es : List UInt8} (hs : MatchesHexForm s ds) (ht : MatchesHexForm t es)
    (hcase : ds.map lowercase_byte = es.map lowercase_byte) :
    ∃ bs, Hex.decode ds = some bs ∧ tron_address_to_bytes cr s = .ok bs ∧
      tron_address_to_bytes cr t = .ok bs := by
  obtain ⟨bs, hdec, -⟩ := hs.decodes
  have hdec' : Hex.decode es = some bs := by
    rw [← Hex.decode_lowercase, ← hcase, Hex.decode_lowercase, hdec]
  exact ⟨bs, hdec, (accepted_iff hhex hbs58).2 (.inl ⟨ds, hs, hdec⟩),
    (accepted_iff hhex hbs58).2 (.inl ⟨es, ht, hdec'⟩)⟩

/-- An address has one base58check text, which is accepted. -/
theorem unique_base58check {cr : Crates} (hhex : HexLaws cr) (hbs58 : Bs58Laws cr)
    {bs : List UInt8} (h : IsTronBytes bs) : ∃! s,
      Base58.decode_check cr.checksum s = some bs ∧ tron_address_to_bytes cr s = .ok bs := by
  have hdec := Base58.decode_check_eq_some.2 (Eq.refl (Base58.encode_check cr.checksum bs))
  refine ⟨_, ⟨hdec, (accepted_iff hhex hbs58).2 (.inr ⟨hdec, h⟩)⟩, ?_⟩
  intro s hs
  exact Base58.decode_check_eq_some.1 hs.1

/-- The address forms of the two chains are told apart by their first three bytes. -/
theorem not_spellsEvm_of_spellsTron {cr : Crates} {s : String} {bs evm : List UInt8}
    (h : SpellsTron cr s bs) : ¬ SpellsEvm s evm := by
  rintro ⟨h20, es, hes, hevm⟩
  have h40 := Hex.length_of_decode hevm
  obtain ⟨hshape, ⟨ds, hs, hdec⟩ | ⟨hhead, -, -⟩⟩ := h
  · have hform := MatchesHexForm.of_decode hs hdec hshape
    have h42 := hform.length
    rcases hs with hs | hs
    · -- the `0` of the prefix is not the `4` of the digits
      obtain ⟨-, rest, rfl, -⟩ := hform
      rw [hs, bytes_0x] at hes
      simp at hes
    · rw [hes] at hs
      rw [List.append_cancel_left hs] at h40
      omega
  · rw [hes, bytes_0x] at hhead
    simp at hhead

/-- **The decoder accepts exactly the Tron addresses.** -/
theorem accepts_tron_addresses {cr : Crates} (hhex : HexLaws cr) (hbs58 : Bs58Laws cr) :
    (∀ s, (∃ bs, tron_address_to_bytes cr s = .ok bs) ↔
      (∃ ds, MatchesHexForm s ds) ∨
        ∃ payload, Base58.decode_check cr.checksum s = some payload ∧ payload.length = 21 ∧
          payload.head? = some 0x41) ∧
    (∀ s bs, tron_address_to_bytes cr s = .ok bs → bs.length = 21 ∧ bs.head? = some 0x41) ∧
    (∀ s t ds es, MatchesHexForm s ds → MatchesHexForm t es →
      ds.map lowercase_byte = es.map lowercase_byte →
        ∃ bs, Hex.decode ds = some bs ∧ tron_address_to_bytes cr s = .ok bs ∧
          tron_address_to_bytes cr t = .ok bs) ∧
    (∀ bs : List UInt8, bs.length = 21 → bs.head? = some 0x41 →
      ∃! s, Base58.decode_check cr.checksum s = some bs ∧ tron_address_to_bytes cr s = .ok bs) ∧
    ∀ s field bs, tron_address_to_bytes cr s = .ok bs → validate_evm_address s field ≠ .ok () := by
  refine ⟨?_, ?_, ?_, ?_, ?_⟩
  · intro s
    simp only [accepted_iff hhex hbs58]
    constructor
    · rintro ⟨bs, ⟨ds, hform, -⟩ | h⟩
      · exact .inl ⟨ds, hform⟩
      · exact .inr ⟨bs, h⟩
    · rintro (⟨ds, hform⟩ | ⟨payload, h⟩)
      · obtain ⟨bs, hdec, -⟩ := hform.decodes
        exact ⟨bs, .inl ⟨ds, hform, hdec⟩⟩
      · exact ⟨payload, .inr h⟩
  · intro s bs h
    exact (tron_address_to_bytes_spec cr s).of_eq_ok h
  · intro s t ds es hs ht hcase
    exact hex_forms_agree hhex hbs58 hs ht hcase
  · intro bs h21 hhead
    exact unique_base58check hhex hbs58 ⟨h21, hhead⟩
  · intro s field bs h hevm
    obtain ⟨evm, hspells⟩ := validate_evm_address_eq_ok.1 hevm
    exact not_spellsEvm_of_spellsTron ((tron_address_to_bytes_eq_ok hhex).1 h) hspells

/-! ## One address -/

/-- The two rounds of the hash that a checksum of the sample address needs. -/
def address_digests : List (String × String) :=
  [("4177944d19c052b73ee2286823aa83f8138cb7032f",
      "c6925c3a5787b97e6933a4e53b566a2ab7bbf17cfaf79987551aa854784caeef"),
    ("c6925c3a5787b97e6933a4e53b566a2ab7bbf17cfaf79987551aa854784caeef",
      "dc6cca4e46a4ae74867a7ed4d5dc3be2c010a5dd79019c6e1ca7aa31241b17f9")]

def address_hashes : Crates := { reference with sha256 := lookup_digest address_digests }

/-- The concrete `Crates` with base58check, over the digests of one address. -/
def base58_reference : Crates :=
  { address_hashes with bs58_decode_check := Base58.decode_check address_hashes.checksum }

theorem base58_reference_hex : HexLaws base58_reference := ⟨fun _ => rfl, fun _ => rfl⟩

theorem base58_reference_bs58 : Bs58Laws base58_reference := ⟨fun _ => rfl⟩

/-- An account on the main network. -/
def sample_address : List UInt8 :=
  [0x41, 0x77, 0x94, 0x4d, 0x19, 0xc0, 0x52, 0xb7, 0x3e, 0xe2, 0x28, 0x68, 0x23, 0xaa, 0x83,
    0xf8, 0x13, 0x8c, 0xb7, 0x03, 0x2f]

/-- The address of the repository's tests, in its base58check and two of its hexadecimal
spellings. -/
theorem sample_address_accepted :
    (∃ bs, tron_address_to_bytes base58_reference "TLsV52sRDL79HXGGm9yzwKibb6BeruhUzy"
      = .ok bs) ∧
    (∃! s, Base58.decode_check base58_reference.checksum s = some sample_address ∧
      tron_address_to_bytes base58_reference s = .ok sample_address) ∧
    (∃ bs, tron_address_to_bytes base58_reference "4177944D19C052B73EE2286823AA83F8138CB7032F"
        = .ok bs ∧
      tron_address_to_bytes base58_reference "0x4177944d19c052b73ee2286823aa83f8138cb7032f"
        = .ok bs) ∧
    validate_evm_address "TLsV52sRDL79HXGGm9yzwKibb6BeruhUzy" "to" ≠ .ok () := by
  obtain ⟨haccepts, -, hcase, hunique, hevm⟩ :=
    accepts_tron_addresses base58_reference_hex base58_reference_bs58
  have htext : Base58.decode_check base58_reference.checksum "TLsV52sRDL79HXGGm9yzwKibb6BeruhUzy"
      = some sample_address := by decide +kernel
  obtain ⟨bs, hbs⟩ := (haccepts _).2 (.inr ⟨sample_address, htext, rfl, rfl⟩)
  have hupper : MatchesHexForm "4177944D19C052B73EE2286823AA83F8138CB7032F"
      (bytes "4177944D19C052B73EE2286823AA83F8138CB7032F") :=
    ⟨.inl rfl, _, rfl, rfl, by decide +kernel⟩
  have hlower : MatchesHexForm "0x4177944d19c052b73ee2286823aa83f8138cb7032f"
      (bytes "4177944d19c052b73ee2286823aa83f8138cb7032f") :=
    ⟨.inr (by decide), _, rfl, rfl, by decide +kernel⟩
  obtain ⟨hex, -, h1, h2⟩ := hcase _ _ _ _ hupper hlower (by decide)
  exact ⟨⟨bs, hbs⟩, hunique _ rfl rfl, ⟨hex, h1, h2⟩, hevm _ _ _ hbs⟩

end TxCompiler
