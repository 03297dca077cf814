/-
The two EVM grammars that are read more than once: addresses, and the calldata of an
ERC-20 `transfer`.

`validate`, `review` and `compile` each slice the calldata with their own code. The three
agree because each is pinned to one specification, `SpellsTransfer data recipient amount`:
the text decodes to the selector, twelve zero bytes, the twenty bytes of the recipient
and the thirty-two of the amount. All slices are at byte offsets; they are taken behind
`is_hex`, so every byte before them is ASCII (`calldata_slices`).
-/
import TxCompiler.Validate

set_option autoImplicit false

namespace TxCompiler

open Rust Json

/-! ## Addresses -/

/-- `0x` and forty digits of either case, for the twenty bytes `bs`. -/
def SpellsEvm (address : String) (bs : List UInt8) : Prop :=
  bs.length = 20 ∧ ∃ ds, bytes address = bytes "0x" ++ ds ∧ Hex.decode ds = some bs

theorem SpellsEvm.decode {address : String} {bs : List UInt8} (h : SpellsEvm address bs) :
    Hex.decode (bytes (strip_0x address)) = some bs := by
  obtain ⟨-, ds, hds, hdec⟩ := h
  exact decode_strip_0x.2 ⟨ds, .inr hds, hdec⟩

theorem len_0x : len "0x" = 2 := by decide

/-- Behind the length check and the prefix, `address[2..]` is on a boundary. -/
theorem evm_address_tail {address : String} (hlen : len address = EVM_ADDRESS_LEN)
    (hpre : starts_with address "0x" = true) :
    ∃ digits, (str_slice_from address 2 : Run String) = .ok digits ∧
      bytes address = bytes "0x" ++ bytes digits ∧ len digits = 40 := by
  have hbytes := starts_with_iff.1 hpre
  rw [len_0x, bytes_0x] at hbytes
  rw [EVM_ADDRESS_LEN] at hlen
  have hascii : ∀ b ∈ (bytes address).take 2, b.toNat < 128 := by
    rw [show (bytes address).take 2 = [0x30, 0x78] by rw [hbytes]; rfl]
    simp
  obtain ⟨digits, hslice, hdigits⟩ :=
    @str_slice_from_of_ascii TxCompilerError address 2 (by omega) hascii
  refine ⟨digits, hslice, by rw [hdigits, bytes_0x]; exact hbytes, ?_⟩
  rw [← length_bytes, hdigits, List.length_drop, length_bytes]
  omega

theorem validate_evm_address_eq_ok {address field : String} {u : Unit} :
    validate_evm_address address field = .ok u ↔ ∃ bs, SpellsEvm address bs := by
  unfold validate_evm_address
  simp only [bind_eq_ok, reject_if_eq_ok, exists_const, not_not]
  -- the checks say that the digits decode, and the spelling passes the checks in turn
  constructor
  · rintro ⟨hlen, hpre, digits, hslice, hall⟩
    obtain ⟨digits', hslice', hbytes, h40⟩ := evm_address_tail hlen hpre
    obtain rfl : digits = digits' := Except.ok.inj (hslice.symm.trans hslice')
    rw [← length_bytes] at h40
    obtain ⟨bs, hbs⟩ := Hex.decode_of_hexdigits (k := 20) h40 (List.all_eq_true.1 hall)
    have hlen20 := Hex.length_of_decode hbs
    exact ⟨bs, by omega, bytes digits, hbytes, hbs⟩
  · rintro ⟨bs, h20, ds, hbytes, hdec⟩
    have hds := Hex.length_of_decode hdec
    have hlen : len address = EVM_ADDRESS_LEN := by
      rw [← length_bytes, hbytes, List.length_append, hds, h20]
      decide
    have hpre : starts_with address "0x" = true := by
      rw [starts_with_iff, hbytes, len_0x]
      simp [bytes_0x]
    obtain ⟨digits, hslice, hbytes', -⟩ := evm_address_tail hlen hpre
    have hdigits : bytes digits = ds := List.append_cancel_left (hbytes'.symm.trans hbytes)
    refine ⟨hlen, hpre, digits, hslice, ?_⟩
    rw [hdigits]
    exact List.all_eq_true.2 (Hex.hexdigits_of_decode hdec)

/-! ## Calldata -/

/-- Hexadecimal text of that calldata, in either case, behind an optional `0x`. -/
def SpellsTransfer (data : String) (recipient amount : List UInt8) : Prop :=
  recipient.length = 20 ∧ amount.length = 32 ∧
    ∃ ds, (bytes data = ds ∨ bytes data = bytes "0x" ++ ds) ∧
      Hex.decode ds = some (transfer_calldata recipient amount)

theorem is_hex_iff {s : String} :
    is_hex s = true ↔ s ≠ "" ∧ ∀ b ∈ bytes s, is_ascii_hexdigit b = true := by
  simp [is_hex]

/-- The five slices of the calldata are taken, and they are all of it. -/
theorem calldata_slices {u : String} (hhex : is_hex u = true)
    (hlen : len u = ERC20_TRANSFER_CALLDATA_HEX_LEN) :
    ∃ selector word pad tail amount : String,
      (str_slice u 0 8 : Run String) = .ok selector ∧
      (str_slice u 8 72 : Run String) = .ok word ∧
      (str_slice word 0 24 : Run String) = .ok pad ∧
      (str_slice_from word 24 : Run String) = .ok tail ∧
      (str_slice u 72 136 : Run String) = .ok amount ∧
      bytes u = bytes selector ++ bytes pad ++ bytes tail ++ bytes amount ∧
      len selector = 8 ∧ len pad = 24 ∧ len tail = 40 ∧ len amount = 64 := by
  rw [ERC20_TRANSFER_CALLDATA_HEX_LEN] at hlen
  -- all the digits are ASCII, so every cut is on a boundary
  have hascii : ∀ b ∈ bytes u, b.toNat < 128 := fun b hb =>
    hexdigit_lt ((is_hex_iff.1 hhex).2 b hb)
  have take_ascii : ∀ k, ∀ b ∈ (bytes u).take k, b.toNat < 128 := fun k b hb =>
    hascii b (List.mem_of_mem_take hb)
  obtain ⟨selector, h1, b1⟩ := @str_slice_of_ascii TxCompilerError u 0 8 (by omega) (by omega)
    (take_ascii 8)
  obtain ⟨word, h2, b2⟩ := @str_slice_of_ascii TxCompilerError u 8 72 (by omega) (by omega)
    (take_ascii 72)
  obtain ⟨amount, h5, b5⟩ := @str_slice_of_ascii TxCompilerError u 72 136 (by omega) (by omega)
    (take_ascii 136)
  have hword : len word = 64 := by
    rw [← length_bytes, b2, List.length_take, List.length_drop, length_bytes]
    omega
  have word_ascii : ∀ k, ∀ b ∈ (bytes word).take k, b.toNat < 128 := fun k b hb =>
    hascii b (List.mem_of_mem_drop (List.mem_of_mem_take (b2 ▸ List.mem_of_mem_take hb)))
  obtain ⟨pad, h3, b3⟩ := @str_slice_of_ascii TxCompilerError word 0 24 (by omega) (by omega)
    (word_ascii 24)
  obtain ⟨tail, h4, b4⟩ := @str_slice_from_of_ascii TxCompilerError word 24 (by omega)
    (word_ascii 24)
  refine ⟨selector, word, pad, tail, amount, h1, h2, h3, h4, h5, ?_, ?_, ?_, ?_, ?_⟩
  · have hw : bytes word = bytes pad ++ bytes tail := by
      rw [b3, b4, List.drop_zero]
      exact (List.take_append_drop 24 _).symm
    have hrest : (bytes u).drop 8 = bytes word ++ bytes amount := by
      rw [b2, b5, List.take_of_length_le (l := (bytes u).drop 72)
        (by rw [List.length_drop, length_bytes]; omega)]
      conv_lhs => rw [← List.take_append_drop 64 ((bytes u).drop 8), List.drop_drop]
    rw [List.append_assoc (bytes selector), ← hw, List.append_assoc, ← hrest, b1, List.drop_zero]
    exact (List.take_append_drop 8 _).symm
  · rw [← length_bytes, b1, List.length_take, List.length_drop, length_bytes]; omega
  · rw [← length_bytes, b3, List.length_take, List.length_drop, length_bytes]; omega
  · rw [← length_bytes, b4, List.length_drop, length_bytes]; omega
  · rw [← length_bytes, b5, List.length_take, List.length_drop, length_bytes]; omega

theorem bytes_selector_lowercase :
    (bytes ERC20_TRANSFER_SELECTOR_HEX).map lowercase_byte = bytes ERC20_TRANSFER_SELECTOR_HEX := by
  decide

/-- The two checks on the text, of the selector and of the padding, are what it takes
for the decoded bytes to have the layout of a transfer. -/
theorem transfer_layout {selector pad tail amount recipient word : List UInt8}
    (hsel : selector.length = 8) (hpad : pad.length = 24)
    (hhex : ∀ b ∈ selector ++ pad, is_ascii_hexdigit b = true)
    (htail : Hex.decode tail = some recipient) (hamount : Hex.decode amount = some word) :
    Hex.decode (selector ++ pad ++ tail ++ amount) = some (transfer_calldata recipient word) ↔
      selector.map lowercase_byte = bytes ERC20_TRANSFER_SELECTOR_HEX ∧
        pad.all (· == 0x30) = true := by
  -- the selector and the padding decode on their own, as 8 and 24 are even
  obtain ⟨sel, hs⟩ := Hex.decode_of_hexdigits (k := 4) hsel fun b hb =>
    hhex b (List.mem_append_left _ hb)
  obtain ⟨zeros, hz⟩ := Hex.decode_of_hexdigits (k := 12) hpad fun b hb =>
    hhex b (List.mem_append_right _ hb)
  have hlsel := Hex.length_of_decode hs
  have hlzeros := Hex.length_of_decode hz
  have hdec := Hex.decode_append (Hex.decode_append (Hex.decode_append hs hz) htail) hamount
  have hselector : sel = ERC20_TRANSFER_SELECTOR_BYTES ↔
      selector.map lowercase_byte = bytes ERC20_TRANSFER_SELECTOR_HEX := by
    rw [Hex.decode_eq_iff_lowercase hs selector_hex_spells_bytes, bytes_selector_lowercase]
  have hpadding : zeros = List.replicate 12 0 ↔ pad.all (· == 0x30) = true := by
    rw [Hex.decode_eq_iff_lowercase hz (Hex.decode_replicate_zero 12), List.map_replicate,
      List.eq_replicate_iff, List.all_eq_true]
    -- `0` has one spelling, unlike the letters of a hexadecimal text
    have hbyte : ∀ b : UInt8, lowercase_byte b = lowercase_byte 0x30 ↔ (b == 0x30) = true := by
      intro b
      have h30 : (0x30 : UInt8).toNat = 48 := rfl
      rw [beq_iff_eq, ← UInt8.toNat_inj, ← UInt8.toNat_inj, toNat_lowercase_byte,
        toNat_lowercase_byte, h30]
      split_ifs <;> omega
    simp only [List.length_map, hpad, List.forall_mem_map, hbyte]
    simp
  -- what is left is to compare two concatenations whose heads have four bytes
  rw [hdec, ← hselector, ← hpadding, transfer_calldata, Option.some.injEq, List.append_left_inj,
    List.append_left_inj]
  constructor
  · intro h
    exact List.append_inj h (by rw [show sel.length = 4 by omega]; rfl)
  · rintro ⟨rfl, rfl⟩
    rfl

theorem spellsTransfer_iff {data : String} {recipient amount : List UInt8} :
    SpellsTransfer data recipient amount ↔ recipient.length = 20 ∧ amount.length = 32 ∧
      Hex.decode (bytes (strip_0x data)) = some (transfer_calldata recipient amount) := by
  rw [decode_strip_0x]
  exact Iff.rfl

/-- The text of a transfer passes the checks both readers start with, and its slices
decode to the recipient and the amount. -/
theorem spellsTransfer_slices {data : String} {recipient amount : List UInt8}
    (h : SpellsTransfer data recipient amount) :
    is_hex (strip_0x data) = true ∧ len (strip_0x data) = ERC20_TRANSFER_CALLDATA_HEX_LEN ∧
      ∃ selector word pad tail amount_hex : String,
        (str_slice (strip_0x data) 0 8 : Run String) = .ok selector ∧
        (str_slice (strip_0x data) 8 72 : Run String) = .ok word ∧
        (str_slice word 0 24 : Run String) = .ok pad ∧
        (str_slice_from word 24 : Run String) = .ok tail ∧
        (str_slice (strip_0x data) 72 136 : Run String) = .ok amount_hex ∧
        to_ascii_lowercase selector = ERC20_TRANSFER_SELECTOR_HEX ∧
        (bytes pad).all (· == 0x30) = true ∧
        Hex.decode (bytes tail) = some recipient ∧
        Hex.decode (bytes amount_hex) = some amount ∧ len amount_hex = 64 := by
  obtain ⟨h20, h32, hdec⟩ := spellsTransfer_iff.1 h
  have hlen : len (strip_0x data) = ERC20_TRANSFER_CALLDATA_HEX_LEN := by
    rw [← length_bytes, Hex.length_of_decode hdec, length_transfer_calldata h20 h32]
    rfl
  have hdigits := Hex.hexdigits_of_decode hdec
  have hhex : is_hex (strip_0x data) = true := by
    refine is_hex_iff.2 ⟨?_, hdigits⟩
    intro h0
    rw [h0] at hlen
    exact absurd hlen (by decide)
  obtain ⟨selector, word, pad, tail, amount_hex, h1, h2, h3, h4, h5, hu, l1, l2, l3, l4⟩ :=
    calldata_slices hhex hlen
  rw [← length_bytes] at l1 l2 l3 l4
  rw [hu] at hdec hdigits
  -- the halves decode separately, at the even positions 8, 32 and 72
  have hsplit := Hex.decode_split hdec 36
  have hlast : Hex.decode (bytes amount_hex) = some amount := by
    have := hsplit.2
    rwa [List.drop_left' (by simp only [List.length_append]; omega), transfer_calldata,
      List.drop_left' (by simp [ERC20_TRANSFER_SELECTOR_BYTES, h20])] at this
  have hfront := hsplit.1
  rw [List.take_left' (by simp only [List.length_append]; omega), transfer_calldata,
    List.take_left' (by simp [ERC20_TRANSFER_SELECTOR_BYTES, h20])] at hfront
  have htail : Hex.decode (bytes tail) = some recipient := by
    have := (Hex.decode_split hfront 16).2
    rwa [List.drop_left' (by simp only [List.length_append]; omega),
      List.drop_left' (by simp [ERC20_TRANSFER_SELECTOR_BYTES])] at this
  obtain ⟨hsel, hzero⟩ := (transfer_layout l1 l2
    (fun b hb => hdigits b (List.mem_append_left _ (List.mem_append_left _ hb))) htail hlast).1 hdec
  refine ⟨hhex, hlen, selector, word, pad, tail, amount_hex, h1, h2, h3, h4, h5, ?_, hzero,
    htail, hlast, by rw [← length_bytes]; exact l4⟩
  rw [← bytes_inj, bytes_to_ascii_lowercase]
  exact hsel

/-- Conversely, text that passes the checks spells a transfer. -/
theorem spellsTransfer_of_checks {data selector word pad : String}
    (hhex : is_hex (strip_0x data) = true)
    (hlen : len (strip_0x data) = ERC20_TRANSFER_CALLDATA_HEX_LEN)
    (h1 : (str_slice (strip_0x data) 0 8 : Run String) = .ok selector)
    (h2 : (str_slice (strip_0x data) 8 72 : Run String) = .ok word)
    (h3 : (str_slice word 0 24 : Run String) = .ok pad)
    (hsel : to_ascii_lowercase selector = ERC20_TRANSFER_SELECTOR_HEX)
    (hzero : (bytes pad).all (· == 0x30) = true) :
    ∃ recipient amount, SpellsTransfer data recipient amount := by
  obtain ⟨selector', word', pad', tail, amount_hex, h1', h2', h3', -, -, hu, l1, l2, l3, l4⟩ :=
    calldata_slices hhex hlen
  -- the slices the reader took are the ones of `calldata_slices`
  obtain rfl : selector = selector' := Except.ok.inj (h1.symm.trans h1')
  obtain rfl : word = word' := Except.ok.inj (h2.symm.trans h2')
  obtain rfl : pad = pad' := Except.ok.inj (h3.symm.trans h3')
  rw [← length_bytes] at l1 l2 l3 l4
  have hdigits := (is_hex_iff.1 hhex).2
  rw [hu] at hdigits
  obtain ⟨recipient, htail⟩ := Hex.decode_of_hexdigits (k := 20) l3 fun b hb =>
    hdigits b (by simp [hb])
  obtain ⟨amount, hamount⟩ := Hex.decode_of_hexdigits (k := 32) l4 fun b hb =>
    hdigits b (by simp [hb])
  have hl20 := Hex.length_of_decode htail
  have hl32 := Hex.length_of_decode hamount
  refine ⟨recipient, amount, spellsTransfer_iff.2 ⟨by omega, by omega, ?_⟩⟩
  rw [hu]
  refine (transfer_layout l1 l2 (fun b hb => hdigits b (by
    simp only [List.mem_append] at hb ⊢
    tauto)) htail hamount).2 ⟨?_, hzero⟩
  rw [← bytes_to_ascii_lowercase, hsel]

theorem non_empty_calldata_eq_some {data : Option String} {d : String} :
    non_empty_calldata data = some d ↔ data = some d ∧ d ≠ "" ∧ d ≠ "0x" := by
  simp [non_empty_calldata, Option.filter_eq_some_iff]

/-- The calldata of a transfer is neither of the spellings of no calldata. -/
theorem SpellsTransfer.ne_empty {data : String} {recipient amount : List UInt8}
    (h : SpellsTransfer data recipient amount) : data ≠ "" ∧ data ≠ "0x" := by
  obtain ⟨-, hlen, -⟩ := spellsTransfer_slices h
  -- neither has 136 digits behind the prefix
  constructor
  · rintro rfl
    exact absurd hlen (by decide)
  · rintro rfl
    exact absurd hlen (by decide)

/-- The amount is a word, so it fits the integer it is read into. -/
theorem SpellsTransfer.amount_lt {data : String} {recipient amount : List UInt8}
    (h : SpellsTransfer data recipient amount) : be_value amount < 2 ^ 256 := by
  have hlt := be_value_lt amount
  rw [h.2.1] at hlt
  exact lt_of_lt_of_eq hlt (by norm_num)

/-! ## The three readers -/

/-- `validate` accepts a transfer to its own contract that carries no value. -/
theorem validate_evm_token_transfer_eq_ok {data : Option String}
    {to_ token_contract value_wei : String} {u : Unit} :
    validate_evm_token_transfer data to_ token_contract value_wei = .ok u ↔
      (∃ d recipient amount, data = some d ∧ SpellsTransfer d recipient amount) ∧
        eq_ignore_ascii_case to_ token_contract = true ∧ value_wei = "0" := by
  unfold validate_evm_token_transfer
  simp only [bind_eq_ok, ok_or_eq_ok, reject_if_eq_ok, exists_const, not_not,
    validate_evm_address_eq_ok, non_empty_calldata_eq_some]
  constructor
  · rintro ⟨d, ⟨rfl, -⟩, hhex, hlen, selector, h1, hsel, word, h2, pad, h3, hzero, tail, -, -,
      hto, hvalue⟩
    obtain ⟨recipient, amount, h⟩ := spellsTransfer_of_checks hhex hlen h1 h2 h3 hsel hzero
    exact ⟨⟨d, recipient, amount, rfl, h⟩, hto, hvalue⟩
  · rintro ⟨⟨d, recipient, amount, rfl, h⟩, hto, hvalue⟩
    obtain ⟨hhex, hlen, selector, word, pad, tail, -, h1, h2, h3, h4, -, hsel, hzero, htail, -⟩ :=
      spellsTransfer_slices h
    -- the recipient check inside asks for what the padded word decodes to
    refine ⟨d, ⟨rfl, h.ne_empty⟩, hhex, hlen, selector, h1, hsel, word, h2, pad, h3, hzero, tail,
      h4, ⟨recipient, h.1, bytes tail, by rw [bytes_append], htail⟩, hto, hvalue⟩

/-- `review` shows the recipient and the amount the calldata spells. -/
theorem decode_erc20_transfer_data_of_spells {cr : Crates} (hcr : U256Laws cr) {data : String}
    {recipient amount : List UInt8} (h : SpellsTransfer data recipient amount) :
    ∃ shown, decode_erc20_transfer_data cr data = .ok (shown, (be_value amount).repr) ∧
      SpellsEvm shown recipient := by
  obtain ⟨hhex, hlen, selector, word, pad, tail, amount_hex, h1, h2, h3, h4, h5, hsel, hzero,
    htail, hamount, h64⟩ := spellsTransfer_slices h
  have hdigits := Hex.hexdigits_of_decode hamount
  -- the value read off the digits is the value of the bytes they decode to
  have hvalue : (BitVec.ofNat 256 (radix_value 16 (bytes amount_hex))).toNat
      = be_value amount := by
    rw [← Hex.be_value_decode hamount, BitVec.toNat_ofNat]
    exact Nat.mod_eq_of_lt h.amount_lt
  have hne : bytes amount_hex ≠ [] := by
    intro h0
    have := congrArg List.length h0
    rw [length_bytes, h64] at this
    simp at this
  refine ⟨"0x" ++ tail, ?_, h.1, bytes tail, by rw [bytes_append], htail⟩
  unfold decode_erc20_transfer_data
  simp only [reject_if_of_not (not_not.2 hhex), reject_if_of_not (not_not.2 hlen), ok_bind, h1, h2,
    h3, h4, h5, reject_if_of_not (not_not.2 hsel), reject_if_of_not (not_not.2 hzero),
    hcr.hex amount_hex hne (by omega) hdigits, ok_or_some, hvalue]

theorem non_empty_calldata_eq_none {data : Option String} :
    non_empty_calldata data = none ↔ data = none ∨ data = some "" ∨ data = some "0x" := by
  cases data with
  | none => simp [non_empty_calldata]
  | some d =>
    by_cases h0 : d = "" <;> by_cases h1 : d = "0x" <;> simp [non_empty_calldata, h0, h1]

theorem decode_calldata_of_empty (cr : Crates) {data : Option String}
    (h : non_empty_calldata data = none) : decode_calldata cr data = .ok [] := by
  rcases non_empty_calldata_eq_none.1 h with rfl | rfl | rfl <;> simp [decode_calldata]

/-! ## Calldata of any kind -/

/-- The bytes of calldata that need not be a transfer: none at all, or hexadecimal digits of
either case behind an optional `0x`. -/
def SpellsCalldata (data : Option String) (input : List UInt8) : Prop :=
  match data with
  | none => input = []
  | some d => ∃ ds, (bytes d = ds ∨ bytes d = bytes "0x" ++ ds) ∧ Hex.decode ds = some input

/-- The calldata a text spells, by the hexadecimal of this development. -/
def calldata_bytes (data : Option String) : Option (List UInt8) :=
  match data with
  | none => some []
  | some d => Hex.decode (bytes (strip_0x d))

theorem calldata_bytes_eq_some {data : Option String} {input : List UInt8} :
    calldata_bytes data = some input ↔ SpellsCalldata data input := by
  cases data with
  | none => simp [calldata_bytes, SpellsCalldata, eq_comm]
  | some d => exact decode_strip_0x

theorem SpellsCalldata.unique {data : Option String} {input input' : List UInt8}
    (h : SpellsCalldata data input) (h' : SpellsCalldata data input') : input = input' :=
  Option.some.inj ((calldata_bytes_eq_some.2 h).symm.trans (calldata_bytes_eq_some.2 h'))

theorem SpellsTransfer.spellsCalldata {data : String} {recipient amount : List UInt8}
    (h : SpellsTransfer data recipient amount) :
    SpellsCalldata (some data) (transfer_calldata recipient amount) := h.2.2

/-- The three spellings of no calldata. -/
theorem spellsCalldata_of_empty {data : Option String} (h : non_empty_calldata data = none) :
    SpellsCalldata data [] := by
  rw [← calldata_bytes_eq_some]
  rcases non_empty_calldata_eq_none.1 h with rfl | rfl | rfl <;> decide

/-- **`compile` decodes what the calldata spells.** -/
theorem decode_calldata_eq_ok {cr : Crates} (hcr : HexLaws cr) {data : Option String}
    {input : List UInt8} : decode_calldata cr data = .ok input ↔ SpellsCalldata data input := by
  rw [← calldata_bytes_eq_some]
  cases data with
  | none => simp [decode_calldata, calldata_bytes]
  | some d =>
    unfold decode_calldata calldata_bytes
    by_cases h : d ≠ "" ∧ d ≠ "0x"
    · dsimp only
      rw [if_pos h, ok_or_eq_ok, hcr.decode]
    · -- both spellings have no digits
      have hempty : Hex.decode (bytes (strip_0x d)) = some [] := by
        rw [not_and_or, not_not, not_not] at h
        rcases h with rfl | rfl <;> decide
      dsimp only
      rw [if_neg h, hempty]
      simp

/-- `compile` signs the bytes of a transfer. -/
theorem decode_calldata_of_spells {cr : Crates} (hcr : HexLaws cr) {data : String}
    {recipient amount : List UInt8} (h : SpellsTransfer data recipient amount) :
    decode_calldata cr (some data) = .ok (transfer_calldata recipient amount) :=
  (decode_calldata_eq_ok hcr).2 h.spellsCalldata

end TxCompiler
