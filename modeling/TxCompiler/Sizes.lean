/-
**What validation bounds**, as sizes.

*An artefact* has at most 156 bytes on Ethereum and 225 on Tron, and both lengths are reached
(`longest_artefacts`): a signing device needs no larger buffer, and a smaller one turns some
accepted payload away. The longest Ethereum artefact is an EIP-1559 token transfer and not a
payment, although only a payment has a value to encode: the calldata of a transfer is longer than
the value. The longest Tron artefact is a token transfer with a fee limit.

*A transaction* that was accepted keeps at most 1204 bytes of text, again reached, and its calldata
(`kept_of_payload`). The source caps the informational fields so that no payload can park large
texts in memory. The calldata of a Tron payload has no cap.
-/
import TxCompiler.Signable

set_option autoImplicit false

namespace TxCompiler

open Rust

/-! ## Ethereum -/

section Ethereum

variable {chain_id nonce gas_limit value : ℕ} {to_ input : List UInt8}

theorem length_of_isTransfer (h : IsTransfer value input) (hvalue : value < 2 ^ 256) :
    (Rlp.encode (Rlp.uint value)).length + (Rlp.encode (.bytes input)).length ≤ 71 := by
  rcases h with rfl | ⟨rfl, recipient, amount, h20, -, rfl⟩
  · have h1 := @Rlp.length_encode_uint_of_lt value 32 (by decide) (by norm_num; exact hvalue)
    have h2 := @Rlp.length_encode_bytes_of_lt [] (by decide)
    rw [List.length_nil] at h2
    omega
  · have h1 := @Rlp.length_encode_uint_of_lt 0 0 (by decide) (by decide)
    have h2 := Rlp.length_encode_bytes_le_header
      (transfer_calldata recipient (to_be_bytes 32 amount))
    have h68 : (transfer_calldata recipient (to_be_bytes 32 amount)).length = 68 :=
      length_transfer_calldata h20 (length_to_be_bytes ..)
    rw [h68] at h2
    -- past 55 bytes the header has two
    have hheader := @Rlp.length_header_le_of_lt 128 68 1 (by decide) (by decide)
    omega

/-- The fields both envelopes share. -/
theorem length_common_le (h : EvmRange chain_id nonce gas_limit to_ value input)
    (hnonce : nonce < 2 ^ 53) (htransfer : IsTransfer value input) :
    (Rlp.encode (Rlp.uint chain_id)).length + (Rlp.encode (Rlp.uint nonce)).length +
      (Rlp.encode (Rlp.uint gas_limit)).length + (Rlp.encode (.bytes to_)).length +
      ((Rlp.encode (Rlp.uint value)).length + (Rlp.encode (.bytes input)).length) ≤ 118 := by
  have hid := h.chain_id_lt
  have h1 := @Rlp.length_encode_uint_of_lt chain_id 8 (by decide) (by omega)
  have h2 := @Rlp.length_encode_uint_of_lt nonce 7 (by decide) (by omega)
  have h3 := @Rlp.length_encode_uint_of_lt gas_limit 8 (by decide) h.gas_limit_lt
  have h4 := @Rlp.length_encode_bytes_of_lt to_ (by rw [h.length_to]; decide)
  have h5 := length_of_isTransfer htransfer h.value_lt
  rw [h.length_to] at h4
  omega

/-- A list of fewer than 256 bytes has a header of two. -/
theorem length_list_le {items : List Rlp.Item} {n : ℕ}
    (h : (items.map fun x => (Rlp.encode x).length).sum ≤ n) (hn : n < 256) :
    (Rlp.encode (.list items)).length ≤ 2 + n := by
  rw [← Rlp.length_encode_all] at h
  have := @Rlp.length_header_le_of_lt 192 (Rlp.encode_all items).length 1 (by decide) (by omega)
  rw [Rlp.encode, List.length_append]
  omega

end Ethereum

/-! ## Tron -/

section Tron

theorem length_transfer_message_le {owner to_ : List UInt8} {amount : ℕ}
    (howner : owner.length = 21) (hto : to_.length = 21) (hamount : amount < 2 ^ 64) :
    (Wire.serialise (transfer_entries owner to_ amount)).length ≤ 57 := by
  have h1 := @Wire.length_write_len_le 1 21 0 0 owner (by decide) howner.le (by decide)
  have h2 := @Wire.length_write_len_le 2 21 0 0 to_ (by decide) hto.le (by decide)
  have h3 := @Wire.length_write_varint_le 3 amount 0 9 (by decide) (by omega)
  simp only [transfer_entries, Wire.serialise_cons, Wire.serialise_nil, List.append_nil,
    List.length_append]
  omega

theorem length_trigger_message_le {owner token data : List UInt8} (howner : owner.length = 21)
    (htoken : token.length = 21) (hdata : data.length = 68) :
    (Wire.serialise (trigger_entries owner token data)).length ≤ 116 := by
  have h1 := @Wire.length_write_len_le 1 21 0 0 owner (by decide) howner.le (by decide)
  have h2 := @Wire.length_write_len_le 2 21 0 0 token (by decide) htoken.le (by decide)
  have h3 := @Wire.length_write_len_le 4 68 0 0 data (by decide) hdata.le (by decide)
  simp only [trigger_entries, Wire.serialise_cons, Wire.serialise_nil, List.append_nil,
    List.length_append]
  omega

/-- The two levels around a message take 58 bytes, and a byte less for a short one. -/
theorem length_wrapped_le {type : ℕ} {url : String} {inner : List Wire.Entry} (htype : type < 128)
    (hurl : len url ≤ 49) (hinner : (Wire.serialise inner).length ≤ 116) :
    (contract_bytes type url inner).length ≤ 174 := by
  have h1 := @Wire.length_write_len_le 1 49 0 0 (bytes url) (by decide)
    (by rw [length_bytes]; exact hurl) (by decide)
  have h2 := @Wire.length_write_len_le 2 116 0 0 (Wire.serialise inner) (by decide) hinner
    (by decide)
  have hany : (Wire.serialise (any_entries url (Wire.serialise inner))).length ≤ 169 := by
    simp only [any_entries, Wire.serialise_cons, Wire.serialise_nil, List.append_nil,
      List.length_append]
    omega
  have h3 := @Wire.length_write_varint_le 1 type 0 0 (by decide) htype
  have h4 := @Wire.length_write_len_le 2 169 0 1 _ (by decide) hany (by decide)
  simp only [contract_bytes, contract_entries, Wire.serialise_cons, Wire.serialise_nil,
    List.append_nil, List.length_append]
  omega

theorem length_contract_le {transfer : TronTransfer} (h : transfer.Wf) :
    transfer.contract.bytes.length ≤ 174 := by
  cases transfer with
  | native from_ to_ amount =>
    obtain ⟨⟨hfrom, -⟩, ⟨hto, -⟩, hamount⟩ := h
    have h57 := length_transfer_message_le hfrom hto hamount
    exact length_wrapped_le (show 1 < 128 by decide) (show len TRANSFER_URL ≤ 49 by decide)
      (h57.trans (by decide))
  | token from_ to_ token_bytes amount =>
    obtain ⟨⟨hfrom, -⟩, ⟨hto, -⟩, ⟨htoken, -⟩, -⟩ := h
    have hdata : (transfer_calldata (to_.drop 1) (to_be_bytes 32 amount)).length = 68 :=
      length_transfer_calldata (by rw [List.length_drop, hto]) (length_to_be_bytes ..)
    exact length_wrapped_le (show 31 < 128 by decide) (show len TRIGGER_URL ≤ 49 by decide)
      (length_trigger_message_le hfrom htoken hdata)

/-- The sum over the six fields, each with its key and its length. -/
theorem length_raw_le {clock block_number fee_limit : ℕ} {block_hash : List UInt8}
    {transfer : TronTransfer}
    (h : (Meaning.tron clock block_number block_hash transfer fee_limit).InRange) :
    (Meaning.tron clock block_number block_hash transfer fee_limit).bytes.length ≤ 225 := by
  obtain ⟨htime, -, hhash, htransfer, hlimit⟩ := h
  have h1 := @Wire.length_write_len_le 1 2 0 0 (to_be_bytes 2 block_number) (by decide)
    (length_to_be_bytes ..).le (by decide)
  have h2 := @Wire.length_write_len_le 4 8 0 0 block_hash (by decide) hhash.le (by decide)
  have h3 := @Wire.length_write_varint_le 8 (clock + 36000000) 0 9 (by decide) (by omega)
  have h4 := @Wire.length_write_len_le 11 174 0 1 _ (by decide) (length_contract_le htransfer)
    (by decide)
  have h5 := @Wire.length_write_varint_le 14 clock 0 9 (by decide) (by omega)
  -- field 18 is the one with a key of two bytes
  have h6 := @Wire.length_write_varint_le 18 fee_limit 1 9 (by decide) (by omega)
  show (Wire.serialise (raw_data_entries (to_be_bytes 2 block_number) block_hash
    (clock + 36000000) transfer.contract.bytes clock fee_limit)).length ≤ 225
  simp only [raw_data_entries, Wire.serialise_append, Wire.serialise_cons, Wire.serialise_nil,
    List.append_nil, List.length_append]
  by_cases h0 : fee_limit = 0
  · rw [if_pos h0, Wire.serialise_nil, List.length_nil]
    omega
  · rw [if_neg h0, Wire.serialise_cons, Wire.serialise_nil, List.append_nil]
    omega

end Tron

/-! ## The longest artefacts -/

section Longest

variable {cr : Crates} {keccak256 : List UInt8 → B256}

/-- In bytes. -/
def longest : Chain → ℕ
  | .Ethereum => 156
  | .Tron => 225

theorem length_bytes_le {m : Meaning} (h : m.Signable) : m.bytes.length ≤ longest m.chain := by
  obtain ⟨hrange, htransfers⟩ := h
  cases m with
  | eip1559 chain_id nonce gas_limit max_fee max_priority_fee to_ value input =>
    obtain ⟨he, hmax, hpriority⟩ := hrange
    obtain ⟨hnonce, htransfer⟩ := htransfers
    have h1 := length_common_le he hnonce htransfer
    have h2 := @Rlp.length_encode_uint_of_lt max_fee 16 (by decide) (by omega)
    have h3 := @Rlp.length_encode_uint_of_lt max_priority_fee 16 (by decide) (by omega)
    have hempty : (Rlp.encode (.list [])).length = 1 := by decide
    rw [Meaning.bytes, List.length_cons]
    refine Nat.succ_le_succ (@length_list_le _ 153 ?_ (by decide))
    simp only [List.map_cons, List.map_nil, List.sum_cons, List.sum_nil]
    omega
  | legacy chain_id nonce gas_limit gas_price to_ value input =>
    obtain ⟨he, hprice⟩ := hrange
    obtain ⟨hnonce, htransfer⟩ := htransfers
    have h1 := length_common_le he hnonce htransfer
    have h2 := @Rlp.length_encode_uint_of_lt gas_price 16 (by decide) (by omega)
    have hzero := @Rlp.length_encode_uint_of_lt 0 0 (by decide) (by decide)
    refine (@length_list_le _ 137 ?_ (by decide)).trans (show 2 + 137 ≤ 156 by decide)
    simp only [List.map_cons, List.map_nil, List.sum_cons, List.sum_nil]
    omega
  | tron => exact length_raw_le hrange

/-- An artefact that is as long as any of its chain. -/
def longest_meaning : Chain → Meaning
  | .Ethereum =>
    .eip1559 (2 ^ 63 - 1) (2 ^ 53 - 1) (2 ^ 64 - 1) (2 ^ 128 - 1) (2 ^ 128 - 1)
      (List.replicate 20 0) 0 (transfer_calldata (List.replicate 20 0) (to_be_bytes 32 0))
  | .Tron =>
    let address := 0x41 :: List.replicate 20 0
    .tron (2 ^ 63) 0 (List.replicate 8 0) (.token address address address 0) (2 ^ 64 - 1)

/-- One meaning a chain is as long as it can be in every field. -/
theorem longest_meaning_signable (chain : Chain) : (longest_meaning chain).Signable := by
  cases chain with
  | Ethereum =>
    refine ⟨⟨⟨?_, ?_, ?_, ?_, rfl, ?_, ?_⟩, ?_, ?_⟩, ?_,
      .inr ⟨rfl, List.replicate 20 0, 0, rfl, ?_, rfl⟩⟩ <;> decide
  | Tron =>
    have haddress : IsTronBytes (0x41 :: List.replicate 20 0) := ⟨rfl, rfl⟩
    refine ⟨⟨?_, ?_, rfl, ⟨haddress, haddress, haddress, ?_⟩, ?_⟩, trivial⟩ <;> decide

theorem longest_meaning_chain (chain : Chain) : (longest_meaning chain).chain = chain := by
  cases chain <;> rfl

theorem length_longest_meaning (chain : Chain) :
    (longest_meaning chain).bytes.length = longest chain := by
  cases chain <;> decide +kernel

/-- Two digits a byte, behind `0x`. -/
theorem len_unsigned_tx (hhex : HexLaws cr) (m : Meaning) (tx_type : TxType) :
    len (m.result cr keccak256 tx_type).unsigned_tx = 2 + 2 * m.bytes.length := by
  have hlen := Hex.length_of_decode (Hex.decode_encode m.bytes)
  rw [← length_bytes, Meaning.result]
  dsimp only
  rw [bytes_append, List.length_append, hhex.encode, hlen]
  rfl

/-- **How long an artefact is.** The longest artefact of an accepted payload of each chain, in
characters: the prefix, and two digits a byte. -/
theorem longest_artefacts (hhex : HexLaws cr) (haddr : AddressLaws cr) (hu256 : U256Laws cr)
    (hsign : SigningLaws cr) (hdigest : DigestLaws cr keccak256) (chain : Chain) :
    IsGreatest {n | ∃ v p options res, validate cr v = .ok p ∧ compile cr p options = .ok res ∧
      res.chain = chain ∧ len res.unsigned_tx = n} (2 + 2 * longest chain) := by
  constructor
  · have h := longest_meaning_signable chain
    have hres := transaction_compiles hhex haddr hu256 hsign hdigest h.1
    refine ⟨_, _, _, _, accepted_of_valid hhex (transaction_valid h), hres,
      longest_meaning_chain chain, ?_⟩
    rw [len_unsigned_tx hhex, length_longest_meaning]
  · rintro _ ⟨v, p, options, res, hvalid, hres, rfl, rfl⟩
    obtain ⟨m, h, rfl⟩ := signable_of_signed hhex hu256 hsign hdigest hvalid hres
    have := length_bytes_le h
    rw [len_unsigned_tx hhex]
    exact Nat.add_le_add_left (Nat.mul_le_mul_left 2 this) 2

theorem longest_tron_artefact :
    IsGreatest {n | ∃ v p options res, validate reference v = .ok p ∧
      compile reference p options = .ok res ∧ res.chain = .Tron ∧ len res.unsigned_tx = n} 452 :=
  longest_artefacts reference_hex reference_address reference_u256 reference_signing
    reference_digest .Tron

end Longest

/-! ## What is kept of a payload -/

/-- The texts a header is kept with. -/
def TronBlockHeader.texts (header : TronBlockHeader) : List String :=
  header.h :: (header.p.toList ++ (header.r.toList ++ header.w.toList))

/-- The texts a fee is kept with, those of its header included. -/
def FeeParams.texts (fee : FeeParams) : List String :=
  fee.gas_limit.toList ++ (fee.base_fee_per_gas.toList ++ (fee.max_priority_fee_per_gas.toList ++
    (fee.max_fee_per_gas.toList ++ (fee.gas_price.toList ++ (fee.el.toList ++
      (fee.rp.elim [] TronBlockHeader.texts))))))

/-- The texts of a transaction, all but its calldata. -/
def PreparedTransaction.texts (p : PreparedTransaction) : List String :=
  p.«from» :: p.«to» :: p.value_wei :: (p.token_contract.toList ++ (p.nonce.toList ++ p.fee.texts))

/-- What a list of texts takes, in bytes. -/
def total (texts : List String) : ℕ := (texts.map len).sum

@[simp] theorem total_nil : total [] = 0 := rfl

@[simp] theorem total_cons (s : String) (texts : List String) :
    total (s :: texts) = len s + total texts := by simp [total]

@[simp] theorem total_append (texts texts' : List String) :
    total (texts ++ texts') = total texts + total texts' := by simp [total]

theorem total_toList_le {o : Option String} {n : ℕ} (h : ∀ s, o = some s → len s ≤ n) :
    total o.toList ≤ n := by
  cases o with
  | none => exact Nat.zero_le n
  | some s =>
    rw [Option.toList_some, total_cons, total_nil]
    exact h s rfl

section Kept

variable {cr : Crates} {p : PreparedTransaction}

theorem len_of_isDecimal {s : String} (h : IsDecimal s) : len s ≤ 78 := by
  obtain ⟨n, hn, rfl⟩ := h
  exact (len_repr_le_iff (by decide)).2 hn

theorem total_optDecimal_le {o : Option String} (h : OptDecimal o) : total o.toList ≤ 78 :=
  total_toList_le fun s hs => len_of_isDecimal (h s hs)

/-- An address is longest in hexadecimal, with the prefix and the leading byte of Tron. -/
theorem len_of_isAddress {chain : Chain} {address : String} (h : IsAddress cr chain address) :
    len address ≤ 44 := by
  rw [← length_bytes]
  cases chain with
  | Ethereum =>
    obtain ⟨bs, hbs, ds, hds, hdec⟩ := h
    rw [hds, List.length_append, Hex.length_of_decode hdec, hbs]
    decide
  | Tron =>
    obtain ⟨bs, ⟨hbs, -⟩, ⟨ds, hds, hdec⟩ | ⟨-, hlen, -⟩⟩ := h
    · have hlen := Hex.length_of_decode hdec
      rcases hds with hds | hds
      · rw [hds]
        omega
      · rw [hds, List.length_append, bytes_0x, List.length_cons, List.length_cons, List.length_nil]
        omega
    · rw [length_bytes, hlen]
      decide

theorem total_header_le {header : TronBlockHeader} (h : ValidHeader header) :
    total header.texts ≤ 448 := by
  obtain ⟨bs, hbs, hdec⟩ := h.h
  have h1 := Hex.length_of_decode hdec
  rw [length_bytes] at h1
  have h2 := total_toList_le h.p
  have h3 := total_toList_le h.r
  have h4 := total_toList_le h.w
  simp only [TronBlockHeader.texts, total_cons, total_append, MAX_INFO_FIELD_LEN] at *
  omega

theorem total_fee_le {chain : Chain} {fee : FeeParams} (h : ValidFee chain fee) :
    total fee.texts ≤ 916 := by
  have h1 := total_optDecimal_le h.gas_limit
  have h2 := total_optDecimal_le h.base_fee_per_gas
  have h3 := total_optDecimal_le h.max_priority_fee_per_gas
  have h4 := total_optDecimal_le h.max_fee_per_gas
  have h5 := total_optDecimal_le h.gas_price
  have h6 := total_optDecimal_le h.el
  have h7 : total (fee.rp.elim [] TronBlockHeader.texts) ≤ 448 := by
    cases hrp : fee.rp with
    | none => exact Nat.zero_le _
    | some header => exact total_header_le (h.rp header hrp)
  simp only [FeeParams.texts, total_append]
  omega

/-- Three addresses, two decimals, and the texts of the fee. -/
theorem total_texts_le (hv : Valid cr p) : total p.texts ≤ 1204 := by
  have h1 := len_of_isAddress hv.from
  have h2 := len_of_isAddress hv.to
  have h3 := len_of_isDecimal hv.value_wei
  have h4 := total_toList_le fun s hs => len_of_isAddress (hv.token_contract s hs)
  have h5 := total_optDecimal_le hv.nonce
  have h6 := total_fee_le hv.fee
  simp only [PreparedTransaction.texts, total_cons, total_append]
  omega

/-- Every text at its longest, around any calldata: the fields of the other chain and of the other
fee modes are kept as well. -/
def largest (data : Option String) : PreparedTransaction :=
  let address := "0x" ++ Hex.encode (0x41 :: List.replicate 20 0)
  let amount := (10 ^ 78 - 1).repr
  let info := String.ofList (List.replicate 128 'a')
  { chain := .Tron
    chain_id := none
    «from» := address
    «to» := address
    value_wei := amount
    data
    tx_type := .TransferToken
    token_contract := some address
    nonce := some amount
    fee := {
      mode := .Tron
      gas_limit := some amount
      base_fee_per_gas := some amount
      max_priority_fee_per_gas := some amount
      max_fee_per_gas := some amount
      gas_price := some amount
      el := some amount
      rp := some {
        h := Hex.encode (List.replicate 32 0)
        n := 1
        t := 1
        p := some info
        r := some info
        w := some info
        v := 0 } } }

/-- The caps of all the fields are met at once. -/
theorem largest_valid {data : Option String} (hdata : data ≠ some "") :
    Valid cr (largest data) := by
  have haddress : IsAddress cr .Tron ("0x" ++ Hex.encode (0x41 :: List.replicate 20 0)) :=
    ⟨_, ⟨rfl, rfl⟩, .inl ⟨_, .inr (bytes_append ..), Hex.decode_encode _⟩⟩
  have hamount : IsDecimal (10 ^ 78 - 1).repr := ⟨_, by norm_num, rfl⟩
  have hopt : OptDecimal (some (10 ^ 78 - 1).repr) := by
    intro s hs
    rw [← Option.some.inj hs]
    exact hamount
  have hinfo : ∀ s, some (String.ofList (List.replicate 128 'a')) = some s →
      len s ≤ MAX_INFO_FIELD_LEN := by
    intro s hs
    rw [← Option.some.inj hs]
    decide +kernel
  exact
    { «from» := haddress
      «to» := haddress
      value_wei := hamount
      data := hdata
      token_contract := by
        rintro _ ⟨⟩
        exact haddress
      token := by simp [largest]
      nonce := hopt
      fee :=
        { mode := iff_of_true rfl rfl
          required := by simp [RequiredFields, largest]
          gas_limit := hopt
          base_fee_per_gas := hopt
          max_priority_fee_per_gas := hopt
          max_fee_per_gas := hopt
          gas_price := hopt
          el := hopt
          rp := by
            rintro _ ⟨⟩
            exact ⟨⟨_, rfl, Hex.decode_encode _⟩, by decide, by decide, hinfo, hinfo, hinfo⟩ }
      evm := by simp [largest] }

theorem total_largest : total (largest none).texts = 1204 := by decide +kernel

/-- **What is kept of a payload.** All texts of an accepted transaction but its calldata take at
most 1204 bytes, which some payload uses up. The calldata has a bound on Ethereum, and on Tron it
is kept whatever it is. -/
theorem kept_of_payload (hhex : HexLaws cr) :
    IsGreatest {n | ∃ v p, validate cr v = .ok p ∧ total p.texts = n} 1204 ∧
      (∀ v p d, validate cr v = .ok p → p.chain = .Ethereum → p.data = some d → len d ≤ 138) ∧
      ∀ d, d ≠ "" → ∃ v p, validate cr v = .ok p ∧ p.chain = .Tron ∧ p.data = some d := by
  refine ⟨⟨?_, ?_⟩, ?_, ?_⟩
  · exact ⟨_, _, accepted_of_valid hhex (largest_valid (by simp)), total_largest⟩
  · rintro _ ⟨v, p, hvalid, rfl⟩
    exact total_texts_le ((validate_eq_ok hhex).1 hvalid).2
  · intro v p d hvalid hc hd
    exact len_data_le ((validate_eq_ok hhex).1 hvalid).2 hc hd
  · intro d hd
    exact ⟨_, largest (some d), accepted_of_valid hhex (largest_valid (by simpa using hd)), rfl,
      rfl⟩

/-- Calldata that is not even hexadecimal. -/
theorem tron_calldata_kept : ∃ v p, validate reference v = .ok p ∧ p.chain = .Tron ∧
    p.data = some "not calldata" :=
  (kept_of_payload reference_hex).2.2 "not calldata" (by decide)

end Kept

end TxCompiler
