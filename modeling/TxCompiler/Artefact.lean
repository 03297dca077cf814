/-
**Reading an artefact back.** `Meaning.decode` is one reader for the three formats the compiler
writes: the first byte selects a format, the strict RLP reader or the wire reader takes the bytes
apart, and the fields found are the meaning that was signed.

A signer that is handed an artefact has these bytes and nothing else. `decode_bytes` says that
they are enough: what was encoded is read back, whatever calldata it carries, so the meaning of
an artefact is a function of its bytes. The sizes that the formats can express are `Meaning.Fits`,
which unlike `Meaning.Wf` knows nothing of validation.
-/
import TxCompiler.Meaning

set_option autoImplicit false

namespace TxCompiler

open Rust

/-! ## Items and messages -/

/-- An integer of a pre-image has no leading zero. -/
def item_number : Rlp.Item → Option ℕ
  | .bytes bs => if bs.head? = some 0 then none else some (be_value bs)
  | .list _ => none

@[simp] theorem item_number_uint (n : ℕ) : item_number (Rlp.uint n) = some n := by
  rw [Rlp.uint, item_number, if_neg (be_min_head_ne_zero n), be_value_be_min]

/-- The nine items of an EIP-1559 transaction, the access list empty. -/
def eip1559_of_item : Rlp.Item → Option Meaning
  | .list [chain_id, nonce, max_priority_fee, max_fee, gas_limit, .bytes to_, value, .bytes input,
      .list []] => do
    let chain_id ← item_number chain_id
    let nonce ← item_number nonce
    let max_priority_fee ← item_number max_priority_fee
    let max_fee ← item_number max_fee
    let gas_limit ← item_number gas_limit
    let value ← item_number value
    some (.eip1559 chain_id nonce gas_limit max_fee max_priority_fee to_ value input)
  | _ => none

/-- The six items of a legacy transaction, and the three EIP-155 puts behind them. -/
def legacy_of_item : Rlp.Item → Option Meaning
  | .list [nonce, gas_price, gas_limit, .bytes to_, value, .bytes input, chain_id, .bytes [],
      .bytes []] => do
    let nonce ← item_number nonce
    let gas_price ← item_number gas_price
    let gas_limit ← item_number gas_limit
    let value ← item_number value
    let chain_id ← item_number chain_id
    some (.legacy chain_id nonce gas_limit gas_price to_ value input)
  | _ => none

/-- The recipient and the amount of a `transfer` call. -/
def transfer_of_calldata (data : List UInt8) : Option (List UInt8 × ℕ) :=
  if data.length = 68 ∧ data.take 16 = ERC20_TRANSFER_SELECTOR_BYTES ++ List.replicate 12 0 then
    some ((data.drop 16).take 20, be_value (data.drop 36))
  else none

/-- The message in the `Any`, by the contract type and the type URL around it. -/
def transfer_of_message (type : ℕ) (url : List UInt8) (entries : List Wire.Entry) :
    Option TronTransfer :=
  if type = 1 ∧ url = bytes TRANSFER_URL then
    match entries with
    | [⟨1, .len owner⟩, ⟨2, .len to_⟩, ⟨3, .varint amount⟩] => some (.native owner to_ amount)
    | _ => none
  else if type = 31 ∧ url = bytes TRIGGER_URL then
    match entries with
    | [⟨1, .len owner⟩, ⟨2, .len token⟩, ⟨4, .len data⟩] =>
      -- the call names the recipient without the prefix byte
      (transfer_of_calldata data).map fun (recipient, amount) =>
        .token owner (0x41 :: recipient) token amount
    | _ => none
  else none

/-- The three levels of a contract. -/
def transfer_of_contract (contract : List UInt8) : Option TronTransfer := do
  match ← Wire.parse contract with
  | [⟨1, .varint type⟩, ⟨2, .len any⟩] =>
    match ← Wire.parse any with
    | [⟨1, .len url⟩, ⟨2, .len message⟩] =>
      transfer_of_message type url (← Wire.parse message)
    | _ => none
  | _ => none

/-- Field 18 is the only one that may be missing. -/
def fee_limit_of_entries : List Wire.Entry → Option ℕ
  | [] => some 0
  | [⟨18, .varint fee_limit⟩] => some fee_limit
  | _ => none

/-- The meaning of a `raw_data` message, whose entries have one order. A message that expires at
another time than ten hours after its clock has none. -/
def tron_of_raw (raw : List UInt8) : Option Meaning := do
  match ← Wire.parse raw with
  | ⟨1, .len ref_block_bytes⟩ :: ⟨4, .len ref_block_hash⟩ :: ⟨8, .varint expiration⟩ ::
      ⟨11, .len contract⟩ :: ⟨14, .varint timestamp⟩ :: rest =>
    let fee_limit ← fee_limit_of_entries rest
    let transfer ← transfer_of_contract contract
    -- the two clock fields are one number
    if expiration = timestamp + 36000000 then
      some (.tron timestamp (be_value ref_block_bytes) ref_block_hash transfer fee_limit)
    else none
  | _ => none

/-- The type byte of EIP-1559 and the first tag of a Tron record are below every list header. -/
def Meaning.decode (raw : List UInt8) : Option Meaning :=
  match raw with
  | 0x02 :: body => (Rlp.decode body).bind eip1559_of_item
  | 0x0a :: _ => tron_of_raw raw
  | _ => (Rlp.decode raw).bind legacy_of_item

/-! ## What the formats can express -/

/-- The sizes an artefact can have: a Rust string is shorter than `2^63` bytes, and the calldata
it spells is shorter still. -/
def Meaning.Fits : Meaning → Prop
  | .eip1559 chain_id nonce gas_limit max_fee max_priority_fee to_ value input =>
    (∀ n ∈ [chain_id, nonce, gas_limit, max_fee, max_priority_fee, value], n < 2 ^ 256) ∧
      to_.length ≤ 68 ∧ input.length < 2 ^ 63
  | .legacy chain_id nonce gas_limit gas_price to_ value input =>
    (∀ n ∈ [chain_id, nonce, gas_limit, gas_price, value], n < 2 ^ 256) ∧
      to_.length ≤ 68 ∧ input.length < 2 ^ 63
  | .tron clock block_number block_hash transfer fee_limit =>
    (Meaning.tron clock block_number block_hash transfer fee_limit).Wf

section Sizes

variable {chain_id nonce gas_limit max_fee max_priority_fee gas_price value : ℕ}
  {to_ input : List UInt8}

/-- The calldata is the one long item, and eight short ones do not fill what it leaves. -/
theorem length_eip1559_of_fits
    (h : (Meaning.eip1559 chain_id nonce gas_limit max_fee max_priority_fee to_ value input).Fits) :
    (Rlp.encode (.list [Rlp.uint chain_id, Rlp.uint nonce, Rlp.uint max_priority_fee,
      Rlp.uint max_fee, Rlp.uint gas_limit, .bytes to_, Rlp.uint value, .bytes input,
      .list []])).length < 2 ^ 64 := by
  obtain ⟨hn, hto, hinput⟩ := h
  simp only [List.forall_mem_cons, List.not_mem_nil, false_imp_iff, implies_true, and_true] at hn
  obtain ⟨h1, h2, h3, h4, h5, h6⟩ := hn
  have l1 := length_uint_le h1
  have l2 := length_uint_le h2
  have l3 := length_uint_le h3
  have l4 := length_uint_le h4
  have l5 := length_uint_le h5
  have l6 := length_uint_le h6
  have lto := length_text_le hto
  have linput := @Rlp.length_encode_bytes_le input (by omega)
  have lempty : (Rlp.encode (.list [])).length ≤ 100 := by decide
  apply lt_of_le_of_lt (@Rlp.length_encode_list_le_sum _ (2 ^ 63 + 1000) _ (by norm_num))
    (by norm_num)
  simp only [List.map_cons, List.map_nil, List.sum_cons, List.sum_nil]
  omega

theorem length_legacy_of_fits
    (h : (Meaning.legacy chain_id nonce gas_limit gas_price to_ value input).Fits) :
    (Rlp.encode (.list [Rlp.uint nonce, Rlp.uint gas_price, Rlp.uint gas_limit, .bytes to_,
      Rlp.uint value, .bytes input, Rlp.uint chain_id, Rlp.uint 0, Rlp.uint 0])).length
        < 2 ^ 64 := by
  obtain ⟨hn, hto, hinput⟩ := h
  simp only [List.forall_mem_cons, List.not_mem_nil, false_imp_iff, implies_true, and_true] at hn
  obtain ⟨h1, h2, h3, h4, h5⟩ := hn
  have l0 : (Rlp.encode (Rlp.uint 0)).length ≤ 100 := length_uint_le (by decide)
  have l1 := length_uint_le h1
  have l2 := length_uint_le h2
  have l3 := length_uint_le h3
  have l4 := length_uint_le h4
  have l5 := length_uint_le h5
  have lto := length_text_le hto
  have linput := @Rlp.length_encode_bytes_le input (by omega)
  apply lt_of_le_of_lt (@Rlp.length_encode_list_le_sum _ (2 ^ 63 + 1000) _ (by norm_num))
    (by norm_num)
  simp only [List.map_cons, List.map_nil, List.sum_cons, List.sum_nil]
  omega

end Sizes

/-! ## What was encoded is read back -/

theorem uint_zero : Rlp.uint 0 = .bytes [] := by
  rw [Rlp.uint, be_min, if_pos rfl]

theorem eip1559_of_item_list (chain_id nonce gas_limit max_fee max_priority_fee : ℕ)
    (to_ : List UInt8) (value : ℕ) (input : List UInt8) :
    eip1559_of_item (.list [Rlp.uint chain_id, Rlp.uint nonce, Rlp.uint max_priority_fee,
      Rlp.uint max_fee, Rlp.uint gas_limit, .bytes to_, Rlp.uint value, .bytes input, .list []])
        = some (.eip1559 chain_id nonce gas_limit max_fee max_priority_fee to_ value input) := by
  simp only [eip1559_of_item, item_number_uint, Option.bind_eq_bind, Option.bind_some]

theorem legacy_of_item_list (chain_id nonce gas_limit gas_price : ℕ) (to_ : List UInt8)
    (value : ℕ) (input : List UInt8) :
    legacy_of_item (.list [Rlp.uint nonce, Rlp.uint gas_price, Rlp.uint gas_limit, .bytes to_,
      Rlp.uint value, .bytes input, Rlp.uint chain_id, Rlp.uint 0, Rlp.uint 0])
        = some (.legacy chain_id nonce gas_limit gas_price to_ value input) := by
  rw [uint_zero]
  simp only [legacy_of_item, item_number_uint, Option.bind_eq_bind, Option.bind_some]

/-- A token transfer is read back from its calldata, by position. -/
theorem transfer_of_calldata_eq {recipient : List UInt8} {amount : ℕ} (h20 : recipient.length = 20)
    (hamount : amount < 2 ^ 256) :
    transfer_of_calldata (transfer_calldata recipient (to_be_bytes 32 amount))
      = some (recipient, amount) := by
  have hlen := length_transfer_calldata h20 (length_to_be_bytes 32 amount)
  have hhead : (ERC20_TRANSFER_SELECTOR_BYTES ++ List.replicate 12 (0 : UInt8)).length = 16 := rfl
  -- the layout is cut at 16 and at 36
  have hcut : transfer_calldata recipient (to_be_bytes 32 amount)
      = (ERC20_TRANSFER_SELECTOR_BYTES ++ List.replicate 12 0) ++
        (recipient ++ to_be_bytes 32 amount) := by
    simp only [transfer_calldata, List.append_assoc]
  have hword : (transfer_calldata recipient (to_be_bytes 32 amount)).drop 36
      = to_be_bytes 32 amount := by
    rw [transfer_calldata, List.drop_left' (by simp [ERC20_TRANSFER_SELECTOR_BYTES, h20])]
  rw [transfer_of_calldata, hword, be_value_to_be_bytes (lt_of_lt_of_eq hamount (by norm_num)),
    hcut, List.take_left' hhead, List.drop_left' hhead, List.take_left' h20, ← hcut,
    if_pos ⟨hlen, rfl⟩]

theorem transfer_of_message_eq {x : TronTransfer} (h : x.Wf) :
    transfer_of_message x.contract.type (bytes x.contract.url) x.contract.entries = some x := by
  cases x with
  | native from_ to_ amount => rfl
  | token from_ to_ token_bytes amount =>
    obtain ⟨-, hto, -, hamount⟩ := h
    have h20 : (to_.drop 1).length = 20 := by
      rw [List.length_drop, hto.1]
    show (transfer_of_calldata (transfer_calldata (to_.drop 1) (to_be_bytes 32 amount))).map _ = _
    rw [transfer_of_calldata_eq h20 hamount, Option.map_some]
    dsimp only
    rw [← hto.eq_cons]

/-- A transfer is read back from the two messages it is wrapped in. -/
theorem transfer_of_contract_eq {x : TronTransfer} (h : x.Wf) :
    transfer_of_contract x.contract.bytes = some x := by
  have hwf := TronTransfer.contract_wf h
  unfold transfer_of_contract
  -- the contract, the `Any` in it, and the message in that
  rw [Contract.parse_bytes hwf, Option.bind_eq_bind, Option.bind_some]
  show (Wire.parse (Wire.serialise
    (any_entries x.contract.url (Wire.serialise x.contract.entries)))).bind _ = _
  rw [Contract.parse_any hwf, Option.bind_some]
  show (Wire.parse (Wire.serialise x.contract.entries)).bind _ = _
  rw [Contract.parse_entries hwf, Option.bind_some]
  exact transfer_of_message_eq h

/-- A meaning is read back from its `raw_data`. -/
theorem tron_of_raw_bytes {clock block_number fee_limit : ℕ} {block_hash : List UInt8}
    {transfer : TronTransfer}
    (h : (Meaning.tron clock block_number block_hash transfer fee_limit).Wf) :
    tron_of_raw (tron_raw clock block_number block_hash transfer fee_limit).bytes
      = some (.tron clock block_number block_hash transfer fee_limit) := by
  have hwf := tron_raw_wf h
  obtain ⟨-, hblock, -, htransfer, -⟩ := h
  have hlimit : fee_limit_of_entries
      (if fee_limit = 0 then [] else [⟨18, .varint fee_limit⟩]) = some fee_limit := by
    by_cases h0 : fee_limit = 0
    · rw [if_pos h0, h0]
      rfl
    · rw [if_neg h0]
      rfl
  have hnumber : be_value (to_be_bytes 2 block_number) = block_number :=
    be_value_to_be_bytes (lt_of_lt_of_eq hblock (by norm_num))
  unfold tron_of_raw
  rw [RawData.parse_bytes hwf, Option.bind_eq_bind, Option.bind_some]
  simp only [RawData.entries, raw_data_entries, tron_raw, List.cons_append, List.nil_append,
    transfer_of_contract_eq htransfer, hnumber, Option.bind_eq_bind, Option.bind_some, if_true]
  exact Option.bind_eq_some_iff.2 ⟨fee_limit, hlimit, rfl⟩

/-- **Reading undoes writing**, for every meaning the formats can express. -/
theorem Meaning.decode_bytes {m : Meaning} (h : m.Fits) : Meaning.decode m.bytes = some m := by
  cases m with
  | eip1559 chain_id nonce gas_limit max_fee max_priority_fee to_ value input =>
    rw [bytes, decode, Rlp.decode_encode (length_eip1559_of_fits h), Option.bind_some,
      eip1559_of_item_list]
  | legacy chain_id nonce gas_limit gas_price to_ value input =>
    have hlen := length_legacy_of_fits h
    obtain ⟨head, rest, hhead, hge⟩ := Rlp.encode_list_head hlen
    have hdec := Rlp.decode_encode hlen
    -- a list header is none of the two bytes the other formats start with
    have h2 : head ≠ 0x02 := by
      rintro rfl
      exact absurd hge (by decide)
    have h10 : head ≠ 0x0a := by
      rintro rfl
      exact absurd hge (by decide)
    rw [bytes, hhead] at *
    unfold decode
    split
    · next heq => exact absurd (List.cons.inj heq).1 h2
    · next heq => exact absurd (List.cons.inj heq).1 h10
    · rw [hdec, Option.bind_some, legacy_of_item_list]
  | tron clock block_number block_hash transfer fee_limit =>
    obtain ⟨rest, hrest⟩ := (tron_raw clock block_number block_hash transfer fee_limit).bytes_head
    have hdec := tron_of_raw_bytes h
    rw [bytes, hrest] at *
    exact hdec

end TxCompiler
