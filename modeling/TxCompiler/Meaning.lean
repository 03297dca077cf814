/-
**Signing bytes identify the meaning and ignore the spelling.**

A `Meaning` is what a transaction does: numbers, decoded addresses and calldata, with the
spelling of every field and all informational fields gone. `Meaning.Of` relates a transaction to its
meaning by the grammars of addresses, calldata and amounts. The encoding `Meaning.bytes` is defined
on meanings alone, and two facts carry the result. Compilation factors through it: the
artefact of a validated transaction is the encoding of its meaning (`compile_means`), which
is the half that says spelling is ignored. And the encoding is injective (`bytes_inj`): each
of the three formats is decodable, and their first bytes tell them apart, `0x02` for
EIP-1559, at least `0xc0` for legacy and `0x0a` for Tron.

The last section says the first half again for texts: two payloads whose members differ in the
spelling of an address, in the case of hexadecimal digits, in string or number, or in what is only
informational have the same signing bytes.
-/
import TxCompiler.EvmSigned

set_option autoImplicit false

namespace TxCompiler

open Rust Json

/-! ## Meanings -/

/-- A transfer on Tron, its addresses as bytes. -/
inductive TronTransfer where
  | native (from_ to_ : List UInt8) (amount : ℕ)
  | token (from_ to_ token_bytes : List UInt8) (amount : ℕ)
  deriving DecidableEq

/-- What a transaction does, in one of the three formats. -/
inductive Meaning where
  | eip1559 (chain_id nonce gas_limit max_fee max_priority_fee : ℕ) (to_ : List UInt8) (value : ℕ)
      (input : List UInt8)
  | legacy (chain_id nonce gas_limit gas_price : ℕ) (to_ : List UInt8) (value : ℕ)
      (input : List UInt8)
  | tron (clock block_number : ℕ) (block_hash : List UInt8) (transfer : TronTransfer)
      (fee_limit : ℕ)
  deriving DecidableEq

/-- The transfer of a Tron transaction, with its addresses as the bytes they spell. -/
def TronTransfer.Of (cr : Crates) (p : PreparedTransaction) : TronTransfer → Prop
  | .native from_ to_ amount =>
    p.tx_type = .TransferNative ∧ SpellsTron cr p.«from» from_ ∧ SpellsTron cr p.«to» to_ ∧
      amount = decimal_value p.value_wei
  | .token from_ to_ token_bytes amount =>
    p.tx_type = .TransferToken ∧ SpellsTron cr p.«from» from_ ∧ SpellsTron cr p.«to» to_ ∧
      (∃ token, p.token_contract = some token ∧ SpellsTron cr token token_bytes) ∧
      amount = decimal_value p.value_wei

/-- The part of the reference block that is signed: two bytes of its number and eight of its
hash. -/
def RefersTo (fee : FeeParams) (block_number : ℕ) (block_hash : List UInt8) : Prop :=
  ∃ header block_id, fee.rp = some header ∧ Hex.decode (bytes header.h) = some block_id ∧
    block_number = header.n.toNat % 2 ^ 16 ∧ block_hash = (block_id.drop 8).take 8

/-- What a transaction means at clock `t`, which only Tron looks at. Addresses and calldata are
related to their bytes by the grammars, not by the decoders of the crate; a fee limit that is
absent is a limit of zero. -/
def Meaning.Of (cr : Crates) (p : PreparedTransaction) (t : UInt64) : Meaning → Prop
  | .eip1559 chain_id nonce gas_limit max_fee max_priority_fee to_ value input =>
    p.chain = .Ethereum ∧ p.fee.mode = .Eip1559 ∧ chain_id = chain_id_value p ∧
      nonce = opt_value p.nonce ∧ gas_limit = opt_value p.fee.gas_limit ∧
      max_fee = opt_value p.fee.max_fee_per_gas ∧
      max_priority_fee = opt_value p.fee.max_priority_fee_per_gas ∧ SpellsEvm p.«to» to_ ∧
      value = decimal_value p.value_wei ∧ SpellsCalldata p.data input
  | .legacy chain_id nonce gas_limit gas_price to_ value input =>
    p.chain = .Ethereum ∧ p.fee.mode = .Legacy ∧ chain_id = chain_id_value p ∧
      nonce = opt_value p.nonce ∧ gas_limit = opt_value p.fee.gas_limit ∧
      gas_price = opt_value (effective_gas_price p.fee) ∧ SpellsEvm p.«to» to_ ∧
      value = decimal_value p.value_wei ∧ SpellsCalldata p.data input
  | .tron clock block_number block_hash transfer fee_limit =>
    p.chain = .Tron ∧ clock = t.toNat ∧ RefersTo p.fee block_number block_hash ∧
      transfer.Of cr p ∧ fee_limit = opt_value p.fee.el

/-! ## The encoding -/

/-- The contract that carries out the transfer. -/
def TronTransfer.contract : TronTransfer → Contract
  | .native from_ to_ amount => .transfer from_ to_ amount
  | .token from_ to_ token_bytes amount =>
    .trigger from_ token_bytes (transfer_calldata (to_.drop 1) (to_be_bytes 32 amount))

/-- The `raw_data` message of a transfer at this clock. -/
def tron_raw (clock block_number : ℕ) (block_hash : List UInt8) (transfer : TronTransfer)
    (fee_limit : ℕ) : RawData :=
  { ref_block_bytes := to_be_bytes 2 block_number
    ref_block_hash := block_hash
    expiration := clock + 36000000
    contract := transfer.contract
    timestamp := clock
    fee_limit }

/-- **The encoding of a meaning.** It looks at no text, and follows the formats and not the code of
the compiler. -/
def Meaning.bytes : Meaning → List UInt8
  | .eip1559 chain_id nonce gas_limit max_fee max_priority_fee to_ value input =>
    0x02 :: Rlp.encode (.list [Rlp.uint chain_id, Rlp.uint nonce, Rlp.uint max_priority_fee,
      Rlp.uint max_fee, Rlp.uint gas_limit, .bytes to_, Rlp.uint value, .bytes input, .list []])
  | .legacy chain_id nonce gas_limit gas_price to_ value input =>
    Rlp.encode (.list [Rlp.uint nonce, Rlp.uint gas_price, Rlp.uint gas_limit, .bytes to_,
      Rlp.uint value, .bytes input, Rlp.uint chain_id, Rlp.uint 0, Rlp.uint 0])
  | .tron clock block_number block_hash transfer fee_limit =>
    (tron_raw clock block_number block_hash transfer fee_limit).bytes

/-! ## One encoding, one meaning -/

/-- Addresses and amounts that the encoding keeps apart. -/
def TronTransfer.Wf : TronTransfer → Prop
  | .native from_ to_ amount => IsTronBytes from_ ∧ IsTronBytes to_ ∧ amount < 2 ^ 64
  | .token from_ to_ token_bytes amount =>
    IsTronBytes from_ ∧ IsTronBytes to_ ∧ IsTronBytes token_bytes ∧ amount < 2 ^ 256

/-- The sizes every range check leaves. -/
def Meaning.Wf : Meaning → Prop
  | .eip1559 chain_id nonce gas_limit max_fee max_priority_fee to_ value input =>
    (∀ n ∈ [chain_id, nonce, gas_limit, max_fee, max_priority_fee, value], n < 2 ^ 256) ∧
      to_.length ≤ 68 ∧ input.length ≤ 68
  | .legacy chain_id nonce gas_limit gas_price to_ value input =>
    (∀ n ∈ [chain_id, nonce, gas_limit, gas_price, value], n < 2 ^ 256) ∧
      to_.length ≤ 68 ∧ input.length ≤ 68
  | .tron clock block_number block_hash transfer fee_limit =>
    clock + 36000000 < 2 ^ 64 ∧ block_number < 2 ^ 16 ∧ block_hash.length = 8 ∧ transfer.Wf ∧
      fee_limit < 2 ^ 64

/-- Tron bytes are the one after the prefix byte. -/
theorem IsTronBytes.eq_cons {bs : List UInt8} (h : IsTronBytes bs) : bs = 0x41 :: bs.drop 1 := by
  obtain ⟨-, hhead⟩ := h
  cases bs with
  | nil => simp at hhead
  | cons b bs =>
    obtain rfl : b = 0x41 := by simpa using hhead
    rfl

theorem TronTransfer.contract_wf {x : TronTransfer} (h : x.Wf) : x.contract.Wf := by
  cases x with
  | native from_ to_ amount =>
    obtain ⟨⟨h1, -⟩, ⟨h2, -⟩, h3⟩ := h
    refine ⟨?_, h3⟩
    rw [h1, h2]
    decide
  | token from_ to_ token_bytes amount =>
    obtain ⟨⟨h1, -⟩, ⟨h2, -⟩, ⟨h3, -⟩, -⟩ := h
    have hlen : (transfer_calldata (to_.drop 1) (to_be_bytes 32 amount)).length = 68 :=
      length_transfer_calldata (by simp [h2]) (by simp)
    show from_.length + token_bytes.length + _ < 2 ^ 60
    rw [h1, h3, hlen]
    decide

theorem TronTransfer.contract_inj {x y : TronTransfer} (hx : x.Wf) (hy : y.Wf)
    (h : x.contract = y.contract) : x = y := by
  cases x with
  | native from_ to_ amount =>
    cases y with
    | native from' to' amount' => simpa [TronTransfer.contract] using h
    | token from' to' token' amount' => simp [TronTransfer.contract] at h
  | token from_ to_ token_bytes amount =>
    cases y with
    | native from' to' amount' => simp [TronTransfer.contract] at h
    | token from' to' token' amount' =>
      obtain ⟨-, hto, -, hamount⟩ := hx
      obtain ⟨-, hto', -, hamount'⟩ := hy
      simp only [TronTransfer.contract, Contract.trigger.injEq, transfer_calldata] at h
      obtain ⟨hfrom, htoken, hdata⟩ := h
      -- selector, padding and recipient before the 32-byte word of the amount
      obtain ⟨hhead, hword⟩ := List.append_inj' hdata (by simp)
      have htail := List.append_cancel_left hhead
      have hvalue : amount = amount' := by
        rw [← @be_value_to_be_bytes 32 amount (lt_of_lt_of_eq hamount (by norm_num)), hword,
          be_value_to_be_bytes (lt_of_lt_of_eq hamount' (by norm_num))]
      rw [hfrom, htoken, hvalue, hto.eq_cons, hto'.eq_cons, htail]

theorem tron_raw_wf {clock block_number fee_limit : ℕ} {block_hash : List UInt8}
    {transfer : TronTransfer}
    (h : (Meaning.tron clock block_number block_hash transfer fee_limit).Wf) :
    (tron_raw clock block_number block_hash transfer fee_limit).Wf := by
  obtain ⟨htime, -, hhash, htransfer, hfee⟩ := h
  refine ⟨length_to_be_bytes .., hhash, htime, TronTransfer.contract_wf htransfer, ?_, hfee⟩
  show clock < 2 ^ 64
  omega

/-! The three formats are told apart by the first byte. -/

/-- The first byte of the encoding, with those of a list of RLP taken together. -/
def Meaning.format : Meaning → ℕ
  | .eip1559 .. => 2
  | .legacy .. => 0
  | .tron .. => 10

/-- The format a first byte announces. -/
def format_of (head : UInt8) : ℕ := if 0xc0 ≤ head.toNat then 0 else head.toNat

theorem Meaning.bytes_head {m : Meaning} (h : m.Wf) :
    ∃ head rest, m.bytes = head :: rest ∧ format_of head = m.format := by
  cases m with
  | eip1559 chain_id nonce gas_limit max_fee max_priority_fee to_ value input =>
    exact ⟨0x02, _, rfl, rfl⟩
  | legacy chain_id nonce gas_limit gas_price to_ value input =>
    obtain ⟨head, rest, hhead, hge⟩ := Rlp.encode_list_head (length_legacy_lt h.1 h.2.1 h.2.2)
    exact ⟨head, rest, hhead, if_pos hge⟩
  | tron clock block_number block_hash transfer fee_limit =>
    obtain ⟨rest, hrest⟩ := (tron_raw clock block_number block_hash transfer fee_limit).bytes_head
    exact ⟨0x0a, rest, hrest, rfl⟩

theorem Meaning.format_eq {m m' : Meaning} (h : m.Wf) (h' : m'.Wf) (heq : m.bytes = m'.bytes) :
    m.format = m'.format := by
  obtain ⟨head, rest, hb, hhead⟩ := bytes_head h
  obtain ⟨head', rest', hb', hhead'⟩ := bytes_head h'
  rw [heq, hb', List.cons.injEq] at hb
  rw [← hhead, ← hhead', hb.1]

theorem tron_raw_inj {clock clock' block_number block_number' fee_limit fee_limit' : ℕ}
    {block_hash block_hash' : List UInt8} {transfer transfer' : TronTransfer}
    (h : (Meaning.tron clock block_number block_hash transfer fee_limit).Wf)
    (h' : (Meaning.tron clock' block_number' block_hash' transfer' fee_limit').Wf)
    (heq : tron_raw clock block_number block_hash transfer fee_limit
      = tron_raw clock' block_number' block_hash' transfer' fee_limit') :
    Meaning.tron clock block_number block_hash transfer fee_limit
      = Meaning.tron clock' block_number' block_hash' transfer' fee_limit' := by
  obtain ⟨-, hblock, -, htransfer, -⟩ := h
  obtain ⟨-, hblock', -, htransfer', -⟩ := h'
  simp only [tron_raw, RawData.mk.injEq] at heq
  obtain ⟨hnumber, hhash, -, hcontract, htime, hfee⟩ := heq
  -- two bytes hold the block number modulo `2^16`, and it is below that
  have hnumber' : block_number = block_number' := by
    rw [← @be_value_to_be_bytes 2 block_number (lt_of_lt_of_eq hblock (by norm_num)), hnumber,
      be_value_to_be_bytes (lt_of_lt_of_eq hblock' (by norm_num))]
  rw [hnumber', hhash, htime, hfee, TronTransfer.contract_inj htransfer htransfer' hcontract]

/-- **One encoding, one meaning.** -/
theorem Meaning.bytes_inj {m m' : Meaning} (h : m.Wf) (h' : m'.Wf) (heq : m.bytes = m'.bytes) :
    m = m' := by
  have hformat := format_eq h h' heq
  cases m with
  | eip1559 chain_id nonce gas_limit max_fee max_priority_fee to_ value input =>
    cases m' with
    | eip1559 chain_id' nonce' gas_limit' max_fee' max_priority_fee' to' value' input' =>
      -- a struct is the list of its items: the numbers are read back from the minimal byte
      -- strings, the rest is carried as it is
      have hitems := Rlp.encode_inj (length_eip1559_lt h.1 h.2.1 h.2.2)
        (length_eip1559_lt h'.1 h'.2.1 h'.2.2) (List.cons.inj heq).2
      simp only [Rlp.Item.list.injEq, List.cons.injEq, Rlp.Item.bytes.injEq, and_true] at hitems
      obtain ⟨h1, h2, h3, h4, h5, h6, h7, h8⟩ := hitems
      rw [Rlp.uint_inj h1, Rlp.uint_inj h2, Rlp.uint_inj h3, Rlp.uint_inj h4, Rlp.uint_inj h5, h6,
        Rlp.uint_inj h7, h8]
    | legacy => simp [format] at hformat
    | tron => simp [format] at hformat
  | legacy chain_id nonce gas_limit gas_price to_ value input =>
    cases m' with
    | eip1559 => simp [format] at hformat
    | legacy chain_id' nonce' gas_limit' gas_price' to' value' input' =>
      have hitems := Rlp.encode_inj (length_legacy_lt h.1 h.2.1 h.2.2)
        (length_legacy_lt h'.1 h'.2.1 h'.2.2) heq
      simp only [Rlp.Item.list.injEq, List.cons.injEq, Rlp.Item.bytes.injEq, and_true] at hitems
      obtain ⟨h1, h2, h3, h4, h5, h6, h7⟩ := hitems
      rw [Rlp.uint_inj h1, Rlp.uint_inj h2, Rlp.uint_inj h3, h4, Rlp.uint_inj h5, h6,
        Rlp.uint_inj h7]
    | tron => simp [format] at hformat
  | tron clock block_number block_hash transfer fee_limit =>
    cases m' with
    | eip1559 => simp [format] at hformat
    | legacy => simp [format] at hformat
    | tron clock' block_number' block_hash' transfer' fee_limit' =>
      exact tron_raw_inj h h' (RawData.bytes_inj (tron_raw_wf h) (tron_raw_wf h') heq)

/-! ## Two transactions of one meaning -/

section Respelled

variable {cr : Crates} {p p' : PreparedTransaction} {t t' : UInt64} {m m' : Meaning}

/-- The same hexadecimal digits, in other letters and with or without `0x`. -/
def SameDigits (s s' : String) : Prop :=
  (bytes (strip_0x s)).map lowercase_byte = (bytes (strip_0x s')).map lowercase_byte

/-- Two texts of one Tron address: hexadecimal in other letters or behind another prefix, or any
two that spell the same bytes, such as one in hexadecimal and one in base58check. -/
inductive SameTron (cr : Crates) (s s' : String) : Prop
  | same (h : s' = s)
  | digits (hT : (bytes s).head? ≠ some 0x54) (hd : SameDigits s s')
  | forms {bs : List UInt8} (h : SpellsTron cr s bs) (h' : SpellsTron cr s' bs)

/-- An Ethereum transaction in other words. `from`, the token contract, the base fee, the fields
of the other modes and all of Tron's are not compared. -/
structure RespelledEvm (p p' : PreparedTransaction) : Prop where
  chain : p.chain = .Ethereum ∧ p'.chain = .Ethereum
  chain_id : p'.chain_id = p.chain_id
  nonce : p'.nonce = p.nonce
  mode : p'.fee.mode = p.fee.mode
  gas_limit : p'.fee.gas_limit = p.fee.gas_limit
  eip1559 : p.fee.mode = .Eip1559 → p'.fee.max_fee_per_gas = p.fee.max_fee_per_gas ∧
    p'.fee.max_priority_fee_per_gas = p.fee.max_priority_fee_per_gas
  legacy : p.fee.mode = .Legacy → effective_gas_price p'.fee = effective_gas_price p.fee
  «to» : SameDigits p.«to» p'.«to»
  value_wei : p'.value_wei = p.value_wei
  data : SameDigits (p.data.getD "") (p'.data.getD "")

/-- A Tron transaction in other words. Of the block header the low bits of the number and sixteen
digits of the hash are compared; the rest of it is not, nor the token contract of a native
transfer, nor any field of Ethereum. -/
structure RespelledTron (cr : Crates) (p p' : PreparedTransaction) : Prop where
  chain : p.chain = .Tron ∧ p'.chain = .Tron
  tx_type : p'.tx_type = p.tx_type
  «from» : SameTron cr p.«from» p'.«from»
  «to» : SameTron cr p.«to» p'.«to»
  token : p.tx_type = .TransferToken → ∀ token token', p.token_contract = some token →
    p'.token_contract = some token' → SameTron cr token token'
  value_wei : p'.value_wei = p.value_wei
  rp : ∀ header header', p.fee.rp = some header → p'.fee.rp = some header' →
    header'.n.toNat % 2 ^ 16 = header.n.toNat % 2 ^ 16 ∧
      (((bytes header'.h).drop 16).take 16).map lowercase_byte
        = (((bytes header.h).drop 16).take 16).map lowercase_byte
  el : opt_value p'.fee.el = opt_value p.fee.el

theorem SameDigits.decode {s s' : String} (h : SameDigits s s') :
    Hex.decode (bytes (strip_0x s')) = Hex.decode (bytes (strip_0x s)) := by
  rw [← Hex.decode_lowercase, ← h, Hex.decode_lowercase]

theorem SameDigits.evm {s s' : String} {bs bs' : List UInt8} (hd : SameDigits s s')
    (h : SpellsEvm s bs) (h' : SpellsEvm s' bs') : bs' = bs := by
  have hdec := h'.decode
  rw [hd.decode, h.decode] at hdec
  exact (Option.some.inj hdec).symm

theorem spellsCalldata_iff {data : Option String} {input : List UInt8} :
    SpellsCalldata data input ↔ Hex.decode (bytes (strip_0x (data.getD ""))) = some input := by
  rw [← calldata_bytes_eq_some]
  cases data with
  | none => exact Iff.rfl
  | some d => exact Iff.rfl

theorem SameDigits.calldata {data data' : Option String} {input input' : List UInt8}
    (hd : SameDigits (data.getD "") (data'.getD "")) (h : SpellsCalldata data input)
    (h' : SpellsCalldata data' input') : input' = input := by
  rw [spellsCalldata_iff] at h h'
  rw [hd.decode, h] at h'
  exact (Option.some.inj h').symm

theorem SameTron.bytes_eq {s s' : String} {bs bs' : List UInt8} (hs : SameTron cr s s')
    (h : SpellsTron cr s bs) (h' : SpellsTron cr s' bs') : bs' = bs := by
  cases hs with
  | same heq => exact h'.unique (heq ▸ h)
  | forms hspell hspell' => rw [h'.unique hspell', h.unique hspell]
  | digits hT hd =>
    -- a hexadecimal text and its digits spell the same address
    obtain ⟨hshape, hhex | ⟨hhead, -⟩⟩ := h
    · rw [← decode_strip_0x, ← hd.decode, decode_strip_0x] at hhex
      exact h'.unique ⟨hshape, .inl hhex⟩
    · exact absurd hhead hT

theorem RespelledEvm.same_meaning (hr : RespelledEvm p p') (h : m.Of cr p t)
    (h' : m'.Of cr p' t') : m' = m := by
  obtain ⟨hc, hc'⟩ := hr.chain
  cases m with
  | tron => exact absurd (h.1.symm.trans hc) (by decide)
  | eip1559 chain_id nonce gas_limit max_fee max_priority_fee to_ value input =>
    obtain ⟨-, hmode, rfl, rfl, rfl, rfl, rfl, hto, rfl, hinput⟩ := h
    obtain ⟨hmax, hpriority⟩ := hr.eip1559 hmode
    cases m' with
    | tron => exact absurd (h'.1.symm.trans hc') (by decide)
    | legacy => exact absurd (h'.2.1.symm.trans (hr.mode.trans hmode)) (by decide)
    | eip1559 chain_id' nonce' gas_limit' max_fee' max_priority_fee' to' value' input' =>
      obtain ⟨-, -, rfl, rfl, rfl, rfl, rfl, hto', rfl, hinput'⟩ := h'
      rw [hr.to.evm hto hto', hr.data.calldata hinput hinput', hr.nonce, hr.gas_limit, hmax,
        hpriority, hr.value_wei, chain_id_value, hr.chain_id]
      rfl
  | legacy chain_id nonce gas_limit gas_price to_ value input =>
    obtain ⟨-, hmode, rfl, rfl, rfl, rfl, hto, rfl, hinput⟩ := h
    have hprice := hr.legacy hmode
    cases m' with
    | tron => exact absurd (h'.1.symm.trans hc') (by decide)
    | eip1559 => exact absurd (h'.2.1.symm.trans (hr.mode.trans hmode)) (by decide)
    | legacy chain_id' nonce' gas_limit' gas_price' to' value' input' =>
      obtain ⟨-, -, rfl, rfl, rfl, rfl, hto', rfl, hinput'⟩ := h'
      rw [hr.to.evm hto hto', hr.data.calldata hinput hinput', hr.nonce, hr.gas_limit, hprice,
        hr.value_wei, chain_id_value, hr.chain_id]
      rfl

/-- Eight bytes of a hash are sixteen of its digits. -/
theorem block_hash_of_digits {digits digits' block_id block_id' : List UInt8}
    (hdec : Hex.decode digits = some block_id) (hdec' : Hex.decode digits' = some block_id')
    (h : ((digits'.drop 16).take 16).map lowercase_byte
      = ((digits.drop 16).take 16).map lowercase_byte) :
    (block_id'.drop 8).take 8 = (block_id.drop 8).take 8 := by
  have hpart := (Hex.decode_split (Hex.decode_split hdec 8).2 8).1
  have hpart' := (Hex.decode_split (Hex.decode_split hdec' 8).2 8).1
  exact (Hex.decode_eq_iff_lowercase hpart' hpart).2 h

theorem RespelledTron.same_transfer (hr : RespelledTron cr p p') {x y : TronTransfer}
    (h : x.Of cr p) (h' : y.Of cr p') : y = x := by
  cases x with
  | native from_ to_ amount =>
    obtain ⟨htx, hfrom, hto, rfl⟩ := h
    cases y with
    | token => exact absurd (h'.1.symm.trans (hr.tx_type.trans htx)) (by decide)
    | native from' to' amount' =>
      obtain ⟨-, hfrom', hto', rfl⟩ := h'
      rw [hr.from.bytes_eq hfrom hfrom', hr.to.bytes_eq hto hto', hr.value_wei]
  | token from_ to_ token_bytes amount =>
    obtain ⟨htx, hfrom, hto, ⟨token, htoken, hbytes⟩, rfl⟩ := h
    cases y with
    | native => exact absurd (h'.1.symm.trans (hr.tx_type.trans htx)) (by decide)
    | token from' to' token_bytes' amount' =>
      obtain ⟨-, hfrom', hto', ⟨token', htoken', hbytes'⟩, rfl⟩ := h'
      rw [hr.from.bytes_eq hfrom hfrom', hr.to.bytes_eq hto hto',
        (hr.token htx token token' htoken htoken').bytes_eq hbytes hbytes', hr.value_wei]

theorem RespelledTron.same_meaning (hr : RespelledTron cr p p') (h : m.Of cr p t)
    (h' : m'.Of cr p' t) : m' = m := by
  obtain ⟨hc, hc'⟩ := hr.chain
  cases m with
  | eip1559 => exact absurd (h.1.symm.trans hc) (by decide)
  | legacy => exact absurd (h.1.symm.trans hc) (by decide)
  | tron clock block_number block_hash transfer fee_limit =>
    cases m' with
    | eip1559 => exact absurd (h'.1.symm.trans hc') (by decide)
    | legacy => exact absurd (h'.1.symm.trans hc') (by decide)
    | tron clock' block_number' block_hash' transfer' fee_limit' =>
      obtain ⟨-, rfl, ⟨header, block_id, hrp, hdec, rfl, rfl⟩, htransfer, rfl⟩ := h
      obtain ⟨-, rfl, ⟨header', block_id', hrp', hdec', rfl, rfl⟩, htransfer', rfl⟩ := h'
      obtain ⟨hn, hdigits⟩ := hr.rp header header' hrp hrp'
      rw [hn, block_hash_of_digits hdec hdec' hdigits, hr.same_transfer htransfer htransfer', hr.el]

/-- A transaction is one of its own spellings, so it has one meaning. -/
theorem Meaning.Of.unique (h : m.Of cr p t) (h' : m'.Of cr p t) : m' = m := by
  cases hc : p.chain with
  | Ethereum =>
    have hr : RespelledEvm p p :=
      ⟨⟨hc, hc⟩, rfl, rfl, rfl, rfl, fun _ => ⟨rfl, rfl⟩, fun _ => rfl, rfl, rfl, rfl⟩
    exact hr.same_meaning h h'
  | Tron =>
    have hr : RespelledTron cr p p := by
      refine ⟨⟨hc, hc⟩, rfl, .same rfl, .same rfl, fun _ token token' htoken htoken' => ?_, rfl,
        fun header header' hrp hrp' => ?_, rfl⟩
      · exact .same (Option.some.inj (htoken'.symm.trans htoken))
      · obtain rfl := Option.some.inj (hrp'.symm.trans hrp)
        exact ⟨rfl, rfl⟩
    exact hr.same_meaning h h'

theorem Meaning.Of.iff_eq (h : m.Of cr p t) (x : Meaning) : x.Of cr p t ↔ x = m := by
  constructor
  · exact h.unique
  · rintro rfl
    exact h

end Respelled

/-! ## Compilation factors through the meaning -/

section Compilation

variable {cr : Crates} {v : Value} {p : PreparedTransaction} {t : UInt64}
  {res : CompilationResult}

theorem calldata_of_input (hv : ValidEvm p) {input : List UInt8} (h : SpellsInput p input) :
    SpellsCalldata p.data input := by
  unfold SpellsInput at h
  cases htx : p.tx_type with
  | TransferNative =>
    rw [htx] at h
    rw [h]
    -- validation leaves a native transfer no calldata but the empty spellings
    exact spellsCalldata_of_empty (hv.native htx)
  | TransferToken =>
    rw [htx] at h
    obtain ⟨data, recipient, amount, hdata, hs, rfl⟩ := h
    rw [hdata]
    exact hs.spellsCalldata

/-- The transfer of a Tron transaction, and the contract it is compiled to. -/
theorem transfer_of_parts {parts : TronParts} (hp : parts.Of cr p)
    (h : ∀ c ∈ amount_checks p, c.1 = false) :
    ∃ transfer : TronTransfer, transfer.Of cr p ∧ transfer.Wf ∧
      transfer.contract = parts.contract p := by
  have hlt := amount_below h
  unfold TronParts.contract
  cases htx : p.tx_type with
  | TransferNative =>
    rw [htx] at hlt
    exact ⟨.native parts.owner parts.to_ (decimal_value p.value_wei),
      ⟨htx, hp.owner, hp.to_, rfl⟩, ⟨hp.owner.1, hp.to_.1, hlt⟩, rfl⟩
  | TransferToken =>
    rw [htx] at hlt
    obtain ⟨token, htc, htoken⟩ := hp.token htx
    exact ⟨.token parts.owner parts.to_ parts.token (decimal_value p.value_wei),
      ⟨htx, hp.owner, hp.to_, ⟨token, htc, htoken⟩, rfl⟩,
      ⟨hp.owner.1, hp.to_.1, htoken.1, hlt⟩, rfl⟩

theorem compile_tron_means (hhex : HexLaws cr) (hu256 : U256Laws cr) (hv : Valid cr p)
    (hc : p.chain = .Tron) (hres : compile cr p (.with_now t) = .ok res) :
    ∃ m : Meaning, m.Of cr p t ∧ m.Wf ∧ res.unsigned_tx = "0x" ++ cr.hex_encode m.bytes := by
  obtain ⟨parts, hp, hwf, hall, rfl⟩ := tron_artefact hhex hu256 hv hc hres
  obtain ⟨transfer, htransfer, hwft, hcontract⟩ :=
    transfer_of_parts hp (tron_checks_passed hall).1
  refine ⟨.tron t.toNat (parts.header.n.toNat % 2 ^ 16) ((parts.block_id.drop 8).take 8) transfer
    (opt_value p.fee.el), ?_, ?_, ?_⟩
  · exact ⟨hc, rfl, ⟨parts.header, parts.block_id, hp.rp, hp.block_id.2, rfl, rfl⟩, htransfer, rfl⟩
  · exact ⟨hwf.expiration, Nat.mod_lt _ (by decide), hwf.ref_block_hash, hwft, hwf.fee_limit⟩
  · -- the record of the meaning is the record of the decoded operands
    rw [Meaning.bytes, tron_raw, hcontract]
    rfl

theorem compile_evm_means (hhex : HexLaws cr) (haddr : AddressLaws cr) (hu256 : U256Laws cr)
    (hsign : SigningLaws cr) (hv : Valid cr p) (hc : p.chain = .Ethereum)
    (hres : compile cr p (.with_now t) = .ok res) :
    ∃ m : Meaning, m.Of cr p t ∧ m.Wf ∧ res.unsigned_tx = "0x" ++ cr.hex_encode m.bytes := by
  have he := hv.evm hc
  have hof := hv.fee.mode
  rw [FeeMode.Of, hc] at hof
  cases hm : p.fee.mode with
  | Tron => simp [hm] at hof
  | Eip1559 =>
    obtain ⟨to_, input, hash, hto, hinput, -, hnumbers, rfl⟩ :=
      eip1559_artefact hhex haddr hu256 hsign hv hc hm hres
    exact ⟨.eip1559 (chain_id_value p) (opt_value p.nonce) (opt_value p.fee.gas_limit)
      (opt_value p.fee.max_fee_per_gas) (opt_value p.fee.max_priority_fee_per_gas) to_.val
      (decimal_value p.value_wei) input,
      ⟨hc, hm, rfl, rfl, rfl, rfl, rfl, hto, rfl, calldata_of_input he hinput⟩,
      ⟨hnumbers, length_address_le to_, length_input_le hinput⟩, rfl⟩
  | Legacy =>
    obtain ⟨to_, input, hash, hto, hinput, -, hnumbers, rfl⟩ :=
      legacy_artefact hhex haddr hu256 hsign hv hc hm hres
    exact ⟨.legacy (chain_id_value p) (opt_value p.nonce) (opt_value p.fee.gas_limit)
      (opt_value (effective_gas_price p.fee)) to_.val (decimal_value p.value_wei) input,
      ⟨hc, hm, rfl, rfl, rfl, rfl, hto, rfl, calldata_of_input he hinput⟩,
      ⟨hnumbers, length_address_le to_, length_input_le hinput⟩, rfl⟩

/-- **The artefact of a validated transaction is the encoding of its meaning.** -/
theorem compile_means (hhex : HexLaws cr) (haddr : AddressLaws cr) (hu256 : U256Laws cr)
    (hsign : SigningLaws cr) (h : validate cr v = .ok p)
    (hres : compile cr p (.with_now t) = .ok res) :
    ∃ m : Meaning, m.Of cr p t ∧ m.Wf ∧ res.unsigned_tx = "0x" ++ cr.hex_encode m.bytes := by
  obtain ⟨-, hv⟩ := (validate_eq_ok hhex).1 h
  cases hc : p.chain with
  | Ethereum => exact compile_evm_means hhex haddr hu256 hsign hv hc hres
  | Tron => exact compile_tron_means hhex hu256 hv hc hres

/-- **The signing bytes identify the meaning**, and nothing but the meaning: for any two
accepted payloads and any two clocks, each of which has one meaning. -/
theorem unsigned_tx_eq_iff (hhex : HexLaws cr) (haddr : AddressLaws cr) (hu256 : U256Laws cr)
    (hsign : SigningLaws cr) (h : validate cr v = .ok p)
    (hres : compile cr p (.with_now t) = .ok res) {v' : Value} {p' : PreparedTransaction}
    {t' : UInt64} {res' : CompilationResult} (h' : validate cr v' = .ok p')
    (hres' : compile cr p' (.with_now t') = .ok res') :
    ∃ m m' : Meaning, (∀ x : Meaning, x.Of cr p t ↔ x = m) ∧
      (∀ x : Meaning, x.Of cr p' t' ↔ x = m') ∧ (res.unsigned_tx = res'.unsigned_tx ↔ m = m') := by
  obtain ⟨m, hm, hwf, htx⟩ := compile_means hhex haddr hu256 hsign h hres
  obtain ⟨m', hm', hwf', htx'⟩ := compile_means hhex haddr hu256 hsign h' hres'
  refine ⟨m, m', hm.iff_eq, hm'.iff_eq, ?_⟩
  rw [htx, htx']
  constructor
  · intro heq
    have hbytes := congrArg artefact_bytes heq
    rw [artefact_bytes_encode hhex, artefact_bytes_encode hhex, Option.some.injEq] at hbytes
    exact Meaning.bytes_inj hwf hwf' hbytes
  · rintro rfl
    rfl

/-- The calldata of the sample in capitals and without its prefix. -/
def sample_calldata_respelled : String :=
  "A9059CBB000000000000000000000000000000000000000000000000000000000000000100000000000000000000000000000000000000000000000000000000000F4240"

theorem sample_respelled :
    RespelledEvm (evm_token sample_calldata) (evm_token sample_calldata_respelled) where
  chain := ⟨rfl, rfl⟩
  chain_id := rfl
  nonce := rfl
  mode := rfl
  gas_limit := rfl
  eip1559 _ := ⟨rfl, rfl⟩
  legacy _ := rfl
  «to» := rfl
  value_wei := rfl
  data := by
    unfold SameDigits
    decide +kernel

/-- Two spellings of one transfer, the nonce a string in one and a number in the other,
sign the same bytes at different clocks. -/
theorem evm_token_spellings :
    ∃ res res', compile reference (evm_token sample_calldata) (.with_now sample_now) = .ok res ∧
      compile reference (evm_token sample_calldata_respelled) (.with_now 0) = .ok res' ∧
        res.unsigned_tx = res'.unsigned_tx := by
  have hrespelled : validate reference (evm_token_payload sample_calldata_respelled (integer 1649))
      = .ok (evm_token sample_calldata_respelled) := eq_ok_of_toOption (by decide +kernel)
  obtain ⟨res, hres⟩ := reference_compiles (t := sample_now) validate_evm_token
    (by decide) (by decide)
  obtain ⟨res', hres'⟩ := reference_compiles (t := 0) hrespelled
    (by decide) (by decide)
  obtain ⟨m, m', hm, hm', hiff⟩ := unsigned_tx_eq_iff reference_hex reference_address
    reference_u256 reference_signing validate_evm_token hres hrespelled hres'
  -- the two meanings are those of respelled transactions, the two runs are not evaluated
  exact ⟨res, res', hres, hres',
    hiff.2 (sample_respelled.same_meaning ((hm m).2 rfl) ((hm' m').2 rfl)).symm⟩

end Compilation

/-! ## What the signing bytes ignore -/

section Ignored

variable {cr : Crates} {v v' : Value} {p p' : PreparedTransaction} {t t' : UInt64}
  {res res' : CompilationResult}

/-- **On Ethereum neither spelling nor information is signed**: letter case, an optional `0x`, the
fields `RespelledEvm` does not compare, and the clock. -/
theorem respelled_evm_same_bytes (hhex : HexLaws cr) (haddr : AddressLaws cr)
    (hu256 : U256Laws cr) (hsign : SigningLaws cr) (h : validate cr v = .ok p)
    (hres : compile cr p (.with_now t) = .ok res) (h' : validate cr v' = .ok p')
    (hres' : compile cr p' (.with_now t') = .ok res') (hr : RespelledEvm p p') :
    res'.unsigned_tx = res.unsigned_tx := by
  obtain ⟨m, hm, -, htx⟩ := compile_means hhex haddr hu256 hsign h hres
  obtain ⟨m', hm', -, htx'⟩ := compile_means hhex haddr hu256 hsign h' hres'
  rw [htx, htx', hr.same_meaning hm hm']

/-- **On Tron neither spelling nor information is signed**: hexadecimal or base58check, letter
case, an optional `0x`, and the fields `RespelledTron` does not compare. -/
theorem respelled_tron_same_bytes (hhex : HexLaws cr) (hu256 : U256Laws cr)
    (h : validate cr v = .ok p) (hres : compile cr p (.with_now t) = .ok res)
    (h' : validate cr v' = .ok p') (hres' : compile cr p' (.with_now t) = .ok res')
    (hr : RespelledTron cr p p') : res'.unsigned_tx = res.unsigned_tx := by
  obtain ⟨-, hv⟩ := (validate_eq_ok hhex).1 h
  obtain ⟨-, hv'⟩ := (validate_eq_ok hhex).1 h'
  obtain ⟨m, hm, -, htx⟩ := compile_tron_means hhex hu256 hv hr.chain.1 hres
  obtain ⟨m', hm', -, htx'⟩ := compile_tron_means hhex hu256 hv' hr.chain.2 hres'
  rw [htx, htx', hr.same_meaning hm hm']

/-! A number and the string of its decimal are told apart by nothing behind the validator. -/

/-- One integer, as a JSON number or as its decimal. -/
inductive SameNumber : Option Value → Option Value → Prop
  | same (raw : Option Value) : SameNumber raw raw
  | decimal (u : UInt64) :
    SameNumber (some (.number (.posInt u))) (some (.string u.toNat.repr))
  | number (u : UInt64) :
    SameNumber (some (.string u.toNat.repr)) (some (.number (.posInt u)))

/-- Two objects that differ in how the integers among their members are written. -/
structure SameMembers (names : List String) (obj obj' : Map) : Prop where
  ints : ∀ field ∈ names, SameNumber (obj.get field) (obj'.get field)
  others : ∀ field ∉ names, obj'.get field = obj.get field

/-- Two payloads that differ in how their integers are written, those of the fee included. -/
structure SamePayload (obj obj' : Map) : Prop where
  ints : ∀ field ∈ ["valueWei", "nonce"], SameNumber (obj.get field) (obj'.get field)
  fee : ∀ fee, obj.get "fee" = some (.object fee) →
    ∃ fee', obj'.get "fee" = some (.object fee') ∧ SameMembers fee_amounts fee fee'
  others : ∀ field ∉ ["valueWei", "nonce", "fee"], obj'.get field = obj.get field

/-- A number is read as its decimal is. -/
theorem spellsOptInt_decimal (u : UInt64) (o : Option String) :
    SpellsOptInt (some (.string u.toNat.repr)) o ↔ SpellsOptInt (some (.number (.posInt u))) o := by
  cases o with
  | none => simp [SpellsOptInt]
  | some s => simp [SpellsOptInt, SpellsInt, eq_comm]

theorem SameNumber.spells {raw raw' : Option Value} (hs : SameNumber raw raw')
    {o : Option String} (h : SpellsOptInt raw o) : SpellsOptInt raw' o := by
  cases hs with
  | same => exact h
  | decimal u => exact (spellsOptInt_decimal u o).2 h
  | number u => exact (spellsOptInt_decimal u o).1 h

theorem SameMembers.spellsFee {obj obj' : Map} (hs : SameMembers fee_amounts obj obj')
    {fee : FeeParams} (h : SpellsFee obj fee) : SpellsFee obj' fee where
  mode := by
    rw [hs.others _ (by decide)]
    exact h.mode
  gas_limit := (hs.ints _ (by decide)).spells h.gas_limit
  base_fee_per_gas := (hs.ints _ (by decide)).spells h.base_fee_per_gas
  max_priority_fee_per_gas := (hs.ints _ (by decide)).spells h.max_priority_fee_per_gas
  max_fee_per_gas := (hs.ints _ (by decide)).spells h.max_fee_per_gas
  gas_price := (hs.ints _ (by decide)).spells h.gas_price
  el := (hs.ints _ (by decide)).spells h.el
  rp := by
    rw [hs.others _ (by decide)]
    exact h.rp

theorem SamePayload.spells {obj obj' : Map} (hs : SamePayload obj obj') (h : Spells obj p) :
    Spells obj' p := by
  obtain ⟨fee, hfee, hspells⟩ := h.fee
  obtain ⟨fee', hfee', hmembers⟩ := hs.fee fee hfee
  have hget : ∀ field ∉ ["valueWei", "nonce", "fee"], obj'.get field = obj.get field := hs.others
  have hvalue : SpellsOptInt (obj.get "valueWei") (some p.value_wei) := h.value_wei
  refine ⟨?_, ?_, ?_, ?_, (hs.ints _ (by decide)).spells hvalue, ?_, ?_, ?_,
    (hs.ints _ (by decide)).spells h.nonce, fee', hfee', hmembers.spellsFee hspells⟩
  · rw [hget _ (by decide), h.chain]
  · rw [← h.chain_id, optional_number, optional_number, hget _ (by decide)]
  · rw [hget _ (by decide), h.from]
  · rw [hget _ (by decide), h.to]
  · rw [← h.data, optional_string, optional_string, hget _ (by decide)]
  · rw [hget _ (by decide), h.tx_type]
  · rw [← h.token_contract, optional_string, optional_string, hget _ (by decide)]

/-- **Number or string**: a payload whose integers are written the other way is accepted as the
same transaction, so everything behind the validator is the same. -/
theorem number_or_string (hhex : HexLaws cr) {obj obj' : Map} (hs : SamePayload obj obj')
    (h : validate cr (.object obj) = .ok p) : validate cr (.object obj') = .ok p := by
  obtain ⟨⟨_, heq, hspells⟩, hv⟩ := (validate_eq_ok hhex).1 h
  rw [← Value.object.inj heq] at hspells
  exact (validate_eq_ok hhex).2 ⟨⟨obj', rfl, hs.spells hspells⟩, hv⟩

end Ignored

end TxCompiler
