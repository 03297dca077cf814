/-
`tron.rs`: compiling a prepared transaction into `Transaction.raw_data`.

The functions below are the source's, in its order of checks. The slices and the
`expect` of `derive_block_ref` are kept with their bounds, and so is the debug
assertion: that sixty-four characters always decode to thirty-two bytes is a fact
about `hex::decode` (`HexLaws`), not something this file checks.
-/
import TxCompiler.TronAddress
import TxCompiler.RawData

set_option autoImplicit false

namespace TxCompiler

open Rust

/-- Ten hours in milliseconds. -/
def EXPIRATION_MS : UInt64 := 10 * 60 * 60 * 1000

/-- The bytes of the block id that a transaction refers to. -/
def REF_BLOCK_HASH_START : ℕ := 8

def REF_BLOCK_HASH_END : ℕ := 16

/-- The reference block: the low two bytes of the block number and eight bytes of its id. -/
def derive_block_ref (cr : Crates) (header : TronBlockHeader) :
    Run (FixedBytes 2 × FixedBytes 8) := do
  reject_if (len header.h ≠ 64) (.new .InvalidBlockHeader
    "Block ID (h) must be exactly 64 hex characters (32 bytes)")
  let h_bytes ← ok_or (cr.hex_decode header.h)
    (.new .InvalidBlockHeader "Block ID (h) must be valid hex")
  -- `debug_assert_eq!`
  assert (h_bytes.length = 32)
  -- the low sixteen bits of the block number, so the conversion cannot fail
  let low ← expect (u16_try_from_u64 (header.n &&& 0xffff))
  let ref_block_bytes : FixedBytes 2 := ⟨to_be_bytes 2 low.toNat, length_to_be_bytes ..⟩
  let suffix ← slice h_bytes REF_BLOCK_HASH_START REF_BLOCK_HASH_END
  let ref_block_hash ← copy_from_slice (zeroed 8) 0 8 suffix
  .ok (ref_block_bytes, ref_block_hash)

/-- The error of a fee limit that is too wide. -/
def fee_limit_error (s : String) : TxCompilerError :=
  .with_details .InvalidAmount "Tron fee.el does not fit in u64"
    [("field", .string "el"), ("value", .string s)]

/-- A fee limit may be absent; one that is there has to fit. -/
def parse_fee_limit (el : Option String) : Run (Option UInt64) :=
  match el with
  | none => .ok none
  | some s => do
    let n ← ok_or (u64_from_str s) (fee_limit_error s)
    .ok (some n)

/-- The amount of a token transfer is a word of the calldata. -/
def trc20_amount_error (amount : String) : TxCompilerError :=
  .with_details .InvalidAmount "Amount exceeds uint256 range" [("value", .string amount)]

/-- `transfer(address,uint256)`: selector, zero-padded address word, amount word. -/
def build_trc20_transfer_data (cr : Crates) (to_ amount : String) : Run (List UInt8) := do
  let to_bytes ← tron_address_to_bytes cr to_
  reject_if (to_bytes.length < TRON_ADDRESS_LEN)
    (.new .InvalidAddress "Tron address decoded to fewer than 21 bytes")
  -- the twenty bytes behind `0x41`, at the end of the word
  let address_bytes ← slice to_bytes 1 TRON_ADDRESS_LEN
  let address_word ← copy_from_slice (zeroed 32) 12 32 address_bytes
  let amount_u256 ← ok_or (cr.u256_from_str_radix amount 10) (trc20_amount_error amount)
  let amount_word := to_be_bytes 32 amount_u256.toNat
  let out ← with_capacity (ERC20_TRANSFER_SELECTOR_BYTES.length + 32 + 32)
  .ok (out ++ ERC20_TRANSFER_SELECTOR_BYTES ++ address_word.val ++ amount_word)

/-- The amount of a native transfer is an `int64` in the schema of Tron, and is read as a `u64`
here. -/
def native_amount_error (value_wei : String) : TxCompilerError :=
  .with_details .InvalidAmount "Tron native amount does not fit in u64"
    [("field", .string "valueWei"), ("value", .string value_wei)]

/-- The contract message of the intent, and its number in the enumeration. -/
def build_contract (cr : Crates) (prepared : PreparedTransaction) : Run (List UInt8 × UInt8) := do
  let from_ ← tron_address_to_bytes cr prepared.«from»
  match prepared.tx_type with
  | .TransferNative =>
    let to_ ← tron_address_to_bytes cr prepared.«to»
    let amount ← ok_or (u64_from_str prepared.value_wei) (native_amount_error prepared.value_wei)
    let contract ← encode_transfer_contract from_ to_ amount
    .ok (contract, TRON_CONTRACT_TYPE_TRANSFER)
  | .TransferToken =>
    let token ← ok_or prepared.token_contract
      (.new .InvalidPayload "Token transfer requires tokenContract")
    let token_bytes ← tron_address_to_bytes cr token
    let data ← build_trc20_transfer_data cr prepared.«to» prepared.value_wei
    let contract ← encode_trigger_smart_contract from_ token_bytes data
    .ok (contract, TRON_CONTRACT_TYPE_TRIGGER_SMART)

/-- Saturating at `u64::MAX`, and `0` for a clock set before the epoch. -/
def current_time_ms (cr : Crates) : UInt64 :=
  match cr.system_time with
  | none => 0
  | some ms => (u64_try_from ms).getD (UInt64.ofNat (2 ^ 64 - 1))

/-- The window behind the clock does not fit. -/
def expiration_error : TxCompilerError :=
  .new .InvalidPayload "timestamp + EXPIRATION_MS overflows u64"

/-- `raw_data` and its hash, in hexadecimal. -/
def compile_tron (cr : Crates) (prepared : PreparedTransaction) (options : CompileOptions) :
    Run CompilationResult := do
  let header ← ok_or prepared.fee.rp
    (.new .InvalidBlockHeader "Tron transactions require the block header at 'fee.rp'")
  let (ref_block_bytes, ref_block_hash) ← derive_block_ref cr header
  let (contract, contract_type) ← build_contract cr prepared
  let fee_limit ← parse_fee_limit prepared.fee.el
  -- the system clock is read only when the options carry none
  let timestamp_ms := options.now.getD (current_time_ms cr)
  let expiration ← ok_or (checked_add timestamp_ms EXPIRATION_MS) expiration_error
  let raw_data ← encode_raw_data
    { ref_block_bytes, ref_block_hash, expiration, timestamp := timestamp_ms, contract, fee_limit }
  let hash := cr.sha256 raw_data
  .ok {
    chain := .Tron
    unsigned_tx := "0x" ++ cr.hex_encode raw_data
    tx_hash := "0x" ++ cr.hex_encode hash.val
    metadata := {
      tx_type := prepared.tx_type
      fee_mode := .Tron
      evm_tx_type := none
      tron_contract_type := some contract_type
      expiration := some expiration } }

/-! ## What the parts return

Each part is an equation on operands that decode: which of the partial operations it is
made of succeed, and with what. -/

/-- Sixty-four characters that decode are thirty-two bytes, so the assertion holds, the
slice is in range and the two sides of the copy have the same length. -/
theorem derive_block_ref_eq {cr : Crates} (hcr : HexLaws cr) {header : TronBlockHeader}
    {bs : List UInt8} (hdec : Hex.decode (bytes header.h) = some bs) (h32 : bs.length = 32) :
    ∃ ref, derive_block_ref cr header = .ok ref ∧
      ref.1.val = to_be_bytes 2 (header.n.toNat % 2 ^ 16) ∧ ref.2.val = (bs.drop 8).take 8 := by
  have hlen : len header.h = 64 := by rw [← length_bytes, Hex.length_of_decode hdec, h32]
  obtain ⟨low, hlow, hval⟩ := u16_try_from_mask header.n
  -- bytes 8 to 16 are there, and there are eight of them
  obtain ⟨hash, hcopy, hhash⟩ := @copy_from_slice_eq TxCompilerError 8 (zeroed 8) 0 8
    ((bs.drop REF_BLOCK_HASH_START).take (REF_BLOCK_HASH_END - REF_BLOCK_HASH_START)) (by decide)
    (by decide) (by
      simp only [List.length_take, List.length_drop, h32]
      decide)
  unfold derive_block_ref
  rw [reject_if_of_not (not_not.2 hlen), ok_bind, hcr.decode, hdec, ok_or_some, ok_bind,
    (assert_eq_ok (u := ())).2 h32, ok_bind, expect_eq_ok.2 hlow, ok_bind]
  dsimp only
  rw [slice_of_le (by decide) (by rw [h32]; decide), ok_bind, hcopy, ok_bind]
  refine ⟨_, rfl, by rw [hval], ?_⟩
  rw [hhash]
  simp [zeroed, REF_BLOCK_HASH_START, REF_BLOCK_HASH_END]

section Contracts

variable {cr : Crates} {owner to_bytes token_bytes : List UInt8}

/-- The address is twenty-one bytes, so the twenty behind its prefix fill the tail of the word. -/
theorem build_trc20_transfer_data_eq {to_ : String} (amount : String)
    (hto : tron_address_to_bytes cr to_ = .ok to_bytes) :
    build_trc20_transfer_data cr to_ amount = (do
      let value ← ok_or (cr.u256_from_str_radix amount 10) (trc20_amount_error amount)
      .ok (transfer_calldata (to_bytes.drop 1) (to_be_bytes 32 value.toNat))) := by
  obtain ⟨h21, -⟩ := (tron_address_to_bytes_spec cr to_).of_eq_ok hto
  obtain ⟨word, hcopy, hword⟩ := @copy_from_slice_eq TxCompilerError 32 (zeroed 32) 12 32
    ((to_bytes.drop 1).take (TRON_ADDRESS_LEN - 1)) (by decide) (by decide) (by
      simp only [List.length_take, List.length_drop, h21]
      decide)
  have htake : (to_bytes.drop 1).take (TRON_ADDRESS_LEN - 1) = to_bytes.drop 1 :=
    List.take_of_length_le (by rw [List.length_drop, h21]; decide)
  rw [htake] at hword
  unfold build_trc20_transfer_data
  rw [hto, ok_bind, reject_if_of_not (by rw [h21]; decide), ok_bind,
    slice_of_le (by decide) (by rw [h21]; decide), ok_bind, hcopy, ok_bind]
  -- what is left runs behind the amount parser, on whatever it returned
  congr 1
  funext value
  dsimp only
  rw [with_capacity_of_lt (by decide), ok_bind, hword, transfer_calldata, List.nil_append]
  simp [zeroed]

/-- Addresses that decode have twenty-one bytes, so the message of a transfer is well formed. -/
theorem transfer_wf {from_ to_ : String} (hfrom : tron_address_to_bytes cr from_ = .ok owner)
    (hto : tron_address_to_bytes cr to_ = .ok to_bytes) (amount : UInt64) :
    (Contract.transfer owner to_bytes amount.toNat).Wf := by
  obtain ⟨h1, -⟩ := (tron_address_to_bytes_spec cr from_).of_eq_ok hfrom
  obtain ⟨h2, -⟩ := (tron_address_to_bytes_spec cr to_).of_eq_ok hto
  exact ⟨by rw [h1, h2]; decide, amount.toNat_lt⟩

theorem trigger_wf {from_ to_ token : String} (hfrom : tron_address_to_bytes cr from_ = .ok owner)
    (htoken : tron_address_to_bytes cr token = .ok token_bytes)
    (hto : tron_address_to_bytes cr to_ = .ok to_bytes) (amount : ℕ) :
    (Contract.trigger owner token_bytes
      (transfer_calldata (to_bytes.drop 1) (to_be_bytes 32 amount))).Wf := by
  obtain ⟨h1, -⟩ := (tron_address_to_bytes_spec cr from_).of_eq_ok hfrom
  obtain ⟨h2, -⟩ := (tron_address_to_bytes_spec cr token).of_eq_ok htoken
  obtain ⟨h3, -⟩ := (tron_address_to_bytes_spec cr to_).of_eq_ok hto
  have h68 := @length_transfer_calldata (to_bytes.drop 1) (to_be_bytes 32 amount)
    (by rw [List.length_drop, h3]) (length_to_be_bytes ..)
  rw [Contract.Wf, h1, h2, h68]
  decide

variable {prepared : PreparedTransaction}

theorem build_contract_native (htx : prepared.tx_type = .TransferNative)
    (hfrom : tron_address_to_bytes cr prepared.«from» = .ok owner)
    (hto : tron_address_to_bytes cr prepared.«to» = .ok to_bytes) :
    build_contract cr prepared = (do
      let amount ← ok_or (u64_from_str prepared.value_wei) (native_amount_error prepared.value_wei)
      .ok ((Contract.transfer owner to_bytes amount.toNat).bytes,
        TRON_CONTRACT_TYPE_TRANSFER)) := by
  unfold build_contract
  rw [hfrom, ok_bind, htx]
  dsimp only
  rw [hto, ok_bind]
  -- the encoder cannot fail on twenty-one byte addresses, whatever the amount
  congr 1
  funext amount
  have hwf := (transfer_wf hfrom hto amount).1
  rw [encode_transfer_contract_eq (by omega), ok_bind]
  rfl

theorem build_contract_token (htx : prepared.tx_type = .TransferToken)
    (hfrom : tron_address_to_bytes cr prepared.«from» = .ok owner) {token : String}
    (htc : prepared.token_contract = some token)
    (htoken : tron_address_to_bytes cr token = .ok token_bytes)
    (hto : tron_address_to_bytes cr prepared.«to» = .ok to_bytes) :
    build_contract cr prepared = (do
      let value ← ok_or (cr.u256_from_str_radix prepared.value_wei 10)
        (trc20_amount_error prepared.value_wei)
      .ok ((Contract.trigger owner token_bytes (transfer_calldata (to_bytes.drop 1)
        (to_be_bytes 32 value.toNat))).bytes, TRON_CONTRACT_TYPE_TRIGGER_SMART)) := by
  unfold build_contract
  rw [hfrom, ok_bind, htx]
  dsimp only
  rw [htc, ok_or_some, ok_bind, htoken, ok_bind, build_trc20_transfer_data_eq _ hto]
  cases cr.u256_from_str_radix prepared.value_wei 10 with
  | none => rfl
  | some value =>
    have hwf := trigger_wf hfrom htoken hto value.toNat
    rw [Contract.Wf] at hwf
    simp only [ok_or_some, ok_bind]
    rw [encode_trigger_smart_contract_eq (by omega), ok_bind]
    rfl

end Contracts

end TxCompiler
