/-
`evm.rs`: compiling a prepared transaction into the signing pre-image of an EIP-1559
or a legacy envelope.

The file parses the strings of the transaction into the struct one of `alloy`'s two
encoders takes. The checks commented "enforced upstream by validate" in the source are
modelled like the others; that they never fire on a validated transaction is proved
where `validate` is.
-/
import TxCompiler.TronAddress

set_option autoImplicit false

namespace TxCompiler

open Rust

/-- What both envelopes sign, as numbers. -/
structure EvmCommon where
  chain_id : UInt64
  «to» : Address
  value : U256
  nonce : UInt64
  gas_limit : UInt64
  input_bytes : List UInt8

/-- The address parser of the crate; on what `validate` accepts it is described by `AddressLaws`. -/
def parse_address (cr : Crates) (s field : String) : Run Address :=
  ok_or (cr.address_from_str s) (.with_details .InvalidAddress
    s!"Invalid EVM address in field '{field}'" [("field", .string field), ("address", .string s)])

/-- The error the three decimal parsers share, at their own messages. -/
def amount_error (message s field : String) : TxCompilerError :=
  .with_details .InvalidAmount message [("field", .string field), ("value", .string s)]

/-- The errors of the three widths differ in their texts alone. -/
def u256_error (s field : String) : TxCompilerError :=
  amount_error s!"{field} is not a valid uint256" s field

def u64_error (s field : String) : TxCompilerError :=
  amount_error s!"{field} does not fit in u64" s field

def u128_error (s field : String) : TxCompilerError :=
  amount_error s!"{field} does not fit in u128 (EIP-1559 alloy limit)" s field

/-- The three readers of decimals, by width. -/
def parse_u256 (cr : Crates) (s field : String) : Run U256 :=
  ok_or (cr.u256_from_str_radix s 10) (u256_error s field)

def parse_u64 (s field : String) : Run UInt64 := ok_or (u64_from_str s) (u64_error s field)

def parse_u128 (s field : String) : Run U128 := ok_or (u128_from_str s) (u128_error s field)

/-- The calldata as bytes. The prefix `0x` is optional. -/
def decode_calldata (cr : Crates) (data : Option String) : Run (List UInt8) :=
  match data with
  | some d =>
    -- no calldata has three spellings: absent, empty and `0x`
    if d ≠ "" ∧ d ≠ "0x" then
      ok_or (cr.hex_decode (strip_0x d)) (.new .InvalidCalldata "Invalid hex in calldata")
    else .ok []
  | none => .ok []

/-- The fields both envelopes share, in the order in which the source reads them. -/
def derive_common (cr : Crates) (prepared : PreparedTransaction) : Run EvmCommon := do
  let chain_id ← ok_or prepared.chain_id (.new .MissingFeeParams "EVM transactions require chainId")
  let chain_id_u64 ← ok_or (u64_try_from_i64 chain_id)
    (.new .InvalidPayload "EVM chainId must be a positive integer fitting in u64")
  -- `try_from` has already refused a negative one
  reject_if (chain_id_u64 = 0) (.new .InvalidPayload "EVM chainId must be > 0")
  let to_ ← parse_address cr prepared.«to» "to"
  let value ← parse_u256 cr prepared.value_wei "valueWei"
  let nonce_str ← ok_or prepared.nonce
    (.new .InvalidPayload "EVM transactions require nonce (enforced upstream by validate)")
  let nonce ← parse_u64 nonce_str "nonce"
  let gas_limit_str ← ok_or prepared.fee.gas_limit
    (.new .MissingFeeParams "EVM transactions require gasLimit (enforced upstream by validate)")
  let gas_limit ← parse_u64 gas_limit_str "gasLimit"
  let input_bytes ← decode_calldata cr prepared.data
  .ok { chain_id := chain_id_u64, «to» := to_, value, nonce, gas_limit, input_bytes }

/-- The struct `encode_eip1559` hands to `alloy`. -/
def build_eip1559 (prepared : PreparedTransaction) (common : EvmCommon) : Run TxEip1559 := do
  let max_fee_str ← ok_or prepared.fee.max_fee_per_gas
    (.new .MissingFeeParams "EIP-1559 requires maxFeePerGas (enforced upstream by validate)")
  let max_fee ← parse_u128 max_fee_str "maxFeePerGas"
  let max_priority_str ← ok_or prepared.fee.max_priority_fee_per_gas
    (.new .MissingFeeParams
      "EIP-1559 requires maxPriorityFeePerGas (enforced upstream by validate)")
  let max_priority ← parse_u128 max_priority_str "maxPriorityFeePerGas"
  .ok {
    chain_id := common.chain_id
    nonce := common.nonce
    gas_limit := common.gas_limit
    max_fee_per_gas := max_fee
    max_priority_fee_per_gas := max_priority
    «to» := .Call common.«to»
    value := common.value
    -- never filled in by this crate
    access_list := []
    input := common.input_bytes }

/-- The pre-image of an EIP-1559 transaction, its hash and its type byte. -/
def encode_eip1559 (cr : Crates) (prepared : PreparedTransaction) (common : EvmCommon) :
    Run (List UInt8 × B256 × UInt8) := do
  let tx ← build_eip1559 prepared common
  .ok (cr.eip1559_encode_for_signing tx, cr.eip1559_signature_hash tx, EVM_TX_TYPE_EIP1559)

/-- `gas_price`, or `max_fee_per_gas` standing in for it. -/
def effective_gas_price (fee : FeeParams) : Option String :=
  fee.gas_price.or fee.max_fee_per_gas

/-- The struct `encode_legacy` hands to `alloy`. -/
def build_legacy (prepared : PreparedTransaction) (common : EvmCommon) : Run TxLegacy := do
  let gas_price_str ← ok_or (effective_gas_price prepared.fee)
    (.new .MissingFeeParams "Legacy tx requires gasPrice (enforced upstream by validate)")
  let gas_price ← parse_u128 gas_price_str "gasPrice"
  .ok {
    -- always present, so the pre-image has the EIP-155 tail
    chain_id := some common.chain_id
    nonce := common.nonce
    gas_price
    gas_limit := common.gas_limit
    «to» := .Call common.«to»
    value := common.value
    input := common.input_bytes }

/-- The pre-image of a legacy transaction with the replay protection of EIP-155, and its hash. -/
def encode_legacy (cr : Crates) (prepared : PreparedTransaction) (common : EvmCommon) :
    Run (List UInt8 × B256 × UInt8) := do
  let tx ← build_legacy prepared common
  .ok (cr.legacy_encode_for_signing tx, cr.legacy_signature_hash tx, EVM_TX_TYPE_LEGACY)

/-- The `match` on the fee mode. -/
def encode_envelope (cr : Crates) (prepared : PreparedTransaction) (common : EvmCommon) :
    Run (List UInt8 × B256 × UInt8) :=
  match prepared.fee.mode with
  | .Eip1559 => encode_eip1559 cr prepared common
  | .Legacy => encode_legacy cr prepared common
  | .Tron => fail (.new .UnsupportedFeeMode
      "Fee mode 'TRON' is not valid on Ethereum; use 'EIP1559' or 'LEGACY'")

/-- Pre-image and hash, in hexadecimal. -/
def compile_evm (cr : Crates) (prepared : PreparedTransaction) : Run CompilationResult := do
  let common ← derive_common cr prepared
  let (bs, hash, evm_tx_type) ← encode_envelope cr prepared common
  .ok {
    chain := .Ethereum
    unsigned_tx := "0x" ++ cr.hex_encode bs
    tx_hash := "0x" ++ cr.hex_encode hash.val
    metadata := {
      tx_type := prepared.tx_type
      fee_mode := prepared.fee.mode
      evm_tx_type := some evm_tx_type
      tron_contract_type := none
      expiration := none } }

end TxCompiler
