/-
`review.rs` and `compile.rs`: the summary shown to a human, and the entry point that
dispatches on the chain.

`review` decodes an ERC-20 transfer from the calldata it shows, with its own copy of
the checks `validate` makes. `build_fee_review` fills an absent field with `"0"`, and
`multiply_decimal` answers `"0"` for an operand it cannot parse.
-/
import TxCompiler.Evm
import TxCompiler.Tron

set_option autoImplicit false

namespace TxCompiler

open Rust

/-- `is_hex`, of which `review.rs` and `validate.rs` each have a copy. -/
def is_hex (s : String) : Bool := s ≠ "" && (bytes s).all is_ascii_hexdigit

/-- Recipient and amount of an ERC-20 transfer, read off the digits of its calldata. -/
def decode_erc20_transfer_data (cr : Crates) (data : String) : Run (String × String) := do
  let hex_str := strip_0x data
  reject_if (¬ is_hex hex_str)
    (.new .InvalidCalldata "ERC-20 transfer calldata contains non-hex characters")
  let got := len hex_str / 2
  reject_if (len hex_str ≠ ERC20_TRANSFER_CALLDATA_HEX_LEN)
    (.with_details .InvalidCalldata
      s!"ERC-20 transfer calldata must be exactly 68 bytes (got {got})"
      [("length", .from_usize (len hex_str)),
        ("expected", .from_usize ERC20_TRANSFER_CALLDATA_HEX_LEN)])
  let selector ← str_slice hex_str 0 8
  let selector := to_ascii_lowercase selector
  reject_if (selector ≠ ERC20_TRANSFER_SELECTOR_HEX)
    (.with_details .InvalidCalldata "Calldata does not start with the ERC-20 transfer selector"
      [("expected", .string ERC20_TRANSFER_SELECTOR_HEX), ("actual", .string selector)])
  let address_word ← str_slice hex_str 8 72
  let pad ← str_slice address_word 0 24
  reject_if (¬ (bytes pad).all (· == 0x30))
    (.new .InvalidCalldata "ERC-20 transfer recipient word must be left-zero-padded")
  -- shown in the letter case of the calldata, without a checksum
  let recipient_hex ← str_slice_from address_word 24
  let recipient := "0x" ++ recipient_hex
  let amount_hex ← str_slice hex_str 72 136
  let amount_u256 ← ok_or (cr.u256_from_str_radix amount_hex 16)
    (.new .InvalidCalldata "ERC-20 transfer amount is not valid hex")
  .ok (recipient, amount_u256.toNat.repr)

/-- A product that saturates, and is `"0"` when a factor cannot be read. -/
def multiply_decimal (cr : Crates) (a b : String) : String :=
  match cr.u256_from_str_radix a 10, cr.u256_from_str_radix b 10 with
  | some lhs, some rhs => (U256.saturating_mul lhs rhs).toNat.repr
  | _, _ => "0"

/-- The fee of the mode. A member of the mode that is absent is shown as `"0"`. -/
def build_fee_review (cr : Crates) (fee : FeeParams) : FeeReview :=
  match fee.mode with
  | .Eip1559 =>
    let gas_limit := fee.gas_limit.getD "0"
    let max_fee := fee.max_fee_per_gas.getD "0"
    { mode := .Eip1559
      estimated_max_cost := some (multiply_decimal cr gas_limit max_fee)
      gas_limit := some gas_limit
      gas_price := none
      max_fee_per_gas := some max_fee
      max_priority_fee_per_gas := fee.max_priority_fee_per_gas
      base_fee_per_gas := fee.base_fee_per_gas
      tron_fee_limit := none }
  | .Legacy =>
    let gas_limit := fee.gas_limit.getD "0"
    let gas_price := (fee.gas_price.or fee.max_fee_per_gas).getD "0"
    { mode := .Legacy
      estimated_max_cost := some (multiply_decimal cr gas_limit gas_price)
      gas_limit := some gas_limit
      gas_price := some gas_price
      max_fee_per_gas := none
      max_priority_fee_per_gas := none
      base_fee_per_gas := none
      tron_fee_limit := none }
  | .Tron =>
    -- the energy limit is shown twice, as the cost and as the limit
    { mode := .Tron
      estimated_max_cost := fee.el
      gas_limit := none
      gas_price := none
      max_fee_per_gas := none
      max_priority_fee_per_gas := none
      base_fee_per_gas := none
      tron_fee_limit := fee.el }

/-- The recipient and the amount a human is shown. -/
def review_transfer (cr : Crates) (prepared : PreparedTransaction) : Run (String × String) :=
  match prepared.tx_type, prepared.chain with
  | .TransferNative, _ | .TransferToken, .Tron => .ok (prepared.«to», prepared.value_wei)
  -- only here the envelope does not name the recipient: `to` is the token contract
  | .TransferToken, .Ethereum => do
    let data ← ok_or prepared.data
      (.new .InvalidCalldata "EVM token transfer missing calldata (data)")
    decode_erc20_transfer_data cr data

/-- Everything but recipient, amount and fee is copied from the envelope. -/
def review (cr : Crates) (prepared : PreparedTransaction) : Run TransactionReview := do
  let (recipient, amount) ← review_transfer cr prepared
  .ok {
    chain := prepared.chain
    tx_type := prepared.tx_type
    «from» := prepared.«from»
    recipient
    amount
    token_contract := prepared.token_contract
    nonce := prepared.nonce
    chain_id := prepared.chain_id
    fee := build_fee_review cr prepared.fee }

/-- `compile.rs`. -/
def compile (cr : Crates) (prepared : PreparedTransaction) (options : CompileOptions) :
    Run CompilationResult :=
  match prepared.chain with
  | .Ethereum => compile_evm cr prepared
  | .Tron => compile_tron cr prepared options

end TxCompiler
