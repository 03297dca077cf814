/-
`validate.rs`: from untrusted JSON to a `PreparedTransaction`.

The checks are translated one by one, in the source's order and with its messages; a
`match` or an `if` in the middle of a function is a named helper here, so that each
step of `validate` is one call. Beside each reader of a field stands the lemma that
says exactly when it returns, in terms of the JSON value of that field; `validate`
itself is assembled from those in `Validated`.
-/
import TxCompiler.Review

set_option autoImplicit false

namespace TxCompiler

open Rust Json

/-- `0x` and forty digits. -/
def EVM_ADDRESS_LEN : ℕ := 42

/-- `2^53 - 1`. -/
def MAX_SAFE_JS_INT : ℕ := 2 ^ 53 - 1

/-- The cap on the texts of a block header that nothing decodes, in bytes. -/
def MAX_INFO_FIELD_LEN : ℕ := 128

/-- The digits of `2^256 - 1`. -/
def MAX_DECIMAL_LEN : ℕ := 78

/-- The error of a payload that is not an object. -/
def invalid_payload (msg : String) : TxCompilerError := .new .InvalidPayload msg

/-! ## Enumerations -/

/-- What a message says of a name that is absent or no text. -/
def display_value (v : Option String) : String := v.getD "(missing)"

/-- Only the two names, letter by letter; any other value is displayed in the message. -/
def require_chain (obj : Map) : Run Chain :=
  match (obj.get "chain").bind Value.as_str with
  | some "ethereum" => .ok .Ethereum
  | some "tron" => .ok .Tron
  | other => fail (.new .UnsupportedChain s!"Invalid chain: {display_value other}")

/-- The intent, by its name. -/
def require_tx_type (obj : Map) : Run TxType :=
  match (obj.get "txType").bind Value.as_str with
  | some "TRANSFER_NATIVE" => .ok .TransferNative
  | some "TRANSFER_TOKEN" => .ok .TransferToken
  | other => fail (.new .UnsupportedTxType s!"Invalid txType: {display_value other}")

/-- The mode, by its name. Whether it is a mode of the chain is asked afterwards. -/
def require_fee_mode (obj : Map) : Run FeeMode :=
  match (obj.get "mode").bind Value.as_str with
  | some "EIP1559" => .ok .Eip1559
  | some "LEGACY" => .ok .Legacy
  | some "TRON" => .ok .Tron
  | other => fail (.new .UnsupportedFeeMode s!"Invalid mode: {display_value other}")

/-! ## Field helpers -/

/-- A text that is there and is not empty; the error is the caller's. -/
def require_non_empty_string_with (obj : Map) (field : String) (err : TxCompilerError) :
    Run String :=
  match (obj.get field).bind Value.as_str with
  | some s => if s ≠ "" then .ok s else fail err
  | none => fail err

/-- The same, and not blank either: the text is kept as it is, blanks at its ends included. -/
def require_non_empty_string (obj : Map) (field : String) : Run String := do
  let value ← require_non_empty_string_with obj field
    (.new .InvalidPayload s!"Missing or empty string field: {field}")
  reject_if (is_blank value)
    (.new .InvalidPayload s!"Field '{field}' must not be blank or whitespace-only")
  .ok value

/-- A value of another type and the empty text are both absent. -/
def optional_string (obj : Map) (field : String) : Option String :=
  match obj.get field with
  | some (.string s) => if s ≠ "" then some s else none
  | _ => none

/-- A JSON integer of 64 signed bits; anything else is absent. -/
def optional_number (obj : Map) (field : String) : Option Int64 :=
  match obj.get field with
  | none => none
  | some v =>
    if v.is_null then none
    -- a `u64` past `i64::MAX` is tried once more, and fails there as well
    else match v.as_i64 with
      | some i => some i
      | none =>
        match v.as_u64 with
        | some u => i64_try_from_u64 u
        | none => none

/-- The text of an amount, which JSON may give as a number. -/
def coerce_to_string (value : Value) : Option String :=
  match value with
  | .string s => some s
  -- only what parses as a `u64`: a negative number or a float is refused
  | .number n =>
    match n.as_u64 with
    | some u => some u.toNat.repr
    | none => none
  | _ => none

/-- A canonical decimal: digits without a leading zero, at most seventy-eight of them. -/
def is_non_neg_int (s : String) : Bool :=
  if s = "" || len s > MAX_DECIMAL_LEN then false
  else if s = "0" then true
  else
    -- no leading zero, so a number has one spelling
    match bytes s with
    | b :: rest => (0x31 ≤ b && b ≤ 0x39) && rest.all is_ascii_digit
    | [] => false

/-- The error of an amount, with the value that was found. -/
def int_error (field : String) (raw : Option Value) : TxCompilerError :=
  .with_details .InvalidAmount s!"{field} must be a non-negative integer"
    [("field", .string field), ("value", Value.from_option id raw)]

/-- An amount that has to be there, as its decimal. -/
def require_int_string (obj : Map) (field : String) : Run String :=
  let raw := obj.get field
  ok_or ((raw.bind coerce_to_string).filter is_non_neg_int) (int_error field raw)

/-- An amount that may be absent or `null`; where it is there it has to be valid. -/
def optional_int_string (obj : Map) (field : String) : Run (Option String) :=
  match obj.get field with
  | none => .ok none
  | some raw =>
    if raw.is_null then .ok none
    else do
      let s ← ok_or ((coerce_to_string raw).filter is_non_neg_int) (int_error field (some raw))
      .ok (some s)

/-- A JSON integer of 64 unsigned bits that is not zero; a text does not count. -/
def require_positive_int (obj : Map) (field : String) : Run UInt64 := do
  let invalid := TxCompilerError.new .InvalidBlockHeader s!"{field} must be a positive integer"
  let v ← ok_or (obj.get field) invalid
  ok_or (v.as_u64.filter fun u => 0 < u) invalid

/-- A JSON integer of 32 unsigned bits. -/
def require_non_neg_int (obj : Map) (field : String) : Run UInt32 := do
  let invalid := TxCompilerError.new .InvalidBlockHeader s!"{field} must be a non-negative integer"
  let v ← ok_or (obj.get field) invalid
  let u ← ok_or v.as_u64 invalid
  ok_or (u32_try_from_u64 u) invalid

/-- An informational text of a block header. The message counts characters, the check bytes. -/
def optional_bounded_string (obj : Map) (field : String) (max_len : ℕ) : Run (Option String) :=
  match (obj.get field).bind Value.as_str with
  | none => .ok none
  | some value => do
    reject_if (len value > max_len) (.with_details .InvalidBlockHeader
      s!"Block header field '{field}' exceeds {max_len}-char limit"
      [("field", .string field), ("len", .from_usize (len value)),
        ("limit", .from_usize max_len)])
    .ok (some value)

/-! ## Addresses -/

/-- The error of an address, with the member it was found under. -/
def invalid_address_for (field address : String) : TxCompilerError :=
  .with_details .InvalidAddress s!"Invalid address in '{field}'"
    [("field", .string field), ("address", .string address)]

/-- Length first, then the prefix that makes `address[2..]` a boundary, then the digits. -/
def validate_evm_address (address field : String) : Run Unit := do
  reject_if (len address ≠ EVM_ADDRESS_LEN) (invalid_address_for field address)
  reject_if (¬ starts_with address "0x") (invalid_address_for field address)
  let digits ← str_slice_from address 2
  reject_if (¬ (bytes digits).all is_ascii_hexdigit) (invalid_address_for field address)

/-- The decoded bytes are dropped; `compile` decodes the text again. -/
def validate_tron_address (cr : Crates) (address field : String) : Run Unit := do
  let _ ← map_err (tron_address_to_bytes cr address) fun _ => invalid_address_for field address
  .ok ()

/-- `if let Some(tc) = token_contract { check(tc, "tokenContract")? }`. -/
def check_token_contract (check : String → String → Run Unit) (token_contract : Option String) :
    Run Unit :=
  match token_contract with
  | some tc => check tc "tokenContract"
  | none => .ok ()

/-- What only Ethereum requires: a positive chain id, a nonce a JavaScript number can hold, and
addresses of its form. -/
def validate_evm_fields (chain_id : Option Int64) (nonce : Option String) (from_ to_ : String)
    (token_contract : Option String) : Run Unit := do
  reject_if (¬ chain_id.any fun id => 1 ≤ id.toInt) (.with_details .InvalidPayload
    "EVM chainId must be a positive integer" [("chainId", Value.from_option .from_i64 chain_id)])
  let nonce ← ok_or nonce (.new .InvalidPayload "EVM transactions require nonce")
  reject_if (¬ (u64_from_str nonce).any fun n => n.toNat ≤ MAX_SAFE_JS_INT)
    (.with_details .InvalidPayload "EVM nonce exceeds safe integer range (max 2^53 - 1)"
      [("nonce", .string nonce)])
  validate_evm_address from_ "from"
  validate_evm_address to_ "to"
  check_token_contract validate_evm_address token_contract

/-- Tron has neither a chain id nor a nonce, so only the addresses are looked at. -/
def validate_tron_fields (cr : Crates) (from_ to_ : String) (token_contract : Option String) :
    Run Unit := do
  validate_tron_address cr from_ "from"
  validate_tron_address cr to_ "to"
  check_token_contract (validate_tron_address cr) token_contract

/-! ## Token transfers -/

/-- `Some(d) if !d.is_empty() && d != "0x"`. -/
def non_empty_calldata (data : Option String) : Option String :=
  data.filter fun d => d ≠ "" && d ≠ "0x"

/-- The calldata of a token transfer and the envelope around it: an ERC-20 `transfer` without a
payment, sent to the token contract that is named. -/
def validate_evm_token_transfer (data : Option String) (to_ token_contract value_wei : String) :
    Run Unit := do
  let data ← ok_or (non_empty_calldata data)
    (.new .InvalidPayload "EVM TRANSFER_TOKEN requires calldata")
  let hex := strip_0x data
  reject_if (¬ is_hex hex)
    (.new .InvalidCalldata "EVM TRANSFER_TOKEN calldata contains non-hex characters")
  let got := len hex / 2
  reject_if (len hex ≠ ERC20_TRANSFER_CALLDATA_HEX_LEN) (.with_details .InvalidCalldata
    s!"EVM TRANSFER_TOKEN calldata must be exactly 68 bytes (got {got})"
    [("length", .from_usize (len hex)), ("expected", .from_usize ERC20_TRANSFER_CALLDATA_HEX_LEN)])
  let selector ← str_slice hex 0 8
  let selector := to_ascii_lowercase selector
  reject_if (selector ≠ ERC20_TRANSFER_SELECTOR_HEX) (.new .InvalidCalldata
    s!"Expected ERC-20 transfer selector {ERC20_TRANSFER_SELECTOR_HEX}, got {selector}")
  let address_word ← str_slice hex 8 72
  let pad ← str_slice address_word 0 24
  reject_if (¬ (bytes pad).all (· == 0x30))
    (.new .InvalidCalldata "ERC-20 transfer recipient word must be left-zero-padded")
  -- the forty digits behind the padding, checked like any address
  let embedded ← str_slice_from address_word 24
  validate_evm_address ("0x" ++ embedded) "data.recipient"
  reject_if (¬ eq_ignore_ascii_case to_ token_contract) (.with_details .InvalidPayload
    "EVM TRANSFER_TOKEN: to must equal tokenContract"
    [("to", .string to_), ("tokenContract", .string token_contract)])
  reject_if (value_wei ≠ "0") (.with_details .InvalidPayload
    "EVM TRANSFER_TOKEN: valueWei must be 0" [("valueWei", .string value_wei)])

/-! ## Fees -/

/-- The header of a reference block; `null` is an absent one, any other value has to be valid. -/
def optional_block_header (raw : Option Value) : Run (Option TronBlockHeader) :=
  match raw with
  | none => .ok none
  | some value =>
    if value.is_null then .ok none
    else do
      let obj ← ok_or value.as_object (.new .InvalidBlockHeader "Block header must be an object")
      let h ← require_non_empty_string_with obj "h" (.new .InvalidBlockHeader
        "Block header is missing required field 'h' (block hash)")
      let n ← require_positive_int obj "n"
      let t ← require_positive_int obj "t"
      let v ← require_non_neg_int obj "v"
      reject_if (len h ≠ 64) (.new .InvalidBlockHeader
        "Block ID (h) must be exactly 64 hex characters (32 bytes)")
      reject_if (¬ is_hex h)
        (.new .InvalidBlockHeader "Block ID (h) must contain only hex characters")
      let p ← optional_bounded_string obj "p" MAX_INFO_FIELD_LEN
      let r ← optional_bounded_string obj "r" MAX_INFO_FIELD_LEN
      let w ← optional_bounded_string obj "w" MAX_INFO_FIELD_LEN
      .ok (some { h := h, n, t, p, r, w, v })

/-- The `match (chain, mode)` of `validate_fee`. -/
def check_mode_of_chain (chain : Chain) (mode : FeeMode) : Run Unit :=
  match chain, mode with
  | .Ethereum, .Tron => fail (.new .UnsupportedFeeMode
      "Fee mode 'TRON' is not valid on Ethereum; use 'EIP1559' or 'LEGACY'")
  | .Tron, .Eip1559 | .Tron, .Legacy => fail (.new .UnsupportedFeeMode
      s!"Fee mode '{mode.as_str}' is not valid on Tron; use 'TRON'")
  | _, _ => .ok ()

/-- The `match mode` of `validate_fee`: the fields each mode requires. -/
def check_mode_fields (fee : FeeParams) : Run Unit :=
  match fee.mode with
  | .Eip1559 => do
    reject_if fee.gas_limit.isNone (.new .MissingFeeParams "EIP-1559 requires gasLimit")
    reject_if (fee.max_fee_per_gas.isNone || fee.max_priority_fee_per_gas.isNone)
      (.new .MissingFeeParams "EIP-1559 requires maxFeePerGas and maxPriorityFeePerGas")
  | .Legacy => do
    reject_if fee.gas_limit.isNone (.new .MissingFeeParams "LEGACY requires gasLimit")
    reject_if (fee.gas_price.isNone && fee.max_fee_per_gas.isNone)
      (.new .MissingFeeParams "LEGACY requires gasPrice or maxFeePerGas")
  | .Tron =>
    reject_if fee.rp.isNone (.new .InvalidBlockHeader
      "Fee mode 'TRON' requires the block-header field 'fee.rp'")

/-- The fee of the mode. Fields of the other modes are read, checked and kept. -/
def validate_fee (raw : Option Value) (chain : Chain) : Run FeeParams := do
  let obj ← ok_or (raw.bind Value.as_object) (.new .MissingFeeParams "Missing fee object")
  let mode ← require_fee_mode obj
  check_mode_of_chain chain mode
  let gas_limit ← optional_int_string obj "gasLimit"
  let base_fee_per_gas ← optional_int_string obj "baseFeePerGas"
  let max_priority_fee_per_gas ← optional_int_string obj "maxPriorityFeePerGas"
  let max_fee_per_gas ← optional_int_string obj "maxFeePerGas"
  let gas_price ← optional_int_string obj "gasPrice"
  let el ← optional_int_string obj "el"
  let rp ← optional_block_header (obj.get "rp")
  let fee : FeeParams := {
    mode := mode
    gas_limit
    base_fee_per_gas
    max_priority_fee_per_gas
    max_fee_per_gas
    gas_price
    el
    rp }
  check_mode_fields fee
  .ok fee

/-! ## `validate` -/

/-- The `match chain` of `validate`. -/
def validate_chain_fields (cr : Crates) (chain : Chain) (chain_id : Option Int64)
    (nonce : Option String) (from_ to_ : String) (token_contract : Option String) : Run Unit :=
  match chain with
  | .Ethereum => validate_evm_fields chain_id nonce from_ to_ token_contract
  | .Tron => validate_tron_fields cr from_ to_ token_contract

/-- The calldata check of an EVM native transfer. -/
def check_native_calldata (tx_type : TxType) (chain : Chain) (data : Option String) : Run Unit :=
  if tx_type = .TransferNative ∧ chain = .Ethereum then
    match non_empty_calldata data with
    | some d => fail (.with_details .InvalidPayload "EVM TRANSFER_NATIVE must not carry calldata"
        [("dataLength", .from_usize (len d))])
    | none => .ok ()
  else .ok ()

/-- The checks of a token transfer. -/
def check_token_transfer (tx_type : TxType) (chain : Chain) (data : Option String) (to_ : String)
    (token_contract : Option String) (value_wei : String) : Run Unit :=
  if tx_type = .TransferToken then do
    let token ← ok_or token_contract
      (.new .InvalidPayload "TRANSFER_TOKEN requires tokenContract")
    if chain = .Ethereum then validate_evm_token_transfer data to_ token value_wei else .ok ()
  else .ok ()

/-- **`validate`**: the members in a fixed order, then the checks that look at several of them. -/
def validate (cr : Crates) (input : Value) : Run PreparedTransaction := do
  let obj ← ok_or input.as_object (invalid_payload "Expected a non-null object")
  let chain ← require_chain obj
  let tx_type ← require_tx_type obj
  let from_ ← require_non_empty_string obj "from"
  let to_ ← require_non_empty_string obj "to"
  let value_wei ← require_int_string obj "valueWei"
  -- a value of another type counts as absent in these three
  let data := optional_string obj "data"
  let token_contract := optional_string obj "tokenContract"
  let chain_id := optional_number obj "chainId"
  let nonce ← optional_int_string obj "nonce"
  let fee ← validate_fee (obj.get "fee") chain
  validate_chain_fields cr chain chain_id nonce from_ to_ token_contract
  check_native_calldata tx_type chain data
  check_token_transfer tx_type chain data to_ token_contract value_wei
  .ok {
    chain
    chain_id
    «from» := from_
    «to» := to_
    value_wei
    data
    tx_type
    token_contract
    nonce
    fee }

end TxCompiler
