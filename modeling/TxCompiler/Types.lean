/-
The data of the compiler: `types.rs`, `error.rs` and `constants.rs`, under the
source's names.

Every type here can be built by direct deserialisation, without passing `validate`,
so nothing beyond the width of an integer is an invariant of the type. What a
*validated* transaction satisfies is a predicate on these types, and lives above
(`Validated`).
-/
import TxCompiler.Hex
import TxCompiler.Json

set_option autoImplicit false

namespace TxCompiler

open Json

/-! ## `error.rs` -/

/-- The part of an error that callers may branch on. -/
inductive TxCompilerErrorCode where
  | InvalidPayload
  | UnsupportedChain
  | UnsupportedTxType
  | UnsupportedFeeMode
  | InvalidAddress
  | InvalidAmount
  | MissingFeeParams
  | InvalidBlockHeader
  | InvalidCalldata
  | CompilationFailed
  deriving DecidableEq, Repr

/-- Message and details are for people, and may change; the details are any JSON value. -/
structure TxCompilerError where
  code : TxCompilerErrorCode
  message : String
  details : Option Value

/-- `TxCompilerError::new`. -/
def TxCompilerError.new (code : TxCompilerErrorCode) (message : String) : TxCompilerError :=
  { code, message, details := none }

/-- `TxCompilerError::with_details`, on a `json!` object. -/
def TxCompilerError.with_details (code : TxCompilerErrorCode) (message : String) (details : Map) :
    TxCompilerError :=
  { code, message, details := some (.object details) }

/-- The `Result<T, TxCompilerError>` of every public operation. -/
abbrev Run (α : Type) := Rust.Run TxCompilerError α

/-! ## `types.rs` -/

/-- The supported chain families. -/
inductive Chain where
  | Ethereum
  | Tron
  deriving DecidableEq, Repr

/-- `rename_all = "lowercase"`. -/
def Chain.wire_name : Chain → String
  | .Ethereum => "ethereum"
  | .Tron => "tron"

/-- The two modes of Ethereum, and the one of Tron. -/
inductive FeeMode where
  | Eip1559
  | Legacy
  | Tron
  deriving DecidableEq, Repr

/-- The name of a mode, in a payload as in a message. -/
def FeeMode.as_str : FeeMode → String
  | .Eip1559 => "EIP1559"
  | .Legacy => "LEGACY"
  | .Tron => "TRON"

/-- The intent a payload expresses. -/
inductive TxType where
  | TransferNative
  | TransferToken
  deriving DecidableEq, Repr

/-- The name an intent is serialised under. -/
def TxType.wire_name : TxType → String
  | .TransferNative => "TRANSFER_NATIVE"
  | .TransferToken => "TRANSFER_TOKEN"

/-- The block a Tron transaction refers to, against replays. The names are those of the wire
format. -/
structure TronBlockHeader where
  /-- block hash -/
  h : String
  /-- block number -/
  n : UInt64
  /-- block timestamp, in milliseconds -/
  t : UInt64
  /-- parent hash, transaction trie root and witness: informational -/
  p : Option String
  r : Option String
  w : Option String
  /-- protocol version -/
  v : UInt32
  deriving DecidableEq

/-- The fee of every mode in one record. The source means one group of fields to be there at a time,
and the type does not say so. -/
structure FeeParams where
  mode : FeeMode
  gas_limit : Option String
  base_fee_per_gas : Option String
  max_priority_fee_per_gas : Option String
  max_fee_per_gas : Option String
  gas_price : Option String
  /-- Tron energy fee limit, in SUN -/
  el : Option String
  /-- Tron reference block -/
  rp : Option TronBlockHeader
  deriving DecidableEq

/-- A payload that has been read. Amounts are still texts, of any size. -/
structure PreparedTransaction where
  chain : Chain
  chain_id : Option Int64
  «from» : String
  «to» : String
  value_wei : String
  data : Option String
  tx_type : TxType
  token_contract : Option String
  nonce : Option String
  fee : FeeParams
  deriving DecidableEq

/-- How a transaction was compiled; the last three fields belong to one chain each. -/
structure CompilationMetadata where
  tx_type : TxType
  fee_mode : FeeMode
  evm_tx_type : Option UInt8
  tron_contract_type : Option UInt8
  expiration : Option UInt64
  deriving DecidableEq

/-- What there is to sign, in hexadecimal: the signing pre-image on Ethereum, `raw_data` on Tron.
The hash is the Keccak-256 or the SHA-256 of these bytes. -/
structure CompilationResult where
  chain : Chain
  unsigned_tx : String
  tx_hash : String
  metadata : CompilationMetadata
  deriving DecidableEq

/-- The fee, as it is displayed. -/
structure FeeReview where
  mode : FeeMode
  estimated_max_cost : Option String
  gas_limit : Option String
  gas_price : Option String
  max_fee_per_gas : Option String
  max_priority_fee_per_gas : Option String
  base_fee_per_gas : Option String
  tron_fee_limit : Option String
  deriving DecidableEq

/-- The transaction, as it is displayed to the person who approves it. -/
structure TransactionReview where
  chain : Chain
  tx_type : TxType
  «from» : String
  recipient : String
  amount : String
  token_contract : Option String
  nonce : Option String
  chain_id : Option Int64
  fee : FeeReview
  deriving DecidableEq

/-- A clock to use in place of that of the system, in milliseconds. -/
structure CompileOptions where
  now : Option UInt64
  deriving DecidableEq

/-- `CompileOptions::new().with_now(now_ms)`. -/
def CompileOptions.with_now (now_ms : UInt64) : CompileOptions := { now := some now_ms }

/-! ## `constants.rs` -/

/-- The selector of `transfer(address,uint256)`. -/
def ERC20_TRANSFER_SELECTOR_BYTES : List UInt8 := [0xa9, 0x05, 0x9c, 0xbb]

/-- The same four bytes as the checks on calldata compare them. -/
def ERC20_TRANSFER_SELECTOR_HEX : String := "a9059cbb"

/-- The selector and two words of thirty-two bytes, in digits. -/
def ERC20_TRANSFER_CALLDATA_HEX_LEN : ℕ := 136

/-- `TransferContract`, in the enumeration of contract types. -/
def TRON_CONTRACT_TYPE_TRANSFER : UInt8 := 1

/-- `TriggerSmartContract`. -/
def TRON_CONTRACT_TYPE_TRIGGER_SMART : UInt8 := 31

/-- The type byte of an EIP-1559 envelope. -/
def EVM_TX_TYPE_EIP1559 : UInt8 := 2

/-- A legacy envelope has no type byte; this is what the metadata says in its place. -/
def EVM_TX_TYPE_LEGACY : UInt8 := 0

/-- The selector is written twice in the source, as bytes and as text; the two agree. -/
theorem selector_hex_spells_bytes :
    Hex.decode (Rust.bytes ERC20_TRANSFER_SELECTOR_HEX) = some ERC20_TRANSFER_SELECTOR_BYTES := by
  decide

/-- The calldata of `transfer(recipient, amount)`, as bytes. -/
def transfer_calldata (recipient amount : List UInt8) : List UInt8 :=
  ERC20_TRANSFER_SELECTOR_BYTES ++ List.replicate 12 0 ++ recipient ++ amount

theorem length_transfer_calldata {recipient amount : List UInt8} (h20 : recipient.length = 20)
    (h32 : amount.length = 32) : (transfer_calldata recipient amount).length = 68 := by
  simp [transfer_calldata, ERC20_TRANSFER_SELECTOR_BYTES, h20, h32]

end TxCompiler
