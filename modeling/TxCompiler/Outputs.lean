/-
The serde layout of what the three operations answer, and **receipts**: a result, a review or an
error that is written into an audit record is read back as it was.

For results and reviews this is a matter of the derived code alone. An error has one value that is
not read back, details that are `null`: a member that is `null` is read as an absent one. No
operation answers such an error, because all of their errors come from the two constructors of
`error.rs`, whose details are missing or an object (`TxCompilerError.Has`).

The names of the error codes are in the source twice, as the case conversion of the derived code
and in `as_str`. The two agree, and the text an error is displayed as determines both of its parts.
-/
import TxCompiler.CompileRules

set_option autoImplicit false

namespace TxCompiler

open Rust Json Serde

/-! ## Writing -/

/-- The fields of one chain are left out for the other. -/
def CompilationMetadata.members (metadata : CompilationMetadata) : Map :=
  [("txType", metadata.tx_type.to_value), ("feeMode", metadata.fee_mode.to_value)] ++
    (skip_none "evmTxType" (fun n => .from_u64 n.toUInt64) metadata.evm_tx_type ++
      skip_none "tronContractType" (fun n => .from_u64 n.toUInt64) metadata.tron_contract_type ++
      skip_none "expiration" .from_u64 metadata.expiration)

def CompilationMetadata.to_value (metadata : CompilationMetadata) : Value :=
  .object metadata.members

/-- The members of a result, in the order of its fields. -/
def CompilationResult.members (res : CompilationResult) : Map :=
  [("chain", res.chain.to_value), ("unsignedTx", .string res.unsigned_tx),
    ("txHash", .string res.tx_hash), ("metadata", res.metadata.to_value)]

def CompilationResult.to_value (res : CompilationResult) : Value := .object res.members

/-- The estimate is `null` when there is none; the other fields are left out. -/
def FeeReview.members (fee : FeeReview) : Map :=
  [("mode", fee.mode.to_value),
    ("estimatedMaxCost", Value.from_option .string fee.estimated_max_cost)] ++
    (skip_none "gasLimit" .string fee.gas_limit ++
      skip_none "gasPrice" .string fee.gas_price ++
      skip_none "maxFeePerGas" .string fee.max_fee_per_gas ++
      skip_none "maxPriorityFeePerGas" .string fee.max_priority_fee_per_gas ++
      skip_none "baseFeePerGas" .string fee.base_fee_per_gas ++
      skip_none "tronFeeLimit" .string fee.tron_fee_limit)

def FeeReview.to_value (fee : FeeReview) : Value := .object fee.members

/-- A review has no member that is left out: what is absent is `null`. -/
def TransactionReview.members (r : TransactionReview) : Map :=
  [("chain", r.chain.to_value), ("txType", r.tx_type.to_value), ("from", .string r.«from»),
    ("recipient", .string r.recipient), ("amount", .string r.amount),
    ("tokenContract", Value.from_option .string r.token_contract),
    ("nonce", Value.from_option .string r.nonce),
    ("chainId", Value.from_option .from_i64 r.chain_id), ("fee", r.fee.to_value)]

def TransactionReview.to_value (r : TransactionReview) : Value := .object r.members

/-! ## Reading -/

/-- The number is the place of the field when the value is an array. -/
def CompilationMetadata.from_value (v : Value) : Option CompilationMetadata := do
  let src ← source 5 v
  let tx_type ← required src 0 "txType" (read_variant TxType.from_name)
  let fee_mode ← required src 1 "feeMode" (read_variant FeeMode.from_name)
  let evm_tx_type ← optional src 2 "evmTxType" read_u8
  let tron_contract_type ← optional src 3 "tronContractType" read_u8
  let expiration ← optional src 4 "expiration" read_u64
  some { tx_type, fee_mode, evm_tx_type, tron_contract_type, expiration }

def CompilationResult.from_value (v : Value) : Option CompilationResult := do
  let src ← source 4 v
  let chain ← required src 0 "chain" (read_variant Chain.from_name)
  let unsigned_tx ← required src 1 "unsignedTx" read_string
  let tx_hash ← required src 2 "txHash" read_string
  let metadata ← required src 3 "metadata" CompilationMetadata.from_value
  some { chain, unsigned_tx, tx_hash, metadata }

def FeeReview.from_value (v : Value) : Option FeeReview := do
  let src ← source 8 v
  let mode ← required src 0 "mode" (read_variant FeeMode.from_name)
  let estimated_max_cost ← optional src 1 "estimatedMaxCost" read_string
  let gas_limit ← optional src 2 "gasLimit" read_string
  let gas_price ← optional src 3 "gasPrice" read_string
  let max_fee_per_gas ← optional src 4 "maxFeePerGas" read_string
  let max_priority_fee_per_gas ← optional src 5 "maxPriorityFeePerGas" read_string
  let base_fee_per_gas ← optional src 6 "baseFeePerGas" read_string
  let tron_fee_limit ← optional src 7 "tronFeeLimit" read_string
  some {
    mode := mode
    estimated_max_cost
    gas_limit
    gas_price
    max_fee_per_gas
    max_priority_fee_per_gas
    base_fee_per_gas
    tron_fee_limit }

def TransactionReview.from_value (v : Value) : Option TransactionReview := do
  let src ← source 9 v
  let chain ← required src 0 "chain" (read_variant Chain.from_name)
  let tx_type ← required src 1 "txType" (read_variant TxType.from_name)
  let from_ ← required src 2 "from" read_string
  let recipient ← required src 3 "recipient" read_string
  let amount ← required src 4 "amount" read_string
  let token_contract ← optional src 5 "tokenContract" read_string
  let nonce ← optional src 6 "nonce" read_string
  let chain_id ← optional src 7 "chainId" read_i64
  let fee ← required src 8 "fee" FeeReview.from_value
  some { chain, tx_type, «from» := from_, recipient, amount, token_contract, nonce, chain_id, fee }

/-! ## Errors -/

/-- The identifier of the variant. -/
def TxCompilerErrorCode.ident : TxCompilerErrorCode → String
  | .InvalidPayload => "InvalidPayload"
  | .UnsupportedChain => "UnsupportedChain"
  | .UnsupportedTxType => "UnsupportedTxType"
  | .UnsupportedFeeMode => "UnsupportedFeeMode"
  | .InvalidAddress => "InvalidAddress"
  | .InvalidAmount => "InvalidAmount"
  | .MissingFeeParams => "MissingFeeParams"
  | .InvalidBlockHeader => "InvalidBlockHeader"
  | .InvalidCalldata => "InvalidCalldata"
  | .CompilationFailed => "CompilationFailed"

/-- The name of a code in a displayed error. -/
def TxCompilerErrorCode.as_str : TxCompilerErrorCode → String
  | .InvalidPayload => "INVALID_PAYLOAD"
  | .UnsupportedChain => "UNSUPPORTED_CHAIN"
  | .UnsupportedTxType => "UNSUPPORTED_TX_TYPE"
  | .UnsupportedFeeMode => "UNSUPPORTED_FEE_MODE"
  | .InvalidAddress => "INVALID_ADDRESS"
  | .InvalidAmount => "INVALID_AMOUNT"
  | .MissingFeeParams => "MISSING_FEE_PARAMS"
  | .InvalidBlockHeader => "INVALID_BLOCK_HEADER"
  | .InvalidCalldata => "INVALID_CALLDATA"
  | .CompilationFailed => "COMPILATION_FAILED"

/-- `rename_all = "SCREAMING_SNAKE_CASE"`. -/
def TxCompilerErrorCode.wire_name (code : TxCompilerErrorCode) : String :=
  screaming_snake_case code.ident

def TxCompilerErrorCode.to_value (code : TxCompilerErrorCode) : Value := .string code.wire_name

/-- The variants, in the order of the declaration. -/
def TxCompilerErrorCode.variants : List TxCompilerErrorCode :=
  [.InvalidPayload, .UnsupportedChain, .UnsupportedTxType, .UnsupportedFeeMode, .InvalidAddress,
    .InvalidAmount, .MissingFeeParams, .InvalidBlockHeader, .InvalidCalldata, .CompilationFailed]

/-- A code by the name it is serialised under. -/
def TxCompilerErrorCode.from_name (s : String) : Option TxCompilerErrorCode :=
  variants.find? fun code => code.wire_name = s

/-- Details that are absent are left out, and details that are `null` are not. -/
def TxCompilerError.members (e : TxCompilerError) : Map :=
  [("code", e.code.to_value), ("message", .string e.message)] ++ skip_none "details" id e.details

def TxCompilerError.to_value (e : TxCompilerError) : Value := .object e.members

/-- The details are any value, so reading them cannot fail. -/
def TxCompilerError.from_value (v : Value) : Option TxCompilerError := do
  let src ← source 3 v
  let code ← required src 0 "code" (read_variant TxCompilerErrorCode.from_name)
  let message ← required src 1 "message" read_string
  let details ← optional src 2 "details" some
  some { code, message, details }

/-- `fmt::Display`. -/
def TxCompilerError.display (e : TxCompilerError) : String := s!"{e.code.as_str}: {e.message}"

/-! ## The members that were written -/

/-- What is found under each name of a written record; one lemma a record. -/
theorem metadata_get (metadata : CompilationMetadata) :
    metadata.members.get "txType" = some metadata.tx_type.to_value ∧
    metadata.members.get "feeMode" = some metadata.fee_mode.to_value ∧
    metadata.members.get "evmTxType"
      = metadata.evm_tx_type.map (fun n => .from_u64 n.toUInt64) ∧
    metadata.members.get "tronContractType"
      = metadata.tron_contract_type.map (fun n => .from_u64 n.toUInt64) ∧
    metadata.members.get "expiration" = metadata.expiration.map .from_u64 := by
  simp [CompilationMetadata.members, Map.get_cons, get_append, get_skip_none]

theorem result_get (res : CompilationResult) :
    res.members.get "chain" = some res.chain.to_value ∧
    res.members.get "unsignedTx" = some (.string res.unsigned_tx) ∧
    res.members.get "txHash" = some (.string res.tx_hash) ∧
    res.members.get "metadata" = some res.metadata.to_value := by
  simp [CompilationResult.members, Map.get_cons]

theorem fee_review_get (fee : FeeReview) :
    fee.members.get "mode" = some fee.mode.to_value ∧
    fee.members.get "estimatedMaxCost"
      = some (Value.from_option .string fee.estimated_max_cost) ∧
    fee.members.get "gasLimit" = fee.gas_limit.map .string ∧
    fee.members.get "gasPrice" = fee.gas_price.map .string ∧
    fee.members.get "maxFeePerGas" = fee.max_fee_per_gas.map .string ∧
    fee.members.get "maxPriorityFeePerGas" = fee.max_priority_fee_per_gas.map .string ∧
    fee.members.get "baseFeePerGas" = fee.base_fee_per_gas.map .string ∧
    fee.members.get "tronFeeLimit" = fee.tron_fee_limit.map .string := by
  simp [FeeReview.members, Map.get_cons, get_append, get_skip_none]

theorem review_get (r : TransactionReview) :
    r.members.get "chain" = some r.chain.to_value ∧
    r.members.get "txType" = some r.tx_type.to_value ∧
    r.members.get "from" = some (.string r.«from») ∧
    r.members.get "recipient" = some (.string r.recipient) ∧
    r.members.get "amount" = some (.string r.amount) ∧
    r.members.get "tokenContract" = some (Value.from_option .string r.token_contract) ∧
    r.members.get "nonce" = some (Value.from_option .string r.nonce) ∧
    r.members.get "chainId" = some (Value.from_option .from_i64 r.chain_id) ∧
    r.members.get "fee" = some r.fee.to_value := by
  simp [TransactionReview.members, Map.get_cons]

/-- The details are the only member that may be missing. -/
theorem error_get (e : TxCompilerError) :
    e.members.get "code" = some e.code.to_value ∧
    e.members.get "message" = some (.string e.message) ∧
    e.members.get "details" = e.details := by
  simp [TxCompilerError.members, Map.get_cons, get_skip_none]

/-! ## The deserialiser reads back what was written -/

theorem read_u8_from (n : UInt8) : read_u8 (.from_u64 n.toUInt64) = some n := by
  have hlt : n.toUInt64.toNat < 2 ^ 8 := by
    rw [UInt8.toNat_toUInt64]
    exact n.toNat_lt
  show u8_try_from_u64 n.toUInt64 = some n
  rw [u8_try_from_u64, if_pos hlt, UInt8.toUInt8_toUInt64]

theorem from_u64_ne_null (n : UInt64) : Value.from_u64 n ≠ .null := by simp [Value.from_u64]

theorem metadata_from_to (metadata : CompilationMetadata) :
    CompilationMetadata.from_value metadata.to_value = some metadata := by
  obtain ⟨htx, hmode, hevm, htron, hexp⟩ := metadata_get metadata
  have htx' := @required_of_get _ _ _ (read_variant TxType.from_name) _ 0 metadata.tx_type htx
    (read_tx_type metadata.tx_type)
  have hmode' := @required_of_get _ _ _ (read_variant FeeMode.from_name) _ 1 metadata.fee_mode hmode
    (read_mode metadata.fee_mode)
  have hevm' := @optional_of_get _ _ _ read_u8 _ 2 metadata.evm_tx_type hevm read_u8_from
    fun n => from_u64_ne_null _
  have htron' := @optional_of_get _ _ _ read_u8 _ 3 metadata.tron_contract_type htron read_u8_from
    fun n => from_u64_ne_null _
  have hexp' := @optional_of_get _ _ _ read_u64 _ 4 metadata.expiration hexp (fun _ => rfl)
    from_u64_ne_null
  simp only [CompilationMetadata.from_value, CompilationMetadata.to_value, source, htx', hmode',
    hevm', htron', hexp', Option.bind_eq_bind, Option.bind_some]

theorem result_from_to (res : CompilationResult) :
    CompilationResult.from_value res.to_value = some res := by
  obtain ⟨hchain, htx, hhash, hmetadata⟩ := result_get res
  have hchain' := @required_of_get _ _ _ (read_variant Chain.from_name) _ 0 res.chain hchain
    (read_chain res.chain)
  have hmetadata' := @required_of_get _ _ _ CompilationMetadata.from_value _ 3 res.metadata
    hmetadata (metadata_from_to res.metadata)
  simp only [CompilationResult.from_value, CompilationResult.to_value, source, hchain',
    text_of_get 1 htx, text_of_get 2 hhash, hmetadata', Option.bind_eq_bind, Option.bind_some]

theorem fee_review_from_to (fee : FeeReview) : FeeReview.from_value fee.to_value = some fee := by
  obtain ⟨hmode, h1, h2, h3, h4, h5, h6, h7⟩ := fee_review_get fee
  have hmode' := @required_of_get _ _ _ (read_variant FeeMode.from_name) _ 0 fee.mode hmode
    (read_mode fee.mode)
  simp only [FeeReview.from_value, FeeReview.to_value, source, hmode', null_text_of_get 1 h1,
    opt_text_of_get 2 h2, opt_text_of_get 3 h3, opt_text_of_get 4 h4, opt_text_of_get 5 h5,
    opt_text_of_get 6 h6, opt_text_of_get 7 h7, Option.bind_eq_bind, Option.bind_some]

theorem review_from_to (r : TransactionReview) :
    TransactionReview.from_value r.to_value = some r := by
  obtain ⟨hchain, htx, hfrom, hrecipient, hamount, htoken, hnonce, hid, hfee⟩ := review_get r
  have hchain' := @required_of_get _ _ _ (read_variant Chain.from_name) _ 0 r.chain hchain
    (read_chain r.chain)
  have htx' := @required_of_get _ _ _ (read_variant TxType.from_name) _ 1 r.tx_type htx
    (read_tx_type r.tx_type)
  have hid' := @optional_of_get_null _ _ _ read_i64 _ 7 r.chain_id hid Value.as_i64_from_i64
    Value.from_i64_ne_null
  have hfee' := @required_of_get _ _ _ FeeReview.from_value _ 8 r.fee hfee
    (fee_review_from_to r.fee)
  simp only [TransactionReview.from_value, TransactionReview.to_value, source, hchain', htx',
    text_of_get 2 hfrom, text_of_get 3 hrecipient, text_of_get 4 hamount,
    null_text_of_get 5 htoken, null_text_of_get 6 hnonce, hid', hfee', Option.bind_eq_bind,
    Option.bind_some]

/-! ## The two spellings of a code -/

/-- The source names a code twice, by a macro and by hand; the names are the same. -/
theorem code_wire_name_eq (code : TxCompilerErrorCode) : code.wire_name = code.as_str := by
  cases code <;> decide

theorem read_code (code : TxCompilerErrorCode) :
    read_variant TxCompilerErrorCode.from_name code.to_value = some code := by
  cases code <;> decide

/-- The text of an error is that of its code up to the first colon. -/
theorem code_no_colon (code : TxCompilerErrorCode) : ':' ∉ code.as_str.toList := by
  cases code <;> decide

theorem as_str_inj {code code' : TxCompilerErrorCode} (h : code.as_str = code'.as_str) :
    code = code' := by
  have hread := read_code code
  rw [TxCompilerErrorCode.to_value, code_wire_name_eq, h, ← code_wire_name_eq] at hread
  exact Option.some.inj (hread.symm.trans (read_code code'))

theorem display_toList (e : TxCompilerError) :
    e.display.toList = e.code.as_str.toList ++ ':' :: ' ' :: e.message.toList := by
  show (e.code.as_str ++ ": " ++ e.message).toList = _
  rw [String.toList_append, String.toList_append, List.append_assoc]
  rfl

/-- No code has a colon in it, so the first one ends the code. -/
theorem takeWhile_code (code : TxCompilerErrorCode) (rest : List Char) :
    (code.as_str.toList ++ ':' :: rest).takeWhile (· ≠ ':') = code.as_str.toList := by
  have hpos : ∀ c ∈ code.as_str.toList, decide (c ≠ ':') = true := by
    intro c hc
    rw [decide_eq_true_eq]
    rintro rfl
    exact code_no_colon code hc
  rw [List.takeWhile_append_of_pos hpos, List.takeWhile_cons_of_neg (by simp), List.append_nil]

/-- Both parts of an error can be read off the text it is displayed as; its details cannot. -/
theorem display_eq_iff (e e' : TxCompilerError) :
    e.display = e'.display ↔ e.code = e'.code ∧ e.message = e'.message := by
  constructor
  · intro h
    have hlist := congrArg String.toList h
    rw [display_toList, display_toList] at hlist
    have hcode : e.code.as_str.toList = e'.code.as_str.toList := by
      rw [← takeWhile_code e.code (' ' :: e.message.toList), hlist, takeWhile_code]
    rw [hcode, List.append_cancel_left_eq, List.cons.injEq, List.cons.injEq] at hlist
    exact ⟨as_str_inj (String.toList_inj.1 hcode), String.toList_inj.1 hlist.2.2⟩
  · rintro ⟨hcode, hmessage⟩
    rw [TxCompilerError.display, TxCompilerError.display, hcode, hmessage]

/-! ## Which errors are read back -/

/-- Of an error only details that are `null` are not read back. -/
theorem error_from_to_iff (e : TxCompilerError) :
    TxCompilerError.from_value e.to_value = some e ↔ e.details ≠ some .null := by
  obtain ⟨hcode, hmessage, hdetails⟩ := error_get e
  have hcode' := @required_of_get _ _ _ (read_variant TxCompilerErrorCode.from_name) _ 0 e.code
    hcode (read_code e.code)
  have hread : TxCompilerError.from_value e.to_value
      = (Serde.optional (.members e.members) 2 "details" some).map
        fun details => { e with details } := by
    simp only [TxCompilerError.from_value, TxCompilerError.to_value, source, hcode',
      text_of_get 1 hmessage, Option.bind_eq_bind, Option.bind_some]
    cases Serde.optional (.members e.members) 2 "details" some <;> rfl
  rw [hread, Serde.optional, Source.field, hdetails]
  cases hd : e.details with
  | none =>
    refine iff_of_true ?_ (by simp)
    rw [Option.map_some, ← hd]
  | some v =>
    by_cases hnull : v = .null
    · subst hnull
      refine iff_of_false ?_ (by simp)
      intro heq
      have hd' := congrArg TxCompilerError.details (Option.some.inj heq)
      rw [hd] at hd'
      exact absurd hd' (by simp)
    · refine iff_of_true ?_ (by simpa using hnull)
      have hv : read_option some v = some (some v) := @read_option_write _ some id v rfl hnull
      dsimp only
      rw [hv, Option.map_some, ← hd]

/-- Neither constructor of an error gives it `null` for details. -/
theorem TxCompilerError.Has.details_ne_null {code : TxCompilerErrorCode} {e : TxCompilerError}
    (h : Has code e) : e.details ≠ some .null := by
  cases h with
  | new message => simp [TxCompilerError.new]
  | with_details message details => simp [TxCompilerError.with_details]

/-- An error of one of the operations. -/
def Answered (cr : Crates) (e : TxCompilerError) : Prop :=
  (∃ v, validate cr v = .error (.err e)) ∨ (∃ p, review cr p = .error (.err e)) ∨
    ∃ p options, compile cr p options = .error (.err e)

theorem has_of_answered {cr : Crates} (hhex : HexLaws cr) {e : TxCompilerError}
    (h : Answered cr e) : ∃ code, TxCompilerError.Has code e := by
  rcases h with ⟨v, he⟩ | ⟨p, he⟩ | ⟨p, options, he⟩
  · obtain ⟨code, -, hcode⟩ := (validate_codes hhex v).reports he
    exact ⟨code, hcode⟩
  · exact ⟨_, review_errs e he⟩
  · obtain ⟨code, -, hcode⟩ := (compile_codes hhex options).reports he
    exact ⟨code, hcode⟩

/-- **Receipts.** What an operation answers is read back from its serialised form: every result and
every review, and every error but one whose details are `null`, which none of them answers. A code
is written as the text `as_str` has for it, and the text an error is displayed as tells its code
and its message. -/
theorem receipts_round_trip {cr : Crates} (hhex : HexLaws cr) :
    (∀ res : CompilationResult, CompilationResult.from_value res.to_value = some res) ∧
      (∀ r : TransactionReview, TransactionReview.from_value r.to_value = some r) ∧
      (∀ e : TxCompilerError,
        TxCompilerError.from_value e.to_value = some e ↔ e.details ≠ some .null) ∧
      (∀ e, Answered cr e → TxCompilerError.from_value e.to_value = some e) ∧
      (∀ code : TxCompilerErrorCode, code.to_value = .string code.as_str) ∧
      ∀ e e' : TxCompilerError,
        e.display = e'.display ↔ e.code = e'.code ∧ e.message = e'.message := by
  refine ⟨result_from_to, review_from_to, error_from_to_iff, ?_, ?_, display_eq_iff⟩
  · intro e he
    obtain ⟨code, hcode⟩ := has_of_answered hhex he
    exact (error_from_to_iff e).2 hcode.details_ne_null
  · intro code
    rw [TxCompilerErrorCode.to_value, code_wire_name_eq]

/-- The error of a payload whose amount is a word, with its details. -/
theorem amount_error_receipt :
    ∃ e, validate reference (tron_native_payload "five" .null) = .error (.err e) ∧
      e.details = some (.object [("field", .string "valueWei"), ("value", .string "five")]) ∧
      TxCompilerError.from_value e.to_value = some e := by
  obtain ⟨-, -, -, hanswered, -⟩ := receipts_round_trip reference_hex
  have he : validate reference (tron_native_payload "five" .null)
      = .error (.err (int_error "valueWei" (some (.string "five")))) := rfl
  exact ⟨_, he, rfl, hanswered _ (.inl ⟨_, he⟩)⟩

end TxCompiler
