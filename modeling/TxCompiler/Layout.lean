/-
The serde layout of `types.rs`, and **validation through the wire format**: a validated
transaction that is serialised and validated again, or deserialised, is the same
transaction.

Three pieces of code have to agree on every field for that: the derived writer, the derived
reader and the hand-written validator. The writer leaves out an absent fee field and writes
`null` for an absent field of the transaction; the reader takes a missing field and `null`
for `None`, and so does the validator.
-/
import TxCompiler.Reference
import TxCompiler.Serde
import TxCompiler.Validated

set_option autoImplicit false

namespace TxCompiler

open Rust Json Serde

/-! ## Writing -/

/-- A variant without fields is written as its name. -/
def Chain.to_value (chain : Chain) : Value := .string chain.wire_name

/-- `rename` gives each variant the name `as_str` has. -/
def FeeMode.to_value (mode : FeeMode) : Value := .string mode.as_str

/-- The intents are renamed one by one, too. -/
def TxType.to_value (tx_type : TxType) : Value := .string tx_type.wire_name

/-- The members of a header in the order of the declaration. The optional ones are skipped when
they are `None`, not written as `null`. -/
def TronBlockHeader.members (header : TronBlockHeader) : Map :=
  -- the version is declared last, behind the optional fields
  [("h", .string header.h), ("n", .from_u64 header.n), ("t", .from_u64 header.t)] ++
    (skip_none "p" .string header.p ++ skip_none "r" .string header.r ++
      skip_none "w" .string header.w) ++ [("v", .from_u64 header.v.toUInt64)]

def TronBlockHeader.to_value (header : TronBlockHeader) : Value := .object header.members

/-- Every field of the fee but its mode is skipped when it is `None`, those of the other modes
included. -/
def FeeParams.members (fee : FeeParams) : Map :=
  [("mode", fee.mode.to_value)] ++
    (skip_none "gasLimit" .string fee.gas_limit ++
      skip_none "baseFeePerGas" .string fee.base_fee_per_gas ++
      skip_none "maxPriorityFeePerGas" .string fee.max_priority_fee_per_gas ++
      skip_none "maxFeePerGas" .string fee.max_fee_per_gas ++
      skip_none "gasPrice" .string fee.gas_price ++
      skip_none "el" .string fee.el ++
      skip_none "rp" TronBlockHeader.to_value fee.rp)

def FeeParams.to_value (fee : FeeParams) : Value := .object fee.members

/-- The transaction itself has no skipped field: what is absent is written as `null`. -/
def PreparedTransaction.members (p : PreparedTransaction) : Map :=
  [("chain", p.chain.to_value), ("chainId", Value.from_option .from_i64 p.chain_id),
    ("from", .string p.«from»), ("to", .string p.«to»), ("valueWei", .string p.value_wei),
    ("data", Value.from_option .string p.data), ("txType", p.tx_type.to_value),
    ("tokenContract", Value.from_option .string p.token_contract),
    ("nonce", Value.from_option .string p.nonce), ("fee", p.fee.to_value)]

/-- `serde_json::to_value`. -/
def PreparedTransaction.to_value (p : PreparedTransaction) : Value := .object p.members

/-! ## Reading -/

/-- The names are matched as they are, letter case included. -/
def Chain.from_name : String → Option Chain
  | "ethereum" => some .Ethereum
  | "tron" => some .Tron
  | _ => none

/-- The three names of `mode`, which the validator also matches letter by letter. -/
def FeeMode.from_name : String → Option FeeMode
  | "EIP1559" => some .Eip1559
  | "LEGACY" => some .Legacy
  | "TRON" => some .Tron
  | _ => none

/-- The two intents. -/
def TxType.from_name : String → Option TxType
  | "TRANSFER_NATIVE" => some .TransferNative
  | "TRANSFER_TOKEN" => some .TransferToken
  | _ => none

/-- The derived reader of a header: seven fields, found by name in an object and by position in an
array. The lengths and the digits that `validate` asks for are not looked at. -/
def TronBlockHeader.from_value (v : Value) : Option TronBlockHeader := do
  let src ← source 7 v
  let h ← required src 0 "h" read_string
  let n ← required src 1 "n" read_u64
  let t ← required src 2 "t" read_u64
  let p ← optional src 3 "p" read_string
  let r ← optional src 4 "r" read_string
  let w ← optional src 5 "w" read_string
  let v ← required src 6 "v" read_u32
  some { h := h, n, t, p, r, w, v }

/-- The derived reader of the fee. A field of any mode is kept, and an amount is any text. -/
def FeeParams.from_value (v : Value) : Option FeeParams := do
  let src ← source 8 v
  let mode ← required src 0 "mode" (read_variant FeeMode.from_name)
  let gas_limit ← optional src 1 "gasLimit" read_string
  let base_fee_per_gas ← optional src 2 "baseFeePerGas" read_string
  let max_priority_fee_per_gas ← optional src 3 "maxPriorityFeePerGas" read_string
  let max_fee_per_gas ← optional src 4 "maxFeePerGas" read_string
  let gas_price ← optional src 5 "gasPrice" read_string
  let el ← optional src 6 "el" read_string
  let rp ← optional src 7 "rp" TronBlockHeader.from_value
  some {
    mode := mode
    gas_limit
    base_fee_per_gas
    max_priority_fee_per_gas
    max_fee_per_gas
    gas_price
    el
    rp }

/-- The derived reader of a transaction, which is the way around `validate`. -/
def PreparedTransaction.from_value (v : Value) : Option PreparedTransaction := do
  let src ← source 10 v
  let chain ← required src 0 "chain" (read_variant Chain.from_name)
  let chain_id ← optional src 1 "chainId" read_i64
  let from_ ← required src 2 "from" read_string
  let to_ ← required src 3 "to" read_string
  let value_wei ← required src 4 "valueWei" read_string
  let data ← optional src 5 "data" read_string
  let tx_type ← required src 6 "txType" (read_variant TxType.from_name)
  let token_contract ← optional src 7 "tokenContract" read_string
  let nonce ← optional src 8 "nonce" read_string
  let fee ← required src 9 "fee" FeeParams.from_value
  some {
    chain
    chain_id
    «from» := from_
    «to» := to_
    value_wei
    data
    tx_type
    token_contract
    nonce
    fee }

/-! ## The members that were written -/

/-- No name of a header is written twice, so each field is found behind the others. -/
theorem header_get (header : TronBlockHeader) :
    header.members.get "h" = some (.string header.h) ∧
    header.members.get "n" = some (.from_u64 header.n) ∧
    header.members.get "t" = some (.from_u64 header.t) ∧
    header.members.get "p" = header.p.map .string ∧
    header.members.get "r" = header.r.map .string ∧
    header.members.get "w" = header.w.map .string ∧
    header.members.get "v" = some (.from_u64 header.v.toUInt64) := by
  simp [TronBlockHeader.members, Map.get_cons, get_append, get_skip_none]

theorem fee_get (fee : FeeParams) :
    fee.members.get "mode" = some fee.mode.to_value ∧
    fee.members.get "gasLimit" = fee.gas_limit.map .string ∧
    fee.members.get "baseFeePerGas" = fee.base_fee_per_gas.map .string ∧
    fee.members.get "maxPriorityFeePerGas" = fee.max_priority_fee_per_gas.map .string ∧
    fee.members.get "maxFeePerGas" = fee.max_fee_per_gas.map .string ∧
    fee.members.get "gasPrice" = fee.gas_price.map .string ∧
    fee.members.get "el" = fee.el.map .string ∧
    fee.members.get "rp" = fee.rp.map TronBlockHeader.to_value := by
  simp [FeeParams.members, Map.get_cons, get_append, get_skip_none]

/-- All ten names are there, with `null` for what is absent. -/
theorem transaction_get (p : PreparedTransaction) :
    p.members.get "chain" = some p.chain.to_value ∧
    p.members.get "chainId" = some (Value.from_option .from_i64 p.chain_id) ∧
    p.members.get "from" = some (.string p.«from») ∧
    p.members.get "to" = some (.string p.«to») ∧
    p.members.get "valueWei" = some (.string p.value_wei) ∧
    p.members.get "data" = some (Value.from_option .string p.data) ∧
    p.members.get "txType" = some p.tx_type.to_value ∧
    p.members.get "tokenContract" = some (Value.from_option .string p.token_contract) ∧
    p.members.get "nonce" = some (Value.from_option .string p.nonce) ∧
    p.members.get "fee" = some p.fee.to_value := by
  simp [PreparedTransaction.members, Map.get_cons]

/-! ## The deserialiser reads back what was written -/

theorem read_chain (chain : Chain) : read_variant Chain.from_name chain.to_value = some chain := by
  cases chain <;> rfl

theorem read_mode (mode : FeeMode) : read_variant FeeMode.from_name mode.to_value = some mode := by
  cases mode <;> rfl

theorem read_tx_type (tx_type : TxType) :
    read_variant TxType.from_name tx_type.to_value = some tx_type := by
  cases tx_type <;> rfl

/-- The version is widened to be written and narrowed to be read. -/
theorem read_u32_from (v : UInt32) : read_u32 (.from_u64 v.toUInt64) = some v := by
  have hlt : v.toUInt64.toNat < 2 ^ 32 := by
    rw [UInt32.toNat_toUInt64]
    exact v.toNat_lt
  show u32_try_from_u64 v.toUInt64 = some v
  rw [u32_try_from_u64, if_pos hlt, UInt32.toUInt32_toUInt64]

theorem string_ne_null (s : String) : Value.string s ≠ .null := by simp

/-- A text that was written reads back from its position. -/
theorem text_of_get {m : Map} {name s : String} (index : ℕ)
    (h : m.get name = some (.string s)) : required (.members m) index name read_string = some s :=
  @required_of_get _ _ _ read_string .string index s h rfl

/-- The same of a text that is skipped when it is absent. -/
theorem opt_text_of_get {m : Map} {name : String} {o : Option String} (index : ℕ)
    (h : m.get name = o.map .string) : optional (.members m) index name read_string = some o :=
  optional_of_get h (fun _ => rfl) string_ne_null

/-- And of one that is written as `null`. -/
theorem null_text_of_get {m : Map} {name : String} {o : Option String} (index : ℕ)
    (h : m.get name = some (Value.from_option .string o)) :
    optional (.members m) index name read_string = some o :=
  optional_of_get_null h (fun _ => rfl) string_ne_null

/-- A header is read back, whatever its fields are. -/
theorem header_from_to (header : TronBlockHeader) :
    TronBlockHeader.from_value header.to_value = some header := by
  obtain ⟨hh, hn, ht, hp, hr, hw, hv⟩ := header_get header
  have hn' := @required_of_get _ _ _ read_u64 _ 1 header.n hn rfl
  have ht' := @required_of_get _ _ _ read_u64 _ 2 header.t ht rfl
  have hv' := @required_of_get _ _ _ read_u32 (fun v => .from_u64 v.toUInt64) 6 header.v hv
    (read_u32_from header.v)
  simp only [TronBlockHeader.from_value, TronBlockHeader.to_value, source, text_of_get 0 hh, hn',
    ht', opt_text_of_get 3 hp, opt_text_of_get 4 hr, opt_text_of_get 5 hw, hv',
    Option.bind_eq_bind, Option.bind_some]

/-- And so is a fee, with the header in it. -/
theorem fee_from_to (fee : FeeParams) : FeeParams.from_value fee.to_value = some fee := by
  obtain ⟨hmode, h1, h2, h3, h4, h5, h6, h7⟩ := fee_get fee
  have hmode' := @required_of_get _ _ _ (read_variant FeeMode.from_name) _ 0 fee.mode hmode
    (read_mode fee.mode)
  have hrp := @optional_of_get _ _ _ TronBlockHeader.from_value _ 7 fee.rp h7 header_from_to
    fun header => by simp [TronBlockHeader.to_value]
  simp only [FeeParams.from_value, FeeParams.to_value, source, hmode', opt_text_of_get 1 h1,
    opt_text_of_get 2 h2, opt_text_of_get 3 h3, opt_text_of_get 4 h4, opt_text_of_get 5 h5,
    opt_text_of_get 6 h6, hrp, Option.bind_eq_bind, Option.bind_some]

/-- Of every transaction, validated or not. -/
theorem transaction_from_to (p : PreparedTransaction) :
    PreparedTransaction.from_value p.to_value = some p := by
  obtain ⟨hchain, hid, hfrom, hto, hvalue, hdata, htx, htoken, hnonce, hfee⟩ := transaction_get p
  have hchain' := @required_of_get _ _ _ (read_variant Chain.from_name) _ 0 p.chain hchain
    (read_chain p.chain)
  have hid' := @optional_of_get_null _ _ _ read_i64 _ 1 p.chain_id hid Value.as_i64_from_i64
    Value.from_i64_ne_null
  have htx' := @required_of_get _ _ _ (read_variant TxType.from_name) _ 6 p.tx_type htx
    (read_tx_type p.tx_type)
  have hfee' := @required_of_get _ _ _ FeeParams.from_value _ 9 p.fee hfee (fee_from_to p.fee)
  simp only [PreparedTransaction.from_value, PreparedTransaction.to_value, source, hchain', hid',
    text_of_get 2 hfrom, text_of_get 3 hto, text_of_get 4 hvalue, null_text_of_get 5 hdata, htx',
    null_text_of_get 7 htoken, null_text_of_get 8 hnonce, hfee', Option.bind_eq_bind,
    Option.bind_some]

/-! ## The validator reads back what was written -/

/-- A skipped amount is an absent member for the validator too. -/
theorem spellsOptInt_of_skip {m : Map} {name : String} {o : Option String}
    (h : m.get name = o.map .string) : SpellsOptInt (m.get name) o := by
  rw [h]
  cases o with
  | none => exact .inl rfl
  | some s => exact ⟨_, rfl, .inl rfl⟩

/-- So is one that was written as `null`. -/
theorem spellsOptInt_of_null {m : Map} {name : String} {o : Option String}
    (h : m.get name = some (Value.from_option .string o)) : SpellsOptInt (m.get name) o := by
  rw [h]
  cases o with
  | none => exact .inr rfl
  | some s => exact ⟨_, rfl, .inl rfl⟩

/-- An empty text is read as an absent one, so the text must not be empty. -/
theorem optional_string_of_null {m : Map} {name : String} {o : Option String}
    (h : m.get name = some (Value.from_option .string o)) (hne : o ≠ some "") :
    optional_string m name = o := by
  cases o with
  | none => simp [optional_string, h, Value.from_option]
  | some s =>
    rw [optional_string_eq_some, h]
    exact ⟨rfl, fun h0 => hne (by rw [h0])⟩

theorem optional_number_of_null {m : Map} {name : String} {o : Option Int64}
    (h : m.get name = some (Value.from_option .from_i64 o)) : optional_number m name = o := by
  cases o with
  | none => simp [optional_number, h, Value.from_option, Value.is_null]
  | some id =>
    rw [optional_number_eq_some]
    exact ⟨_, h, Value.as_i64_from_i64 id⟩

/-- The informational texts of a header are read without a check for the empty text. -/
theorem as_str_of_skip {m : Map} {name : String} {o : Option String}
    (h : m.get name = o.map .string) : (m.get name).bind Value.as_str = o := by
  rw [h]
  cases o <;> rfl

theorem header_spells (header : TronBlockHeader) : SpellsHeader header.members header := by
  obtain ⟨hh, hn, ht, hp, hr, hw, hv⟩ := header_get header
  exact ⟨hh, hn, ht, hv, as_str_of_skip hp, as_str_of_skip hr, as_str_of_skip hw⟩

/-- The fee that was written is spelled by its members, valid or not. -/
theorem fee_spells (fee : FeeParams) : SpellsFee fee.members fee := by
  obtain ⟨hmode, h1, h2, h3, h4, h5, h6, h7⟩ := fee_get fee
  refine ⟨hmode, spellsOptInt_of_skip h1, spellsOptInt_of_skip h2, spellsOptInt_of_skip h3,
    spellsOptInt_of_skip h4, spellsOptInt_of_skip h5, spellsOptInt_of_skip h6, ?_⟩
  rw [h7]
  cases fee.rp with
  | none => exact .inl rfl
  | some header => exact ⟨_, rfl, header_spells header⟩

/-- The transaction that was written is spelled by its members, if it has no empty text: the
validator would drop it. -/
theorem transaction_spells {p : PreparedTransaction} (hdata : p.data ≠ some "")
    (htoken : p.token_contract ≠ some "") : Spells p.members p := by
  -- an integer that was written as a string is spelled by that string
  obtain ⟨gchain, gid, gfrom, gto, gvalue, gdata, gtx, gtoken, gnonce, gfee⟩ := transaction_get p
  exact ⟨gchain, optional_number_of_null gid, gfrom, gto, ⟨_, gvalue, .inl rfl⟩,
    optional_string_of_null gdata hdata, gtx, optional_string_of_null gtoken htoken,
    spellsOptInt_of_null gnonce, _, gfee, fee_spells p.fee⟩

/-- **Validation is idempotent through the wire format.** -/
theorem validate_to_value {cr : Crates} (hhex : HexLaws cr) {v : Value} {p : PreparedTransaction}
    (h : validate cr v = .ok p) :
    validate cr p.to_value = .ok p ∧ PreparedTransaction.from_value p.to_value = some p := by
  obtain ⟨-, hv⟩ := (validate_eq_ok hhex).1 h
  refine ⟨?_, transaction_from_to p⟩
  -- a token contract is an address, and no address is blank
  have htoken : p.token_contract ≠ some "" := by
    intro h0
    have hblank := (hv.token_contract "" h0).not_blank hhex
    rw [is_blank_empty] at hblank
    exact absurd hblank (by decide)
  exact (validate_eq_ok hhex).2 ⟨⟨_, rfl, transaction_spells hv.data htoken⟩, hv⟩

theorem tron_token_to_value : validate reference tron_token.to_value = .ok tron_token ∧
    PreparedTransaction.from_value tron_token.to_value = some tron_token :=
  validate_to_value reference_hex validate_tron_token

end TxCompiler
