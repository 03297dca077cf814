/-
**Compilation is reading and encoding**, for every `PreparedTransaction` there is.

A transaction can reach `compile` without `validate`, by direct deserialisation, and then its
strings are arbitrary. What is signed is still a function of them: `read_meaning` reads each field
with the parser the compiler uses for it, and `Meaning.result` writes the whole of the result from
what was read. `compile_eq_ok_iff` says that these two are the compiler: it returns exactly when
every field can be read, and what it returns is written from the meaning and nothing else.

The errors are forgotten on the way (`toOption`); the order in which the fields are read is the
source's, so each step of one chain answers like a step of the other.
-/
import TxCompiler.Answer
import TxCompiler.Artefact

set_option autoImplicit false

namespace TxCompiler

open Rust

/-! ## Reading -/

/-- The words of an EVM transaction, and its calldata if they spell any. -/
structure EvmText where
  mode : FeeMode
  chain_id : Option Int64
  to_ : Option String
  value : Option String
  nonce : Option String
  gas_limit : Option String
  price : Option String
  max_priority_fee : Option String
  input : Option (List UInt8)

/-- A chain id is positive. -/
def read_chain_id (chain_id : Option Int64) : Option UInt64 := do
  let id ← chain_id
  let n ← u64_try_from_i64 id
  if n = 0 then none else some n

/-- The fields both envelopes share. -/
def EvmText.common (cr : Crates) (text : EvmText) : Option EvmCommon := do
  let chain_id ← read_chain_id text.chain_id
  let to_ ← text.to_.bind cr.address_from_str
  let value ← text.value.bind fun s => cr.u256_from_str_radix s 10
  let nonce ← text.nonce.bind u64_from_str
  let gas_limit ← text.gas_limit.bind u64_from_str
  let input_bytes ← text.input
  some { chain_id, «to» := to_, value, nonce, gas_limit, input_bytes }

/-- The fees of the mode, and the meaning they complete. -/
def EvmText.envelope (text : EvmText) (common : EvmCommon) : Option Meaning :=
  match text.mode with
  | .Eip1559 => do
    let max_fee ← text.price.bind u128_from_str
    let max_priority_fee ← text.max_priority_fee.bind u128_from_str
    some (.eip1559 common.chain_id.toNat common.nonce.toNat common.gas_limit.toNat max_fee.toNat
      max_priority_fee.toNat common.«to».val common.value.toNat common.input_bytes)
  | .Legacy => do
    let gas_price ← text.price.bind u128_from_str
    some (.legacy common.chain_id.toNat common.nonce.toNat common.gas_limit.toNat gas_price.toNat
      common.«to».val common.value.toNat common.input_bytes)
  | .Tron => none

/-- The numbers and bytes the words spell. -/
def EvmText.read (cr : Crates) (text : EvmText) : Option Meaning := do
  let common ← text.common cr
  text.envelope common

/-- The tip per unit of gas, where the mode has one. -/
def tip_per_gas (fee : FeeParams) : Option String :=
  match fee.mode with
  | .Eip1559 => fee.max_priority_fee_per_gas
  | .Legacy => none
  | .Tron => none

/-- The words the compiler reads. -/
def PreparedTransaction.evm_text (p : PreparedTransaction) : EvmText :=
  { mode := p.fee.mode
    chain_id := p.chain_id
    to_ := some p.«to»
    value := some p.value_wei
    nonce := p.nonce
    gas_limit := p.fee.gas_limit
    price := fee_per_gas p.fee
    max_priority_fee := tip_per_gas p.fee
    input := calldata_bytes p.data }

/-- The transfer the words of a Tron transaction, or of its review, name. -/
def read_transfer (cr : Crates) (tx_type : TxType) (from_ to_ : String)
    (token_contract : Option String) (amount : String) : Option TronTransfer := do
  let from_ ← tron_bytes cr from_
  match tx_type with
  | .TransferNative => do
    let to_ ← tron_bytes cr to_
    let amount ← u64_from_str amount
    some (.native from_ to_ amount.toNat)
  | .TransferToken => do
    let token ← token_contract
    let token_bytes ← tron_bytes cr token
    let to_ ← tron_bytes cr to_
    let amount ← cr.u256_from_str_radix amount 10
    some (.token from_ to_ token_bytes amount.toNat)

/-- The block number and the block hash, as far as they are signed. -/
def read_block_ref (header : TronBlockHeader) : Option (ℕ × List UInt8) :=
  if len header.h = 64 then
    (Hex.decode (bytes header.h)).map fun block_id =>
      (header.n.toNat % 2 ^ 16, (block_id.drop 8).take 8)
  else none

/-- No limit is a limit of zero. -/
def read_fee_limit (el : Option String) : Option ℕ :=
  match el with
  | none => some 0
  | some s => (u64_from_str s).map UInt64.toNat

/-- The clock a compilation runs at. -/
def clock_of (cr : Crates) (options : CompileOptions) : UInt64 :=
  options.now.getD (current_time_ms cr)

/-- What a transaction is read as, at clock `t`. -/
def read_meaning (cr : Crates) (p : PreparedTransaction) (t : UInt64) : Option Meaning :=
  match p.chain with
  | .Ethereum => p.evm_text.read cr
  | .Tron => do
    let header ← p.fee.rp
    let (block_number, block_hash) ← read_block_ref header
    let transfer ← read_transfer cr p.tx_type p.«from» p.«to» p.token_contract p.value_wei
    let fee_limit ← read_fee_limit p.fee.el
    if t.toNat + 36000000 < 2 ^ 64 then
      some (.tron t.toNat block_number block_hash transfer fee_limit)
    else none

/-! ## Writing -/

/-- `alloy`: the hash to sign is the Keccak-256 digest of the pre-image. -/
structure DigestLaws (cr : Crates) (keccak256 : List UInt8 → B256) : Prop where
  eip1559 : ∀ tx, cr.eip1559_signature_hash tx = keccak256 (cr.eip1559_encode_for_signing tx)
  legacy : ∀ tx, cr.legacy_signature_hash tx = keccak256 (cr.legacy_encode_for_signing tx)

def Meaning.chain : Meaning → Chain
  | .eip1559 .. => .Ethereum
  | .legacy .. => .Ethereum
  | .tron .. => .Tron

/-- The hash function of the chain, at the bytes that are signed. -/
def Meaning.digest (cr : Crates) (keccak256 : List UInt8 → B256) (m : Meaning) : B256 :=
  match m.chain with
  | .Ethereum => keccak256 m.bytes
  | .Tron => cr.sha256 m.bytes

/-- The metadata of an artefact; only the intent is not part of the meaning. -/
def Meaning.metadata (tx_type : TxType) : Meaning → CompilationMetadata
  | .eip1559 .. =>
    { tx_type, fee_mode := .Eip1559, evm_tx_type := some 2, tron_contract_type := none,
      expiration := none }
  | .legacy .. =>
    { tx_type, fee_mode := .Legacy, evm_tx_type := some 0, tron_contract_type := none,
      expiration := none }
  | .tron clock _ _ transfer _ =>
    { tx_type, fee_mode := .Tron, evm_tx_type := none,
      tron_contract_type := some (UInt8.ofNat transfer.contract.type),
      expiration := some (UInt64.ofNat (clock + 36000000)) }

/-- All of the result, written from the meaning and the intent. -/
def Meaning.result (cr : Crates) (keccak256 : List UInt8 → B256) (tx_type : TxType)
    (m : Meaning) : CompilationResult :=
  { chain := m.chain
    unsigned_tx := "0x" ++ cr.hex_encode m.bytes
    tx_hash := "0x" ++ cr.hex_encode (m.digest cr keccak256).val
    metadata := m.metadata tx_type }

@[simp] theorem result_tx_type (cr : Crates) (keccak256 : List UInt8 → B256) (tx_type : TxType)
    (m : Meaning) : (m.result cr keccak256 tx_type).metadata.tx_type = tx_type := by
  cases m <;> rfl

/-! ## Ethereum -/

section Texts

variable {cr : Crates} {text : EvmText}

theorem EvmText.common_eq_some {common : EvmCommon} :
    text.common cr = some common ↔ read_chain_id text.chain_id = some common.chain_id ∧
      text.to_.bind cr.address_from_str = some common.«to» ∧
      (text.value.bind fun s => cr.u256_from_str_radix s 10) = some common.value ∧
      text.nonce.bind u64_from_str = some common.nonce ∧
      text.gas_limit.bind u64_from_str = some common.gas_limit ∧
      text.input = some common.input_bytes := by
  unfold EvmText.common
  constructor
  · intro h
    obtain ⟨chain_id, h1, h⟩ := Option.bind_eq_some_iff.1 h
    obtain ⟨to_, h2, h⟩ := Option.bind_eq_some_iff.1 h
    obtain ⟨value, h3, h⟩ := Option.bind_eq_some_iff.1 h
    obtain ⟨nonce, h4, h⟩ := Option.bind_eq_some_iff.1 h
    obtain ⟨gas_limit, h5, h⟩ := Option.bind_eq_some_iff.1 h
    obtain ⟨input, h6, h⟩ := Option.bind_eq_some_iff.1 h
    rw [← Option.some.inj h]
    exact ⟨h1, h2, h3, h4, h5, h6⟩
  · rintro ⟨h1, h2, h3, h4, h5, h6⟩
    rw [h1, h2, h3, h4, h5, h6]
    rfl

/-- Everything an envelope can be. -/
theorem EvmText.envelope_cases {common : EvmCommon} {m : Meaning}
    (h : text.envelope common = some m) :
    (∃ max_fee max_priority_fee : U128, text.mode = .Eip1559 ∧
      text.price.bind u128_from_str = some max_fee ∧
      text.max_priority_fee.bind u128_from_str = some max_priority_fee ∧
      m = .eip1559 common.chain_id.toNat common.nonce.toNat common.gas_limit.toNat max_fee.toNat
        max_priority_fee.toNat common.«to».val common.value.toNat common.input_bytes) ∨
    ∃ gas_price : U128, text.mode = .Legacy ∧ text.price.bind u128_from_str = some gas_price ∧
      m = .legacy common.chain_id.toNat common.nonce.toNat common.gas_limit.toNat gas_price.toNat
        common.«to».val common.value.toNat common.input_bytes := by
  unfold EvmText.envelope at h
  cases hm : text.mode with
  | Tron => simp [hm] at h
  | Eip1559 =>
    simp only [hm, Option.bind_eq_bind, Option.bind_eq_some_iff, Option.some.injEq] at h
    obtain ⟨max_fee, hmax, max_priority_fee, hpriority, rfl⟩ := h
    exact .inl ⟨max_fee, max_priority_fee, rfl, Option.bind_eq_some_iff.2 hmax,
      Option.bind_eq_some_iff.2 hpriority, rfl⟩
  | Legacy =>
    simp only [hm, Option.bind_eq_bind, Option.bind_eq_some_iff, Option.some.injEq] at h
    obtain ⟨gas_price, hprice, rfl⟩ := h
    exact .inr ⟨gas_price, rfl, Option.bind_eq_some_iff.2 hprice, rfl⟩

theorem EvmText.read_fits {m : Meaning}
    (hinput : ∀ input, text.input = some input → input.length < 2 ^ 63)
    (h : text.read cr = some m) : m.Fits := by
  obtain ⟨common, hcommon, henvelope⟩ := Option.bind_eq_some_iff.1 h
  obtain ⟨-, -, -, -, -, hin⟩ := common_eq_some.1 hcommon
  have hlen := hinput _ hin
  have h64 : ∀ n : UInt64, n.toNat < 2 ^ 256 := fun n => lt_trans n.toNat_lt (by norm_num)
  have h128 : ∀ n : U128, n.toNat < 2 ^ 256 := fun n => lt_trans n.isLt (by norm_num)
  rcases envelope_cases henvelope with ⟨max_fee, max_priority_fee, -, -, -, rfl⟩ |
    ⟨gas_price, -, -, rfl⟩
  · refine ⟨?_, length_address_le common.«to», hlen⟩
    simp only [List.forall_mem_cons, List.not_mem_nil, false_imp_iff, implies_true, and_true]
    exact ⟨h64 _, h64 _, h64 _, h128 _, h128 _, common.value.isLt⟩
  · refine ⟨?_, length_address_le common.«to», hlen⟩
    simp only [List.forall_mem_cons, List.not_mem_nil, false_imp_iff, implies_true, and_true]
    exact ⟨h64 _, h64 _, h64 _, h128 _, common.value.isLt⟩

end Texts

section Ethereum

variable {cr : Crates} {keccak256 : List UInt8 → B256} {p : PreparedTransaction}

theorem decode_calldata_toOption (hhex : HexLaws cr) (data : Option String) :
    (decode_calldata cr data).toOption = calldata_bytes data := by
  apply Option.ext
  intro input
  rw [toOption_eq_some, decode_calldata_eq_ok hhex, calldata_bytes_eq_some]

/-- The options are read in the order of the source, so the two chains agree link by link. -/
theorem derive_common_toOption (hhex : HexLaws cr) (p : PreparedTransaction) :
    (derive_common cr p).toOption = p.evm_text.common cr := by
  unfold derive_common EvmText.common read_chain_id PreparedTransaction.evm_text
  simp only [toOption_bind, toOption_ok_or, toOption_reject_if, parse_address, parse_u256,
    parse_u64, decode_calldata_toOption hhex, Option.bind_assoc, toOption_ok, Option.bind_some,
    Option.bind_eq_bind]
  congr 1
  funext id
  congr 1
  funext n
  by_cases h0 : n = 0
  · rw [if_pos h0, if_pos h0]
    rfl
  · rw [if_neg h0, if_neg h0]
    rfl

theorem eip1559_result (hsign : SigningLaws cr) (hdigest : DigestLaws cr keccak256)
    (hm : p.fee.mode = .Eip1559) (common : EvmCommon) (max_fee max_priority_fee : U128) :
    let tx : TxEip1559 := {
      chain_id := common.chain_id
      nonce := common.nonce
      gas_limit := common.gas_limit
      max_fee_per_gas := max_fee
      max_priority_fee_per_gas := max_priority_fee
      «to» := .Call common.«to»
      value := common.value
      access_list := []
      input := common.input_bytes }
    evm_result cr p (cr.eip1559_encode_for_signing tx) (cr.eip1559_signature_hash tx)
        EVM_TX_TYPE_EIP1559
      = (Meaning.eip1559 common.chain_id.toNat common.nonce.toNat common.gas_limit.toNat
          max_fee.toNat max_priority_fee.toNat common.«to».val common.value.toNat
          common.input_bytes).result cr keccak256 p.tx_type := by
  intro tx
  rw [evm_result, hdigest.eip1559, hsign.eip1559, hm]
  rfl

theorem legacy_result (hsign : SigningLaws cr) (hdigest : DigestLaws cr keccak256)
    (hm : p.fee.mode = .Legacy) (common : EvmCommon) (gas_price : U128) :
    let tx : TxLegacy := {
      chain_id := some common.chain_id
      nonce := common.nonce
      gas_price
      gas_limit := common.gas_limit
      «to» := .Call common.«to»
      value := common.value
      input := common.input_bytes }
    evm_result cr p (cr.legacy_encode_for_signing tx) (cr.legacy_signature_hash tx)
        EVM_TX_TYPE_LEGACY
      = (Meaning.legacy common.chain_id.toNat common.nonce.toNat common.gas_limit.toNat
          gas_price.toNat common.«to».val common.value.toNat common.input_bytes).result cr keccak256
            p.tx_type := by
  intro tx
  rw [evm_result, hdigest.legacy, hsign.legacy, hm]
  rfl

/-- The envelope of the mode; what stands behind its fees is one struct and its encoding. -/
theorem encode_envelope_toOption (hsign : SigningLaws cr) (hdigest : DigestLaws cr keccak256)
    (common : EvmCommon) :
    (encode_envelope cr p common).toOption.map
        (fun (bs, hash, evm_tx_type) => evm_result cr p bs hash evm_tx_type)
      = (p.evm_text.envelope common).map (Meaning.result cr keccak256 p.tx_type) := by
  unfold encode_envelope EvmText.envelope
  show _ = Option.map _ (match p.fee.mode with | .Eip1559 => _ | .Legacy => _ | .Tron => _)
  cases hm : p.fee.mode with
  | Tron => rfl
  | Eip1559 =>
    simp only [encode_eip1559, build_eip1559, PreparedTransaction.evm_text, fee_per_gas,
      tip_per_gas, hm,
      toOption_bind, toOption_ok_or, toOption_ok, parse_u128, Option.bind_assoc, Option.map_bind,
      Option.bind_some, Option.bind_eq_bind, Function.comp_def, Option.map_some,
      eip1559_result hsign hdigest hm]
  | Legacy =>
    simp only [encode_legacy, build_legacy, PreparedTransaction.evm_text, fee_per_gas, hm,
      toOption_bind, toOption_ok_or, toOption_ok, parse_u128, Option.bind_assoc, Option.map_bind,
      Option.bind_some, Option.bind_eq_bind, Function.comp_def, Option.map_some,
      legacy_result hsign hdigest hm]

theorem compile_evm_toOption (hhex : HexLaws cr) (hsign : SigningLaws cr)
    (hdigest : DigestLaws cr keccak256) (p : PreparedTransaction) :
    (compile_evm cr p).toOption
      = (p.evm_text.read cr).map (Meaning.result cr keccak256 p.tx_type) := by
  unfold compile_evm EvmText.read
  rw [toOption_bind, derive_common_toOption hhex, Option.bind_eq_bind, Option.map_bind]
  congr 1
  funext common
  rw [Function.comp_apply, ← encode_envelope_toOption hsign hdigest, toOption_bind]
  cases (encode_envelope cr p common).toOption <;> rfl

end Ethereum

/-! ## Tron -/

section Tron

variable {cr : Crates} {keccak256 : List UInt8 → B256} {p : PreparedTransaction}

theorem derive_block_ref_of_read (hhex : HexLaws cr) {header : TronBlockHeader}
    {block_number : ℕ} {block_hash : List UInt8}
    (h : read_block_ref header = some (block_number, block_hash)) :
    ∃ ref, derive_block_ref cr header = .ok ref ∧ ref.1.val = to_be_bytes 2 block_number ∧
      ref.2.val = block_hash := by
  unfold read_block_ref at h
  by_cases hlen : len header.h = 64
  · rw [if_pos hlen, Option.map_eq_some_iff] at h
    obtain ⟨bs, hdec, heq⟩ := h
    rw [Prod.mk.injEq] at heq
    obtain ⟨rfl, rfl⟩ := heq
    have h32 := Hex.length_of_decode hdec
    rw [length_bytes, hlen] at h32
    exact derive_block_ref_eq hhex hdec (by omega)
  · rw [if_neg hlen] at h
    exact absurd h (by simp)

theorem derive_block_ref_of_none (hhex : HexLaws cr) {header : TronBlockHeader}
    (h : read_block_ref header = none) : (derive_block_ref cr header).toOption = none := by
  unfold read_block_ref at h
  unfold derive_block_ref
  by_cases hlen : len header.h = 64
  · rw [if_pos hlen, Option.map_eq_none_iff] at h
    rw [reject_if_of_not (not_not.2 hlen), ok_bind, hhex.decode, h]
    rfl
  · rw [reject_if_of hlen]
    rfl

/-- What is read off the words of a transfer has the sizes of the format. -/
theorem read_transfer_wf {tx_type : TxType} {from_ to_ amount : String}
    {token_contract : Option String} {transfer : TronTransfer}
    (h : read_transfer cr tx_type from_ to_ token_contract amount = some transfer) :
    transfer.Wf := by
  unfold read_transfer at h
  cases tx_type with
  | TransferNative =>
    simp only [Option.bind_eq_bind, Option.bind_eq_some_iff, Option.some.injEq] at h
    obtain ⟨owner, hfrom, to_bytes, hto, n, -, rfl⟩ := h
    exact ⟨(tron_bytes_eq_some.1 hfrom).1, (tron_bytes_eq_some.1 hto).1, n.toNat_lt⟩
  | TransferToken =>
    simp only [Option.bind_eq_bind, Option.bind_eq_some_iff, Option.some.injEq] at h
    obtain ⟨owner, hfrom, token, -, token_bytes, htoken, to_bytes, hto, n, -, rfl⟩ := h
    exact ⟨(tron_bytes_eq_some.1 hfrom).1, (tron_bytes_eq_some.1 hto).1,
      (tron_bytes_eq_some.1 htoken).1, n.isLt⟩

/-- The contract is built from what was read, and from nothing else. -/
theorem build_contract_eq_ok_iff (hhex : HexLaws cr) {x : List UInt8 × UInt8} :
    build_contract cr p = .ok x ↔ ∃ transfer,
      read_transfer cr p.tx_type p.«from» p.«to» p.token_contract p.value_wei = some transfer ∧
        x = (transfer.contract.bytes, UInt8.ofNat transfer.contract.type) := by
  unfold read_transfer
  cases htx : p.tx_type with
  | TransferNative =>
    simp only [Option.bind_eq_bind, Option.bind_eq_some_iff, Option.some.injEq,
      tron_bytes_eq_some, ← tron_address_to_bytes_eq_ok hhex]
    constructor
    · intro h
      -- the two addresses decode, so the contract is the one of their bytes
      obtain ⟨owner, hfrom, htail⟩ := bind_eq_ok.1 h
      rw [htx] at htail
      obtain ⟨to_bytes, hto, -⟩ := bind_eq_ok.1 htail
      rw [build_contract_native htx hfrom hto] at h
      obtain ⟨amount, hamount, hx⟩ := bind_eq_ok.1 h
      exact ⟨_, ⟨owner, hfrom, to_bytes, hto, amount, ok_or_eq_ok.1 hamount, rfl⟩,
        (Except.ok.inj hx).symm⟩
    · rintro ⟨transfer, ⟨owner, hfrom, to_bytes, hto, amount, hamount, rfl⟩, rfl⟩
      rw [build_contract_native htx hfrom hto, hamount]
      rfl
  | TransferToken =>
    simp only [Option.bind_eq_bind, Option.bind_eq_some_iff, Option.some.injEq,
      tron_bytes_eq_some, ← tron_address_to_bytes_eq_ok hhex]
    constructor
    · intro h
      obtain ⟨owner, hfrom, htail⟩ := bind_eq_ok.1 h
      rw [htx] at htail
      obtain ⟨token, htc, htail⟩ := bind_eq_ok.1 htail
      obtain ⟨token_bytes, htoken, htail⟩ := bind_eq_ok.1 htail
      obtain ⟨data, hdata, -⟩ := bind_eq_ok.1 htail
      obtain ⟨to_bytes, hto, -⟩ := bind_eq_ok.1 hdata
      rw [build_contract_token htx hfrom (ok_or_eq_ok.1 htc) htoken hto] at h
      obtain ⟨amount, hamount, hx⟩ := bind_eq_ok.1 h
      exact ⟨_, ⟨owner, hfrom, token, ok_or_eq_ok.1 htc, token_bytes, htoken, to_bytes, hto, amount,
        ok_or_eq_ok.1 hamount, rfl⟩, (Except.ok.inj hx).symm⟩
    · rintro ⟨transfer, ⟨owner, hfrom, token, htc, token_bytes, htoken, to_bytes, hto, amount,
        hamount, rfl⟩, rfl⟩
      rw [build_contract_token htx hfrom htc htoken hto, hamount]
      rfl

theorem build_contract_toOption (hhex : HexLaws cr) (p : PreparedTransaction) :
    (build_contract cr p).toOption
      = (read_transfer cr p.tx_type p.«from» p.«to» p.token_contract p.value_wei).map
          fun transfer => (transfer.contract.bytes, UInt8.ofNat transfer.contract.type) := by
  apply Option.ext
  intro x
  rw [toOption_eq_some, build_contract_eq_ok_iff hhex, Option.map_eq_some_iff]
  simp only [eq_comm]

theorem parse_fee_limit_toOption (el : Option String) :
    (parse_fee_limit el).toOption.map (fun limit => limit.elim 0 UInt64.toNat)
      = read_fee_limit el := by
  cases el with
  | none => rfl
  | some s =>
    unfold parse_fee_limit read_fee_limit
    dsimp only
    rw [toOption_bind, toOption_ok_or]
    cases u64_from_str s <;> rfl

/-- Below the overflow the expiration is the sum. -/
theorem expiration_of_lt {t : UInt64} (h : t.toNat + 36000000 < 2 ^ 64) :
    (t + EXPIRATION_MS).toNat = t.toNat + 36000000 ∧
      t + EXPIRATION_MS = UInt64.ofNat (t.toNat + 36000000) := by
  have hsum : (t + EXPIRATION_MS).toNat = t.toNat + 36000000 := by
    rw [UInt64.toNat_add, window_toNat]
    exact Nat.mod_eq_of_lt h
  exact ⟨hsum, by rw [← UInt64.toNat_inj, hsum, toNat_ofNat_u64 h]⟩

theorem compile_tron_toOption (hhex : HexLaws cr) (hc : p.chain = .Tron)
    (options : CompileOptions) :
    (compile_tron cr p options).toOption
      = (read_meaning cr p (clock_of cr options)).map (Meaning.result cr keccak256 p.tx_type) := by
  unfold compile_tron read_meaning clock_of
  rw [hc]
  dsimp only
  cases hrp : p.fee.rp with
  | none => rfl
  | some header =>
    rw [ok_or_some, ok_bind, Option.bind_eq_bind, Option.bind_some]
    cases href : read_block_ref header with
    | none =>
      rw [toOption_bind, derive_block_ref_of_none hhex href]
      rfl
    | some ref =>
      obtain ⟨block_number, block_hash⟩ := ref
      obtain ⟨⟨ref_block_bytes, ref_block_hash⟩, hderive, hbytes, hhash⟩ :=
        derive_block_ref_of_read hhex href
      rw [hderive, ok_bind, Option.bind_eq_bind, Option.bind_some]
      dsimp only at hbytes hhash ⊢
      rw [toOption_bind, build_contract_toOption hhex]
      cases htransfer : read_transfer cr p.tx_type p.«from» p.«to» p.token_contract p.value_wei with
      | none => rfl
      | some transfer =>
        have hwf := TronTransfer.contract_wf (read_transfer_wf htransfer)
        have hlen := Contract.length_bytes_lt hwf
        rw [Option.map_some, Option.bind_some, Option.bind_eq_bind, Option.bind_some]
        dsimp only
        rw [toOption_bind, ← parse_fee_limit_toOption]
        cases hlimit : (parse_fee_limit p.fee.el).toOption with
        | none => rfl
        | some limit =>
          rw [Option.bind_some, Option.map_some, Option.bind_eq_bind, Option.bind_some, checked_add,
            window_toNat]
          by_cases htime : (options.now.getD (current_time_ms cr)).toNat + 36000000 < 2 ^ 64
          · rw [if_pos htime, if_pos htime, ok_or_some, ok_bind, encode_raw_data_eq hlen, ok_bind]
            obtain ⟨hsum, hexpiration⟩ := expiration_of_lt htime
            dsimp only
            rw [hbytes, hhash, hsum, hexpiration]
            rfl
          · rw [if_neg htime, if_neg htime]
            rfl

end Tron

/-! ## The compiler -/

section Sizes

variable {cr : Crates} {p : PreparedTransaction}

/-- No Rust string is longer. -/
def DataFits (p : PreparedTransaction) : Prop := ∀ d, p.data = some d → len d < 2 ^ 63

theorem length_calldata_lt (hp : DataFits p) {input : List UInt8}
    (h : calldata_bytes p.data = some input) : input.length < 2 ^ 62 := by
  unfold calldata_bytes at h
  cases hdata : p.data with
  | none =>
    simp only [hdata, Option.some.injEq] at h
    simp [← h]
  | some d =>
    have hlen := hp d hdata
    simp only [hdata] at h
    -- two digits a byte, and the prefix takes two more
    have htwice := Hex.length_of_decode h
    rw [length_bytes] at htwice
    rcases bytes_strip_0x d with heq | heq
    · have hcount := congrArg List.length heq
      simp only [length_bytes, List.length_cons] at hcount
      omega
    · rw [heq] at htwice
      omega

theorem read_block_ref_fits {header : TronBlockHeader} {block_number : ℕ} {block_hash : List UInt8}
    (h : read_block_ref header = some (block_number, block_hash)) :
    block_number < 2 ^ 16 ∧ block_hash.length = 8 := by
  unfold read_block_ref at h
  by_cases hlen : len header.h = 64
  · rw [if_pos hlen, Option.map_eq_some_iff] at h
    obtain ⟨bs, hdec, heq⟩ := h
    rw [Prod.mk.injEq] at heq
    obtain ⟨rfl, rfl⟩ := heq
    have h32 := Hex.length_of_decode hdec
    rw [length_bytes, hlen] at h32
    refine ⟨Nat.mod_lt _ (by decide), ?_⟩
    rw [List.length_take, List.length_drop]
    omega
  · rw [if_neg hlen] at h
    exact absurd h (by simp)

theorem read_fee_limit_lt {el : Option String} {fee_limit : ℕ}
    (h : read_fee_limit el = some fee_limit) : fee_limit < 2 ^ 64 := by
  cases el with
  | none =>
    rw [← Option.some.inj h]
    norm_num
  | some s =>
    obtain ⟨n, -, rfl⟩ := Option.map_eq_some_iff.1 h
    exact n.toNat_lt

/-- The four parts of a Tron record. -/
theorem read_meaning_tron (hc : p.chain = .Tron) {t : UInt64} {m : Meaning} :
    read_meaning cr p t = some m ↔ ∃ header block_number block_hash transfer fee_limit,
      p.fee.rp = some header ∧ read_block_ref header = some (block_number, block_hash) ∧
      read_transfer cr p.tx_type p.«from» p.«to» p.token_contract p.value_wei = some transfer ∧
      read_fee_limit p.fee.el = some fee_limit ∧ t.toNat + 36000000 < 2 ^ 64 ∧
      m = .tron t.toNat block_number block_hash transfer fee_limit := by
  unfold read_meaning
  rw [hc]
  dsimp only
  constructor
  · intro h
    obtain ⟨header, hrp, h⟩ := Option.bind_eq_some_iff.1 h
    obtain ⟨⟨block_number, block_hash⟩, href, h⟩ := Option.bind_eq_some_iff.1 h
    obtain ⟨transfer, htransfer, h⟩ := Option.bind_eq_some_iff.1 h
    obtain ⟨fee_limit, hlimit, h⟩ := Option.bind_eq_some_iff.1 h
    by_cases htime : t.toNat + 36000000 < 2 ^ 64
    · rw [if_pos htime, Option.some.injEq] at h
      exact ⟨header, block_number, block_hash, transfer, fee_limit, hrp, href, htransfer, hlimit,
        htime, h.symm⟩
    · rw [if_neg htime] at h
      exact absurd h (by simp)
  · rintro ⟨header, block_number, block_hash, transfer, fee_limit, hrp, href, htransfer, hlimit,
      htime, rfl⟩
    simp only [hrp, href, htransfer, hlimit, if_pos htime, Option.bind_eq_bind, Option.bind_some]

/-- What was read can be encoded and read back. -/
theorem read_meaning_fits (hp : DataFits p) {t : UInt64} {m : Meaning}
    (h : read_meaning cr p t = some m) : m.Fits := by
  cases hc : p.chain with
  | Ethereum =>
    unfold read_meaning at h
    rw [hc] at h
    refine EvmText.read_fits (fun input hinput => ?_) h
    exact lt_trans (length_calldata_lt hp hinput) (by norm_num)
  | Tron =>
    obtain ⟨header, block_number, block_hash, transfer, fee_limit, -, href, htransfer, hlimit,
      htime, rfl⟩ := (read_meaning_tron hc).1 h
    obtain ⟨hnumber, hhash⟩ := read_block_ref_fits href
    exact ⟨htime, hnumber, hhash, read_transfer_wf htransfer, read_fee_limit_lt hlimit⟩

end Sizes

section Compile

variable {cr : Crates} {keccak256 : List UInt8 → B256} {p : PreparedTransaction}
  {options : CompileOptions} {res : CompilationResult}

theorem compile_toOption (hhex : HexLaws cr) (hsign : SigningLaws cr)
    (hdigest : DigestLaws cr keccak256) (p : PreparedTransaction) (options : CompileOptions) :
    (compile cr p options).toOption
      = (read_meaning cr p (clock_of cr options)).map (Meaning.result cr keccak256 p.tx_type) := by
  unfold compile
  cases hc : p.chain with
  | Ethereum =>
    dsimp only
    rw [compile_evm_toOption hhex hsign hdigest, read_meaning, hc]
  | Tron =>
    dsimp only
    exact compile_tron_toOption hhex hc options

/-- **Compilation is reading and encoding.** It succeeds exactly when every field can be read, and
the whole of its result is written from what was read. -/
theorem compile_eq_ok_iff (hhex : HexLaws cr) (hsign : SigningLaws cr)
    (hdigest : DigestLaws cr keccak256) :
    compile cr p options = .ok res ↔
      ∃ m, read_meaning cr p (clock_of cr options) = some m ∧
        res = m.result cr keccak256 p.tx_type := by
  rw [← toOption_eq_some, compile_toOption hhex hsign hdigest, Option.map_eq_some_iff]
  simp only [eq_comm]

theorem reference_digest : DigestLaws reference (lookup_digest keccak256_digests) where
  eip1559 _ := by simp only [reference]
  legacy _ := by simp only [reference]

theorem evm_token_is_read :
    ∃ res m, compile reference (evm_token sample_calldata) ⟨none⟩ = .ok res ∧
      read_meaning reference (evm_token sample_calldata) (clock_of reference ⟨none⟩) = some m ∧
      res = m.result reference (lookup_digest keccak256_digests) .TransferToken := by
  -- the clock is not read on Ethereum
  obtain ⟨res, hres⟩ := reference_compiles (t := clock_of reference ⟨none⟩) validate_evm_token
    (by decide) (by decide)
  obtain ⟨m, hm, hresult⟩ := (compile_eq_ok_iff reference_hex reference_signing
    reference_digest).1 hres
  exact ⟨res, m, hres, hm, hresult⟩

/-- The digest and the artefact the repository pins for this payload. -/
example :
    (compile reference evm_native ⟨none⟩).toOption.map (fun res => (res.tx_hash, res.unsigned_tx))
    = some ("0x9f33b4ca2b7b0de2571993ee2a4aa1896f6987ba9929b81ea97cd94a4cb9ba78",
      "0xec2a85012a05f2008252089470997970c51812dc3a010c7d01b50e0d17dc79c88806f05b59d3b2000080388080") := by
  decide +kernel

/-- What a signer reads off an artefact. -/
def artefact_meaning (unsigned_tx : String) : Option Meaning :=
  (artefact_bytes unsigned_tx).bind Meaning.decode

theorem artefact_meaning_result (hhex : HexLaws cr) {m : Meaning} (h : m.Fits) (tx_type : TxType) :
    artefact_meaning (m.result cr keccak256 tx_type).unsigned_tx = some m := by
  unfold artefact_meaning Meaning.result
  rw [artefact_bytes_encode hhex, Option.bind_some, Meaning.decode_bytes h]

/-- The artefact says what the compiler read. -/
theorem compiled_meaning (hhex : HexLaws cr) (hsign : SigningLaws cr)
    (hdigest : DigestLaws cr keccak256) (hp : DataFits p)
    (hres : compile cr p options = .ok res) :
    ∃ m, read_meaning cr p (clock_of cr options) = some m ∧
      artefact_meaning res.unsigned_tx = some m ∧ res = m.result cr keccak256 p.tx_type := by
  rw [← toOption_eq_some, compile_toOption hhex hsign hdigest, Option.map_eq_some_iff] at hres
  obtain ⟨m, hm, rfl⟩ := hres
  exact ⟨m, hm, artefact_meaning_result hhex (read_meaning_fits hp hm) p.tx_type, rfl⟩

/-- **The artefact is the result.** The bytes decode, to what the compiler read, and the digest and
the metadata can be recomputed from them: nothing in a result can disagree with its bytes. -/
theorem result_of_artefact (hhex : HexLaws cr) (hsign : SigningLaws cr)
    (hdigest : DigestLaws cr keccak256) (hp : DataFits p)
    (hres : compile cr p options = .ok res) :
    ∃ m, artefact_meaning res.unsigned_tx = some m ∧
      res = m.result cr keccak256 res.metadata.tx_type := by
  obtain ⟨m, -, hartefact, hm⟩ := compiled_meaning hhex hsign hdigest hp hres
  refine ⟨m, hartefact, ?_⟩
  rw [hm, result_tx_type]

theorem dataFits_tron_token : DataFits tron_token := fun d h => by simp [tron_token] at h

theorem tron_token_result_of_artefact :
    ∃ res m, compile reference tron_token (.with_now sample_now) = .ok res ∧
      artefact_meaning res.unsigned_tx = some m ∧
        res = m.result reference (lookup_digest keccak256_digests) res.metadata.tx_type := by
  obtain ⟨res, hres⟩ := reference_compiles (t := sample_now) validate_tron_token
    (by decide) (by decide)
  obtain ⟨m, hm, hresult⟩ := result_of_artefact reference_hex reference_signing reference_digest
    dataFits_tron_token hres
  exact ⟨res, m, hres, hm, hresult⟩

end Compile

end TxCompiler
