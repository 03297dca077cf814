/-
**What validation leaves for `compile` to reject.** On a validated transaction the compiler
is a list of range checks followed by a total function: `compile_eip1559_eq`,
`compile_legacy_eq` and `compile_tron_eq` are those equations, with the struct or the
record that is signed written out. Every other error branch of the two compilers is gone
from them.

Each width comes from a different parser: 256 bits for an amount, 64 for a gas limit, a
fee limit and a native Tron amount, 128 for a gas price. The validator only knows that
each is a decimal of at most 78 digits.
-/
import TxCompiler.Safety

set_option autoImplicit false

namespace TxCompiler

open Rust Json

/-! ## The numbers of a validated transaction -/

/-- An absent number counts as zero. -/
def opt_value (o : Option String) : ℕ := o.elim 0 decimal_value

@[simp] theorem opt_value_some (s : String) : opt_value (some s) = decimal_value s := rfl

@[simp] theorem opt_value_none : opt_value none = 0 := rfl

section Decimals

variable {s : String}

theorem IsDecimal.eq_repr (h : IsDecimal s) : s = (decimal_value s).repr := by
  obtain ⟨n, -, rfl⟩ := h
  rw [decimal_value_repr]

theorem IsDecimal.u64_from_str (h : IsDecimal s) : Rust.u64_from_str s
    = if decimal_value s < 2 ^ 64 then some (UInt64.ofNat (decimal_value s)) else none := by
  conv_lhs => rw [h.eq_repr]
  exact u64_from_str_repr _

theorem IsDecimal.u128_from_str (h : IsDecimal s) : Rust.u128_from_str s
    = if decimal_value s < 2 ^ 128 then some (BitVec.ofNat 128 (decimal_value s)) else none := by
  conv_lhs => rw [h.eq_repr]
  exact u128_from_str_repr _

theorem IsDecimal.u256_from_str {cr : Crates} (hcr : U256Laws cr) (h : IsDecimal s) :
    cr.u256_from_str_radix s 10
      = if decimal_value s < 2 ^ 256 then some (BitVec.ofNat 256 (decimal_value s)) else none := by
  conv_lhs => rw [h.eq_repr]
  exact hcr.decimal _

theorem OptDecimal.eq_some_repr {o : Option String} (h : OptDecimal o) (hne : o ≠ none) :
    o = some (opt_value o).repr := by
  obtain ⟨s, rfl⟩ := Option.ne_none_iff_exists'.1 hne
  exact congrArg some (h s rfl).eq_repr

end Decimals

/-! ## Ethereum -/

section Ethereum

variable {cr : Crates} {p : PreparedTransaction}

/-- The two range checks every EVM transaction gets. -/
def common_checks (p : PreparedTransaction) : List (Bool × TxCompilerError) :=
  [(decide (2 ^ 256 ≤ decimal_value p.value_wei), u256_error p.value_wei "valueWei"),
    (decide (2 ^ 64 ≤ opt_value p.fee.gas_limit),
      u64_error (p.fee.gas_limit.getD "") "gasLimit")]

/-- The fee caps of EIP-1559 have to fit in 128 bits. -/
def eip1559_checks (p : PreparedTransaction) : List (Bool × TxCompilerError) :=
  [(decide (2 ^ 128 ≤ opt_value p.fee.max_fee_per_gas),
      u128_error (p.fee.max_fee_per_gas.getD "") "maxFeePerGas"),
    (decide (2 ^ 128 ≤ opt_value p.fee.max_priority_fee_per_gas),
      u128_error (p.fee.max_priority_fee_per_gas.getD "") "maxPriorityFeePerGas")]

/-- So has the gas price. -/
def legacy_checks (p : PreparedTransaction) : List (Bool × TxCompilerError) :=
  [(decide (2 ^ 128 ≤ opt_value (effective_gas_price p.fee)),
      u128_error ((effective_gas_price p.fee).getD "") "gasPrice")]

/-- The chain id as the number it is. -/
def chain_id_value (p : PreparedTransaction) : ℕ := p.chain_id.elim 0 fun id => id.toInt.toNat

/-- The calldata that is signed: none for a native transfer, the transfer otherwise. -/
def SpellsInput (p : PreparedTransaction) (input : List UInt8) : Prop :=
  match p.tx_type with
  | .TransferNative => input = []
  | .TransferToken => ∃ data recipient amount, p.data = some data ∧
      SpellsTransfer data recipient amount ∧ input = transfer_calldata recipient amount

/-- What a validated transaction with fields in range is read as. -/
def evm_common (p : PreparedTransaction) (to_ : Address) (input : List UInt8) : EvmCommon :=
  { chain_id := UInt64.ofNat (chain_id_value p)
    «to» := to_
    value := BitVec.ofNat 256 (decimal_value p.value_wei)
    nonce := UInt64.ofNat (opt_value p.nonce)
    gas_limit := UInt64.ofNat (opt_value p.fee.gas_limit)
    input_bytes := input }

/-- The struct it hands to the encoder, under EIP-1559. -/
def signed_eip1559 (p : PreparedTransaction) (to_ : Address) (input : List UInt8) : TxEip1559 :=
  { chain_id := UInt64.ofNat (chain_id_value p)
    nonce := UInt64.ofNat (opt_value p.nonce)
    gas_limit := UInt64.ofNat (opt_value p.fee.gas_limit)
    max_fee_per_gas := BitVec.ofNat 128 (opt_value p.fee.max_fee_per_gas)
    max_priority_fee_per_gas := BitVec.ofNat 128 (opt_value p.fee.max_priority_fee_per_gas)
    «to» := .Call to_
    value := BitVec.ofNat 256 (decimal_value p.value_wei)
    access_list := []
    input := input }

/-- The struct it hands to the encoder, as a legacy transaction. -/
def signed_legacy (p : PreparedTransaction) (to_ : Address) (input : List UInt8) : TxLegacy :=
  { chain_id := some (UInt64.ofNat (chain_id_value p))
    nonce := UInt64.ofNat (opt_value p.nonce)
    gas_price := BitVec.ofNat 128 (opt_value (effective_gas_price p.fee))
    gas_limit := UInt64.ofNat (opt_value p.fee.gas_limit)
    «to» := .Call to_
    value := BitVec.ofNat 256 (decimal_value p.value_wei)
    input := input }

/-- The result of an envelope with these bytes, this hash and this type. -/
def evm_result (cr : Crates) (p : PreparedTransaction) (bs : List UInt8) (hash : B256)
    (evm_tx_type : UInt8) : CompilationResult :=
  { chain := .Ethereum
    unsigned_tx := "0x" ++ cr.hex_encode bs
    tx_hash := "0x" ++ cr.hex_encode hash.val
    metadata := {
      tx_type := p.tx_type
      fee_mode := p.fee.mode
      evm_tx_type := some evm_tx_type
      tron_contract_type := none
      expiration := none } }

theorem decode_calldata_of_valid (hhex : HexLaws cr) (hv : Valid cr p) (hc : p.chain = .Ethereum) :
    ∃ input, decode_calldata cr p.data = .ok input ∧ SpellsInput p input := by
  have he := hv.evm hc
  unfold SpellsInput
  cases htx : p.tx_type with
  | TransferNative => exact ⟨[], decode_calldata_of_empty cr (he.native htx), rfl⟩
  | TransferToken =>
    obtain ⟨data, recipient, amount, -, hdata, hs, -⟩ := he.token htx
    refine ⟨_, ?_, data, recipient, amount, hdata, hs, rfl⟩
    rw [hdata]
    exact decode_calldata_of_spells hhex hs

theorem gas_limit_of_valid (hv : Valid cr p) (hc : p.chain = .Ethereum) :
    ∃ s, p.fee.gas_limit = some s := by
  have hof := hv.fee.mode
  have hreq := hv.fee.required
  rw [FeeMode.Of, hc] at hof
  unfold RequiredFields at hreq
  cases hm : p.fee.mode with
  | Tron => simp [hm] at hof
  | Eip1559 => rw [hm] at hreq; exact Option.ne_none_iff_exists'.1 hreq.1
  | Legacy => rw [hm] at hreq; exact Option.ne_none_iff_exists'.1 hreq.1

/-- The fields both envelopes share: two checks are left. -/
theorem derive_common_eq (hhex : HexLaws cr) (haddr : AddressLaws cr) (hu256 : U256Laws cr)
    (hv : Valid cr p) (hc : p.chain = .Ethereum) :
    ∃ (to_ : Address) (input : List UInt8), SpellsEvm p.«to» to_.val ∧ SpellsInput p input ∧
      derive_common cr p = (do
        reject_first (common_checks p)
        .ok (evm_common p to_ input)) := by
  have he := hv.evm hc
  obtain ⟨id, hid, hpos⟩ := he.chain_id
  obtain ⟨u, hu, huval, hlt⟩ := u64_try_from_i64_of_nonneg (i := id) (by omega)
  obtain ⟨n, hn, hnle⟩ := he.nonce
  obtain ⟨gas, hgas⟩ := gas_limit_of_valid hv hc
  obtain ⟨input, hinput, hspells⟩ := decode_calldata_of_valid hhex hv hc
  have hto := hv.«to»
  rw [hc] at hto
  obtain ⟨bs, h20, ds, hds, hdec⟩ := hto
  have haddress : cr.address_from_str p.«to» = some ⟨bs, h20⟩ :=
    haddr.from_str p.«to» ds ⟨bs, h20⟩ hds hdec
  -- `try_from` already refuses a negative id, so zero is what the source checks by hand
  have hu0 : ¬ u = 0 := by
    rintro rfl
    have h0 : (0 : UInt64).toNat = 0 := rfl
    omega
  have hnonce : u64_from_str n.repr = some (UInt64.ofNat n) := by
    have h53 : MAX_SAFE_JS_INT < 2 ^ 64 := by decide
    rw [u64_from_str_repr, if_pos (by omega)]
  have hchain : UInt64.ofNat (chain_id_value p) = u := by
    rw [chain_id_value, hid, Option.elim_some, ← UInt64.toNat_inj, toNat_ofNat_u64 (by omega)]
    omega
  refine ⟨⟨bs, h20⟩, input, ⟨h20, ds, hds, hdec⟩, hspells, ?_⟩
  -- one rewrite pair for each `?` of the source: resolved, or kept as a check
  unfold derive_common
  rw [hid, ok_or_some, ok_bind, hu, ok_or_some, ok_bind, reject_if_of_not hu0, ok_bind,
    parse_address, haddress, ok_or_some, ok_bind, parse_u256, hv.value_wei.u256_from_str hu256,
    ok_or_ite, checked_bind, hn, ok_or_some, ok_bind, parse_u64, hnonce, ok_or_some, ok_bind, hgas,
    ok_or_some, ok_bind, parse_u64, (hv.fee.gas_limit gas hgas).u64_from_str, ok_or_ite,
    checked_bind, hinput, ok_bind, reject_first_seq]
  rw [evm_common, common_checks, hchain, hn, hgas, opt_value_some, opt_value_some,
    decimal_value_repr]
  rfl

theorem build_eip1559_eq (hv : Valid cr p) (hmode : p.fee.mode = .Eip1559) (to_ : Address)
    (input : List UInt8) :
    build_eip1559 p (evm_common p to_ input) = (do
      reject_first (eip1559_checks p)
      .ok (signed_eip1559 p to_ input)) := by
  have hreq := hv.fee.required
  rw [RequiredFields, hmode] at hreq
  obtain ⟨max_fee, hmax⟩ := Option.ne_none_iff_exists'.1 hreq.2.1
  obtain ⟨priority, hpriority⟩ := Option.ne_none_iff_exists'.1 hreq.2.2
  unfold build_eip1559
  rw [hmax, ok_or_some, ok_bind, parse_u128, (hv.fee.max_fee_per_gas max_fee hmax).u128_from_str,
    ok_or_ite, checked_bind, hpriority, ok_or_some, ok_bind, parse_u128,
    (hv.fee.max_priority_fee_per_gas priority hpriority).u128_from_str, ok_or_ite, checked_bind,
    reject_first_seq]
  rw [eip1559_checks, signed_eip1559, hmax, hpriority]
  rfl

/-- The price of a legacy transaction, from whichever field it is taken. -/
theorem effective_gas_price_decimal (hf : ValidFee p.chain p.fee) :
    OptDecimal (effective_gas_price p.fee) := by
  intro price hprice
  rcases Option.or_eq_some_iff.1 hprice with h | ⟨-, h⟩
  · exact hf.gas_price price h
  · exact hf.max_fee_per_gas price h

theorem build_legacy_eq (hv : Valid cr p) (hmode : p.fee.mode = .Legacy) (to_ : Address)
    (input : List UInt8) :
    build_legacy p (evm_common p to_ input) = (do
      reject_first (legacy_checks p)
      .ok (signed_legacy p to_ input)) := by
  have hreq := hv.fee.required
  rw [RequiredFields, hmode] at hreq
  obtain ⟨price, hprice⟩ := Option.ne_none_iff_exists'.1 hreq.2
  have hdecimal := effective_gas_price_decimal hv.fee price hprice
  unfold build_legacy
  rw [hprice, ok_or_some, ok_bind, parse_u128, hdecimal.u128_from_str, ok_or_ite, checked_bind]
  rw [legacy_checks, signed_legacy, hprice]
  rfl

/-- On Ethereum the options are not read. -/
theorem compile_of_ethereum (hc : p.chain = .Ethereum) (options : CompileOptions) :
    compile cr p options = compile_evm cr p := by
  rw [compile, hc]

/-- **EIP-1559**: four range checks, then the pre-image of one struct. -/
theorem compile_eip1559_eq (hhex : HexLaws cr) (haddr : AddressLaws cr) (hu256 : U256Laws cr)
    (hv : Valid cr p) (hc : p.chain = .Ethereum) (hmode : p.fee.mode = .Eip1559) :
    ∃ (to_ : Address) (input : List UInt8), SpellsEvm p.«to» to_.val ∧ SpellsInput p input ∧
      compile_evm cr p = (do
        reject_first (common_checks p ++ eip1559_checks p)
        .ok (evm_result cr p (cr.eip1559_encode_for_signing (signed_eip1559 p to_ input))
          (cr.eip1559_signature_hash (signed_eip1559 p to_ input)) EVM_TX_TYPE_EIP1559)) := by
  obtain ⟨to_, input, hto, hinput, hcommon⟩ := derive_common_eq hhex haddr hu256 hv hc
  refine ⟨to_, input, hto, hinput, ?_⟩
  unfold compile_evm
  rw [hcommon, checked_bind, encode_envelope, hmode]
  dsimp only
  rw [encode_eip1559, build_eip1559_eq hv hmode, checked_bind, checked_bind, reject_first_seq,
    evm_result, hmode]

/-- **Legacy**: three range checks, then the pre-image of one struct. -/
theorem compile_legacy_eq (hhex : HexLaws cr) (haddr : AddressLaws cr) (hu256 : U256Laws cr)
    (hv : Valid cr p) (hc : p.chain = .Ethereum) (hmode : p.fee.mode = .Legacy) :
    ∃ (to_ : Address) (input : List UInt8), SpellsEvm p.«to» to_.val ∧ SpellsInput p input ∧
      compile_evm cr p = (do
        reject_first (common_checks p ++ legacy_checks p)
        .ok (evm_result cr p (cr.legacy_encode_for_signing (signed_legacy p to_ input))
          (cr.legacy_signature_hash (signed_legacy p to_ input)) EVM_TX_TYPE_LEGACY)) := by
  obtain ⟨to_, input, hto, hinput, hcommon⟩ := derive_common_eq hhex haddr hu256 hv hc
  refine ⟨to_, input, hto, hinput, ?_⟩
  unfold compile_evm
  rw [hcommon, checked_bind, encode_envelope, hmode]
  dsimp only
  rw [encode_legacy, build_legacy_eq hv hmode, checked_bind, checked_bind, reject_first_seq,
    evm_result, hmode]

end Ethereum

/-! ## Tron -/

section Tron

variable {cr : Crates} {p : PreparedTransaction}

/-- The operands of a Tron transaction, decoded. -/
structure TronParts where
  header : TronBlockHeader
  block_id : List UInt8
  owner : List UInt8
  to_ : List UInt8
  /-- of a token transfer only -/
  token : List UInt8

/-- The parts are what the fields of the transaction spell. -/
structure TronParts.Of (parts : TronParts) (cr : Crates) (p : PreparedTransaction) : Prop where
  rp : p.fee.rp = some parts.header
  block_id : parts.block_id.length = 32 ∧
    Hex.decode (bytes parts.header.h) = some parts.block_id
  owner : SpellsTron cr p.«from» parts.owner
  to_ : SpellsTron cr p.«to» parts.to_
  token : p.tx_type = .TransferToken →
    ∃ token, p.token_contract = some token ∧ SpellsTron cr token parts.token

/-- The contract of the transaction, its addresses taken from the parts. -/
def TronParts.contract (parts : TronParts) (p : PreparedTransaction) : Contract :=
  match p.tx_type with
  | .TransferNative => .transfer parts.owner parts.to_ (decimal_value p.value_wei)
  | .TransferToken => .trigger parts.owner parts.token
      (transfer_calldata (parts.to_.drop 1) (to_be_bytes 32 (decimal_value p.value_wei)))

/-- The record that is signed, at clock `t`. -/
def TronParts.raw (parts : TronParts) (p : PreparedTransaction) (t : ℕ) : RawData :=
  { ref_block_bytes := to_be_bytes 2 (parts.header.n.toNat % 2 ^ 16)
    ref_block_hash := (parts.block_id.drop 8).take 8
    expiration := t + 36000000
    contract := parts.contract p
    timestamp := t
    fee_limit := opt_value p.fee.el }

/-- A native amount has one word of 64 bits, and a token amount one of 256. -/
def amount_checks (p : PreparedTransaction) : List (Bool × TxCompilerError) :=
  match p.tx_type with
  | .TransferNative =>
    [(decide (2 ^ 64 ≤ decimal_value p.value_wei), native_amount_error p.value_wei)]
  | .TransferToken =>
    [(decide (2 ^ 256 ≤ decimal_value p.value_wei), trc20_amount_error p.value_wei)]

/-- A fee limit that is absent passes. -/
def fee_limit_checks (p : PreparedTransaction) : List (Bool × TxCompilerError) :=
  [(decide (2 ^ 64 ≤ opt_value p.fee.el), fee_limit_error (p.fee.el.getD ""))]

/-- The clock has to leave room for the ten hours of the window. -/
def time_checks (t : UInt64) : List (Bool × TxCompilerError) :=
  [(decide (2 ^ 64 ≤ t.toNat + 36000000), expiration_error)]

/-- The checks on Tron, in the order in which they are made. -/
def tron_checks (p : PreparedTransaction) (t : UInt64) : List (Bool × TxCompilerError) :=
  amount_checks p ++ fee_limit_checks p ++ time_checks t

theorem tron_checks_passed {p : PreparedTransaction} {t : UInt64}
    (h : ∀ c ∈ tron_checks p t, c.1 = false) : (∀ c ∈ amount_checks p, c.1 = false) ∧
      (∀ c ∈ fee_limit_checks p, c.1 = false) ∧ ∀ c ∈ time_checks t, c.1 = false := by
  rwa [tron_checks, List.forall_mem_append, List.forall_mem_append, and_assoc] at h

/-- The result of a `raw_data` message. -/
def tron_result (cr : Crates) (p : PreparedTransaction) (raw : RawData) : CompilationResult :=
  { chain := .Tron
    unsigned_tx := "0x" ++ cr.hex_encode raw.bytes
    tx_hash := "0x" ++ cr.hex_encode (cr.sha256 raw.bytes).val
    metadata := {
      tx_type := p.tx_type
      fee_mode := .Tron
      evm_tx_type := none
      tron_contract_type := some (UInt8.ofNat raw.contract.type)
      expiration := some (UInt64.ofNat raw.expiration) } }

theorem TronParts.Of.exists (hv : Valid cr p) (hc : p.chain = .Tron) :
    ∃ parts : TronParts, parts.Of cr p := by
  have hfrom := hv.«from»
  have hto := hv.«to»
  have htoken := hv.token_contract
  have hof := hv.fee.mode
  have hreq := hv.fee.required
  rw [hc] at hfrom hto htoken hof
  obtain ⟨owner, howner⟩ := hfrom
  obtain ⟨to_, hto⟩ := hto
  rw [RequiredFields, hof.2 rfl] at hreq
  obtain ⟨header, hrp⟩ := Option.ne_none_iff_exists'.1 hreq
  obtain ⟨block_id, h32, hdec⟩ := (hv.fee.rp header hrp).h
  cases hcontract : p.token_contract with
  | some token =>
    obtain ⟨token_bytes, htb⟩ := htoken token hcontract
    exact ⟨⟨header, block_id, owner, to_, token_bytes⟩, hrp, ⟨h32, hdec⟩, howner, hto,
      fun _ => ⟨token, hcontract, htb⟩⟩
  | none =>
    exact ⟨⟨header, block_id, owner, to_, []⟩, hrp, ⟨h32, hdec⟩, howner, hto,
      fun htx => absurd hcontract (hv.token htx)⟩

theorem amount_below {p : PreparedTransaction} (h : ∀ c ∈ amount_checks p, c.1 = false) :
    match p.tx_type with
    | .TransferNative => decimal_value p.value_wei < 2 ^ 64
    | .TransferToken => decimal_value p.value_wei < 2 ^ 256 := by
  unfold amount_checks at h
  cases htx : p.tx_type with
  | TransferNative =>
    rw [htx] at h
    simpa using h
  | TransferToken =>
    rw [htx] at h
    simpa using h

theorem fee_limit_below {p : PreparedTransaction} (h : ∀ c ∈ fee_limit_checks p, c.1 = false) :
    opt_value p.fee.el < 2 ^ 64 := by
  simpa [fee_limit_checks] using h

theorem time_below {t : UInt64} (h : ∀ c ∈ time_checks t, c.1 = false) :
    t.toNat + 36000000 < 2 ^ 64 := by
  simp only [time_checks, List.mem_singleton, forall_eq, decide_eq_false_iff_not] at h
  omega

/-- The contract: one range check, at the width of its amount. -/
theorem build_contract_eq (hhex : HexLaws cr) (hu256 : U256Laws cr) (hv : Valid cr p)
    {parts : TronParts} (hp : parts.Of cr p) :
    build_contract cr p = (do
      reject_first (amount_checks p)
      .ok ((parts.contract p).bytes, UInt8.ofNat (parts.contract p).type)) := by
  have hfrom := (tron_address_to_bytes_eq_ok hhex).2 hp.owner
  have hto := (tron_address_to_bytes_eq_ok hhex).2 hp.to_
  unfold amount_checks TronParts.contract
  cases htx : p.tx_type with
  | TransferNative =>
    -- `u64` amount
    rw [build_contract_native htx hfrom hto, hv.value_wei.u64_from_str, ok_or_ite, checked_bind]
    apply reject_first_congr
    intro h
    rw [toNat_ofNat_u64 (by simpa using h)]
    rfl
  | TransferToken =>
    obtain ⟨token, htc, htoken⟩ := hp.token htx
    have htb := (tron_address_to_bytes_eq_ok hhex).2 htoken
    -- `U256` amount, written as a 32-byte word
    rw [build_contract_token htx hfrom htc htb hto, hv.value_wei.u256_from_str hu256, ok_or_ite,
      checked_bind]
    apply reject_first_congr
    intro h
    rw [BitVec.toNat_ofNat, Nat.mod_eq_of_lt (by simpa using h)]
    rfl

theorem contract_wf (hhex : HexLaws cr) {parts : TronParts} (hp : parts.Of cr p)
    (h : ∀ c ∈ amount_checks p, c.1 = false) : (parts.contract p).Wf := by
  have hfrom := (tron_address_to_bytes_eq_ok hhex).2 hp.owner
  have hto := (tron_address_to_bytes_eq_ok hhex).2 hp.to_
  have hlt := amount_below h
  unfold TronParts.contract
  cases htx : p.tx_type with
  | TransferNative =>
    rw [htx] at hlt
    have hwf := transfer_wf hfrom hto (UInt64.ofNat (decimal_value p.value_wei))
    rwa [toNat_ofNat_u64 hlt] at hwf
  | TransferToken =>
    obtain ⟨token, -, htoken⟩ := hp.token htx
    exact trigger_wf hfrom ((tron_address_to_bytes_eq_ok hhex).2 htoken) hto _

theorem parse_fee_limit_eq (hv : Valid cr p) :
    parse_fee_limit p.fee.el = (do
      reject_first (fee_limit_checks p)
      .ok (p.fee.el.map fun s => UInt64.ofNat (decimal_value s))) := by
  unfold fee_limit_checks
  cases hel : p.fee.el with
  | none => rfl
  | some s =>
    unfold parse_fee_limit
    dsimp only
    rw [(hv.fee.el s hel).u64_from_str, ok_or_ite, checked_bind]
    rfl

theorem window_toNat : EXPIRATION_MS.toNat = 36000000 := by decide

/-- **Tron**: three range checks, then one record. -/
theorem compile_tron_eq (hhex : HexLaws cr) (hu256 : U256Laws cr) (hv : Valid cr p)
    {parts : TronParts} (hp : parts.Of cr p) (t : UInt64) :
    compile_tron cr p (.with_now t) = (do
      reject_first (tron_checks p t)
      .ok (tron_result cr p (parts.raw p t.toNat))) := by
  obtain ⟨h32, hdec⟩ := hp.block_id
  obtain ⟨⟨ref_block_bytes, ref_block_hash⟩, href, hbytes, hhash⟩ :=
    derive_block_ref_eq hhex hdec h32
  dsimp only at hbytes hhash
  unfold compile_tron
  rw [hp.rp, ok_or_some, ok_bind, href, ok_bind]
  dsimp only
  rw [build_contract_eq hhex hu256 hv hp, checked_bind]
  simp only [parse_fee_limit_eq hv, checked_bind, CompileOptions.with_now, Option.getD_some]
  -- the last check of the source: `now + EXPIRATION_MS`
  rw [checked_add, ok_or_ite, checked_bind, window_toNat, reject_first_seq, reject_first_seq]
  -- behind the passed checks every `from` is exact and no addition wraps
  apply reject_first_congr
  intro hchecks
  obtain ⟨hamount, hfee_limit, hclock⟩ := tron_checks_passed hchecks
  have hlimit := fee_limit_below hfee_limit
  have htime := time_below hclock
  have hfee : (p.fee.el.map fun s => UInt64.ofNat (decimal_value s)).elim 0 UInt64.toNat
      = opt_value p.fee.el := by
    cases hel : p.fee.el with
    | none => rfl
    | some s =>
      rw [hel] at hlimit
      exact toNat_ofNat_u64 hlimit
  have hexp : (t + EXPIRATION_MS).toNat = t.toNat + 36000000 := by
    rw [UInt64.toNat_add, window_toNat]
    exact Nat.mod_eq_of_lt htime
  have hexp' : t + EXPIRATION_MS = UInt64.ofNat (t.toNat + 36000000) := by
    rw [← UInt64.toNat_inj, hexp, toNat_ofNat_u64 htime]
  rw [encode_raw_data_eq (Contract.length_bytes_lt (contract_wf hhex hp hamount)), ok_bind]
  dsimp only
  rw [hfee, hbytes, hhash, hexp, hexp']
  rfl

end Tron

/-! ## The review -/

section Review

variable {cr : Crates} {p : PreparedTransaction}

/-- The summary around a recipient and an amount. -/
def review_of (cr : Crates) (p : PreparedTransaction) (recipient amount : String) :
    TransactionReview :=
  { chain := p.chain
    tx_type := p.tx_type
    «from» := p.«from»
    recipient
    amount
    token_contract := p.token_contract
    nonce := p.nonce
    chain_id := p.chain_id
    fee := build_fee_review cr p.fee }

/-- The review repeats the fields of the transaction. -/
theorem review_eq_ok {r : TransactionReview} (h : review cr p = .ok r) :
    ∃ recipient amount, r = review_of cr p recipient amount := by
  obtain ⟨⟨recipient, amount⟩, -, hok⟩ := bind_eq_ok.1 h
  exact ⟨recipient, amount, (Except.ok.inj hok).symm⟩

/-- Everywhere but in an EVM token transfer the review repeats the envelope. -/
theorem review_envelope (cr : Crates) (h : p.tx_type = .TransferNative ∨ p.chain = .Tron) :
    review cr p = .ok (review_of cr p p.«to» p.value_wei) := by
  have htransfer : review_transfer cr p = .ok (p.«to», p.value_wei) := by
    unfold review_transfer
    rcases h with h | h
    · rw [h]
    · rw [h]
      cases p.tx_type <;> rfl
  unfold review
  rw [htransfer, ok_bind]
  rfl

theorem review_evm_token (hu256 : U256Laws cr) (htx : p.tx_type = .TransferToken)
    (hc : p.chain = .Ethereum) {data : String} {recipient amount : List UInt8}
    (hdata : p.data = some data) (hs : SpellsTransfer data recipient amount) :
    ∃ shown, SpellsEvm shown recipient ∧
      review cr p = .ok (review_of cr p shown (be_value amount).repr) := by
  obtain ⟨shown, hshown, hspells⟩ := decode_erc20_transfer_data_of_spells hu256 hs
  refine ⟨shown, hspells, ?_⟩
  -- the only review that reads the calldata instead of the envelope
  have htransfer : review_transfer cr p = .ok (shown, (be_value amount).repr) := by
    unfold review_transfer
    rw [htx, hc]
    dsimp only
    rw [hdata, ok_or_some, ok_bind, hshown]
  unfold review
  rw [htransfer, ok_bind]
  rfl

theorem review_of_valid (hu256 : U256Laws cr) (hv : Valid cr p) :
    ∃ r, review cr p = .ok r := by
  cases htx : p.tx_type with
  | TransferNative => exact ⟨_, review_envelope cr (.inl htx)⟩
  | TransferToken =>
    cases hc : p.chain with
    | Tron => exact ⟨_, review_envelope cr (.inr hc)⟩
    | Ethereum =>
      obtain ⟨data, recipient, amount, -, hdata, hs, -⟩ := (hv.evm hc).token htx
      obtain ⟨shown, -, hr⟩ := review_evm_token hu256 htx hc hdata hs
      exact ⟨_, hr⟩

end Review

/-! ## The boundary -/

/-- The amount bounds of the chain, intent and fee mode. -/
def AmountsInRange (p : PreparedTransaction) : Prop :=
  match p.chain with
  | .Ethereum => decimal_value p.value_wei < 2 ^ 256 ∧ opt_value p.fee.gas_limit < 2 ^ 64 ∧
    match p.fee.mode with
    | .Eip1559 => opt_value p.fee.max_fee_per_gas < 2 ^ 128 ∧
        opt_value p.fee.max_priority_fee_per_gas < 2 ^ 128
    | .Legacy => opt_value (effective_gas_price p.fee) < 2 ^ 128
    | .Tron => True
  | .Tron => opt_value p.fee.el < 2 ^ 64 ∧
    match p.tx_type with
    | .TransferNative => decimal_value p.value_wei < 2 ^ 64
    | .TransferToken => decimal_value p.value_wei < 2 ^ 256

/-- On Tron the expiration has to fit its integer as well. -/
def ClockInRange (p : PreparedTransaction) (t : UInt64) : Prop :=
  p.chain = .Tron → t.toNat + 36000000 < 2 ^ 64

/-- The checks that depend on the payload alone. -/
def range_checks (p : PreparedTransaction) : List (Bool × TxCompilerError) :=
  match p.chain with
  | .Ethereum => common_checks p ++
    match p.fee.mode with
    | .Eip1559 => eip1559_checks p
    | .Legacy => legacy_checks p
    | .Tron => []
  | .Tron => amount_checks p ++ fee_limit_checks p

/-- The one check that depends on the clock. -/
def clock_checks (p : PreparedTransaction) (t : UInt64) : List (Bool × TxCompilerError) :=
  match p.chain with
  | .Ethereum => []
  | .Tron => time_checks t

theorem range_checks_iff (p : PreparedTransaction) :
    (∀ c ∈ range_checks p, c.1 = false) ↔ AmountsInRange p := by
  unfold range_checks AmountsInRange
  cases p.chain with
  | Ethereum =>
    cases p.fee.mode <;>
      simp [common_checks, eip1559_checks, legacy_checks]
  | Tron =>
    unfold amount_checks
    cases p.tx_type <;> simp [fee_limit_checks, and_comm]

theorem clock_checks_iff (p : PreparedTransaction) (t : UInt64) :
    (∀ c ∈ clock_checks p t, c.1 = false) ↔ ClockInRange p t := by
  unfold clock_checks ClockInRange
  cases p.chain with
  | Ethereum => simp
  | Tron =>
    simp only [time_checks, List.mem_singleton, forall_eq, decide_eq_false_iff_not, true_imp_iff]
    omega

/-- The bounds are decided by the checks themselves. -/
instance (p : PreparedTransaction) : Decidable (AmountsInRange p) :=
  decidable_of_iff _ (range_checks_iff p)

instance (p : PreparedTransaction) (t : UInt64) : Decidable (ClockInRange p t) :=
  decidable_of_iff _ (clock_checks_iff p t)

theorem range_checks_code {p : PreparedTransaction} {c : Bool × TxCompilerError}
    (h : c ∈ range_checks p) : c.2.code = .InvalidAmount := by
  unfold range_checks at h
  cases hc : p.chain with
  | Ethereum =>
    rw [hc] at h
    rcases List.mem_append.1 h with h | h
    · simp only [common_checks, List.mem_cons, List.not_mem_nil, or_false] at h
      rcases h with rfl | rfl <;> rfl
    · cases hm : p.fee.mode with
      | Eip1559 =>
        simp only [hm, eip1559_checks, List.mem_cons, List.not_mem_nil, or_false] at h
        rcases h with rfl | rfl <;> rfl
      | Legacy =>
        simp only [hm, legacy_checks, List.mem_singleton] at h
        rw [h]
        rfl
      | Tron => simp [hm] at h
  | Tron =>
    rw [hc] at h
    rcases List.mem_append.1 h with h | h
    · unfold amount_checks at h
      cases htx : p.tx_type <;> rw [htx, List.mem_singleton] at h <;> rw [h] <;> rfl
    · rw [fee_limit_checks, List.mem_singleton] at h
      rw [h]
      rfl

/-- On either chain: range checks, then a result. -/
theorem compile_of_valid {cr : Crates} {p : PreparedTransaction} (hhex : HexLaws cr)
    (haddr : AddressLaws cr) (hu256 : U256Laws cr) (hv : Valid cr p) (t : UInt64) :
    ∃ res, compile cr p (.with_now t) = (do
      reject_first (range_checks p ++ clock_checks p t)
      .ok res) := by
  unfold compile range_checks clock_checks
  cases hc : p.chain with
  | Tron =>
    obtain ⟨parts, hp⟩ := TronParts.Of.exists hv hc
    exact ⟨_, compile_tron_eq hhex hu256 hv hp t⟩
  | Ethereum =>
    have hof := hv.fee.mode
    rw [FeeMode.Of, hc] at hof
    dsimp only
    -- the options are not read here, so no clock check is left
    rw [List.append_nil]
    cases hm : p.fee.mode with
    | Tron => simp [hm] at hof
    | Eip1559 =>
      obtain ⟨to_, input, -, -, h⟩ := compile_eip1559_eq hhex haddr hu256 hv hc hm
      exact ⟨_, h⟩
    | Legacy =>
      obtain ⟨to_, input, -, -, h⟩ := compile_legacy_eq hhex haddr hu256 hv hc hm
      exact ⟨_, h⟩

/-- Compilation of a valid transaction succeeds exactly inside the bounds. -/
theorem compile_ok_iff {cr : Crates} {p : PreparedTransaction} (hhex : HexLaws cr)
    (haddr : AddressLaws cr) (hu256 : U256Laws cr) (hv : Valid cr p) (t : UInt64) :
    (∃ res, compile cr p (.with_now t) = .ok res) ↔ AmountsInRange p ∧ ClockInRange p t := by
  obtain ⟨res, hres⟩ := compile_of_valid hhex haddr hu256 hv t
  rw [hres, ← range_checks_iff, ← clock_checks_iff, ← List.forall_mem_append]
  constructor
  · rintro ⟨res', h'⟩
    obtain ⟨u, hu, -⟩ := bind_eq_ok.1 h'
    exact reject_first_eq_ok.1 hu
  · intro hall
    exact ⟨res, by rw [(reject_first_eq_ok (u := ())).2 hall, ok_bind]⟩

/-- The samples are compiled through the bounds instead of being run: the bounds are
comparisons of numbers, the run serialises and hashes. -/
theorem reference_compiles {v : Value} {p : PreparedTransaction} {t : UInt64}
    (h : validate reference v = .ok p) (hamounts : AmountsInRange p) (hclock : ClockInRange p t) :
    ∃ res, compile reference p (.with_now t) = .ok res := by
  obtain ⟨-, hv⟩ := (validate_eq_ok reference_hex).1 h
  exact (compile_ok_iff reference_hex reference_address reference_u256 hv t).2 ⟨hamounts, hclock⟩

/-- **Only a range is left to reject.** Review always succeeds on a validated transaction;
compilation succeeds exactly inside the bounds, and outside them its error is one of the
range errors: of an amount if one is out of bounds, of the clock otherwise. -/
theorem compile_rejects_range_only {cr : Crates} (hhex : HexLaws cr) (haddr : AddressLaws cr)
    (hu256 : U256Laws cr) {v : Value} {p : PreparedTransaction} (h : validate cr v = .ok p)
    (t : UInt64) :
    (∃ r, review cr p = .ok r) ∧
      ((∃ res, compile cr p (.with_now t) = .ok res) ↔ AmountsInRange p ∧ ClockInRange p t) ∧
      (¬ AmountsInRange p → ∃ c ∈ range_checks p, c.1 = true ∧ c.2.code = .InvalidAmount ∧
        compile cr p (.with_now t) = fail c.2) ∧
      (AmountsInRange p → ¬ ClockInRange p t → expiration_error.code = .InvalidPayload ∧
        compile cr p (.with_now t) = fail expiration_error) := by
  obtain ⟨-, hv⟩ := (validate_eq_ok hhex).1 h
  obtain ⟨res, hres⟩ := compile_of_valid hhex haddr hu256 hv t
  refine ⟨review_of_valid hu256 hv, compile_ok_iff hhex haddr hu256 hv t, ?_, ?_⟩
  · intro hbad
    rw [← range_checks_iff] at hbad
    push Not at hbad
    have hviolated : ∃ c ∈ range_checks p, c.1 = true := by
      obtain ⟨c, hc, hb⟩ := hbad
      exact ⟨c, hc, by simpa using hb⟩
    -- the checks run in order, so the error is that of the first one violated
    obtain ⟨c, hc, hcbad, heq⟩ := reject_first_eq_fail hviolated
    refine ⟨c, hc, hcbad, range_checks_code hc, ?_⟩
    rw [hres, ← reject_first_seq, heq, fail_bind]
  · intro hamounts hclock
    -- the amounts pass, and the clock check is the last one
    have hfirst := (reject_first_eq_ok (u := ())).2 ((range_checks_iff p).2 hamounts)
    refine ⟨rfl, ?_⟩
    rw [hres, ← reject_first_seq, hfirst, ok_bind]
    rw [ClockInRange] at hclock
    push Not at hclock
    obtain ⟨hc, hge⟩ := hclock
    rw [clock_checks, hc]
    dsimp only
    rw [time_checks, decide_eq_true hge]
    rfl

theorem evm_native_compiles :
    (∃ r, review reference evm_native = .ok r) ∧
      ∃ res, compile reference evm_native (.with_now sample_now) = .ok res := by
  have hamounts : AmountsInRange evm_native := by decide
  have hclock : ClockInRange evm_native sample_now := by decide
  have h := compile_rejects_range_only reference_hex reference_address reference_u256
    validate_evm_native sample_now
  exact ⟨h.1, h.2.1.2 ⟨hamounts, hclock⟩⟩

end TxCompiler
