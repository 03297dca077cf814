/-
**What can be signed.**

A signer that takes artefacts from this compiler can be made to sign what an artefact can decode
to, and that is settled here from both sides. `Meaning.InRange` is the language of `compile` alone,
for transactions of any origin: numbers within their types, twenty-byte addresses, any calldata
(`compilable_exactly`). Behind the validator the nonce is a safe integer, and the calldata is empty
or a `transfer(address,uint256)` that carries no payment (`Meaning.Signable`, `signable_exactly`).
On Tron the two languages are the same.

Each theorem says that there is no other artefact and that none of these is missing. For the second
half `Meaning.transaction` writes a transaction for a meaning, which is read as that meaning again;
when the meaning is signable, the validator accepts it.
-/
import TxCompiler.Reading
import TxCompiler.Layout

set_option autoImplicit false

namespace TxCompiler

open Rust

/-! ## The two languages -/

/-- The fields both envelopes share. -/
structure EvmRange (chain_id nonce gas_limit : ℕ) (to_ : List UInt8) (value : ℕ)
    (input : List UInt8) : Prop where
  pos : 0 < chain_id
  chain_id_lt : chain_id < 2 ^ 63
  nonce_lt : nonce < 2 ^ 64
  gas_limit_lt : gas_limit < 2 ^ 64
  length_to : to_.length = 20
  value_lt : value < 2 ^ 256
  /-- two digits a byte, in a text that fits the memory -/
  length_input_lt : input.length < 2 ^ 62

/-- The numbers of a meaning fit the fields they are read into. -/
def Meaning.InRange : Meaning → Prop
  | .eip1559 chain_id nonce gas_limit max_fee max_priority_fee to_ value input =>
    EvmRange chain_id nonce gas_limit to_ value input ∧ max_fee < 2 ^ 128 ∧
      max_priority_fee < 2 ^ 128
  | .legacy chain_id nonce gas_limit gas_price to_ value input =>
    EvmRange chain_id nonce gas_limit to_ value input ∧ gas_price < 2 ^ 128
  | .tron clock block_number block_hash transfer fee_limit =>
    (Meaning.tron clock block_number block_hash transfer fee_limit).Wf

/-- Nothing is called, or a transfer of a token is, without a payment. -/
def IsTransfer (value : ℕ) (input : List UInt8) : Prop :=
  input = [] ∨ value = 0 ∧ ∃ recipient amount, recipient.length = 20 ∧ amount < 2 ^ 256 ∧
    input = transfer_calldata recipient (to_be_bytes 32 amount)

/-- What the validator asks of an envelope beyond what the compiler does. -/
def Meaning.Transfers : Meaning → Prop
  | .eip1559 _ nonce _ _ _ _ value input => nonce < 2 ^ 53 ∧ IsTransfer value input
  | .legacy _ nonce _ _ _ value input => nonce < 2 ^ 53 ∧ IsTransfer value input
  | .tron .. => True

/-- What can be signed behind the validator: a transfer, with numbers in range. -/
def Meaning.Signable (m : Meaning) : Prop := m.InRange ∧ m.Transfers

theorem Meaning.InRange.fits {m : Meaning} (h : m.InRange) : m.Fits := by
  have h63 : ∀ n, n < 2 ^ 63 → n < 2 ^ 256 := fun n hn => lt_trans hn (by norm_num)
  have h64 : ∀ n, n < 2 ^ 64 → n < 2 ^ 256 := fun n hn => lt_trans hn (by norm_num)
  have h128 : ∀ n, n < 2 ^ 128 → n < 2 ^ 256 := fun n hn => lt_trans hn (by norm_num)
  cases m with
  | eip1559 chain_id nonce gas_limit max_fee max_priority_fee to_ value input =>
    obtain ⟨he, hmax, hpriority⟩ := h
    refine ⟨?_, by rw [he.length_to]; decide, lt_trans he.length_input_lt (by norm_num)⟩
    simp only [List.forall_mem_cons, List.not_mem_nil, false_imp_iff, implies_true, and_true]
    exact ⟨h63 _ he.chain_id_lt, h64 _ he.nonce_lt, h64 _ he.gas_limit_lt, h128 _ hmax,
      h128 _ hpriority, he.value_lt⟩
  | legacy chain_id nonce gas_limit gas_price to_ value input =>
    obtain ⟨he, hprice⟩ := h
    refine ⟨?_, by rw [he.length_to]; decide, lt_trans he.length_input_lt (by norm_num)⟩
    simp only [List.forall_mem_cons, List.not_mem_nil, false_imp_iff, implies_true, and_true]
    exact ⟨h63 _ he.chain_id_lt, h64 _ he.nonce_lt, h64 _ he.gas_limit_lt, h128 _ hprice,
      he.value_lt⟩
  | tron => exact h

/-- A positive chain id is read as itself. -/
theorem read_chain_id_of_pos {id : Int64} (h : 1 ≤ id.toInt) :
    ∃ u, read_chain_id (some id) = some u ∧ (u.toNat : ℤ) = id.toInt := by
  obtain ⟨u, hu, hval, -⟩ := @u64_try_from_i64_of_nonneg id (by omega)
  have hne : u ≠ 0 := by
    rintro rfl
    simp at hval
    omega
  refine ⟨u, ?_, hval⟩
  rw [read_chain_id, Option.bind_eq_bind, Option.bind_some, hu, Option.bind_eq_bind,
    Option.bind_some, if_neg hne]

theorem read_chain_id_range {chain_id : Option Int64} {u : UInt64}
    (h : read_chain_id chain_id = some u) : 0 < u.toNat ∧ u.toNat < 2 ^ 63 := by
  unfold read_chain_id at h
  obtain ⟨id, -, h⟩ := Option.bind_eq_some_iff.1 h
  obtain ⟨n, hn, h⟩ := Option.bind_eq_some_iff.1 h
  by_cases h0 : n = 0
  · rw [if_pos h0] at h
    exact absurd h (by simp)
  · rw [if_neg h0, Option.some.injEq] at h
    subst h
    have hval := u64_try_from_i64_eq_some.1 hn
    have hlt := id.toInt_lt
    refine ⟨?_, by omega⟩
    rw [Nat.pos_iff_ne_zero, Ne, ← UInt64.toNat_zero, UInt64.toNat_inj]
    exact h0

/-! ## What is compiled is in the language -/

section Sound

variable {cr : Crates} {p : PreparedTransaction}

theorem evmRange_of_read (hp : DataFits p) {common : EvmCommon}
    (h : p.evm_text.common cr = some common) :
    EvmRange common.chain_id.toNat common.nonce.toNat common.gas_limit.toNat common.«to».val
      common.value.toNat common.input_bytes := by
  obtain ⟨hid, -, -, -, -, hinput⟩ := EvmText.common_eq_some.1 h
  obtain ⟨hpos, hlt⟩ := read_chain_id_range hid
  exact ⟨hpos, hlt, common.nonce.toNat_lt, common.gas_limit.toNat_lt, common.«to».property,
    common.value.isLt, length_calldata_lt hp hinput⟩

theorem inRange_of_read (hp : p.chain = .Ethereum → DataFits p) {t : UInt64}
    {m : Meaning} (h : read_meaning cr p t = some m) : m.InRange := by
  cases hc : p.chain with
  | Ethereum =>
    unfold read_meaning at h
    rw [hc] at h
    obtain ⟨common, hcommon, henvelope⟩ := Option.bind_eq_some_iff.1 h
    have he := evmRange_of_read (hp hc) hcommon
    rcases EvmText.envelope_cases henvelope with ⟨max_fee, max_priority_fee, -, -, -, rfl⟩ |
      ⟨gas_price, -, -, rfl⟩
    · exact ⟨he, max_fee.isLt, max_priority_fee.isLt⟩
    · exact ⟨he, gas_price.isLt⟩
  | Tron =>
    obtain ⟨header, block_number, block_hash, transfer, fee_limit, -, href, htransfer, hlimit,
      htime, rfl⟩ := (read_meaning_tron hc).1 h
    obtain ⟨hnumber, hhash⟩ := read_block_ref_fits href
    exact ⟨htime, hnumber, hhash, read_transfer_wf htransfer, read_fee_limit_lt hlimit⟩

theorem isTransfer_of_valid (hhex : HexLaws cr) (hu256 : U256Laws cr) (hv : Valid cr p)
    (hc : p.chain = .Ethereum) {value : U256} {input : List UInt8}
    (hvalue : cr.u256_from_str_radix p.value_wei 10 = some value)
    (hinput : calldata_bytes p.data = some input) : IsTransfer value.toNat input := by
  obtain ⟨input', hdecode, hspells⟩ := decode_calldata_of_valid hhex hv hc
  obtain rfl : input' = input :=
    ((decode_calldata_eq_ok hhex).1 hdecode).unique (calldata_bytes_eq_some.1 hinput)
  unfold SpellsInput at hspells
  cases htx : p.tx_type with
  | TransferNative =>
    rw [htx] at hspells
    exact .inl hspells
  | TransferToken =>
    rw [htx] at hspells
    obtain ⟨data, recipient, amount, -, hs, rfl⟩ := hspells
    obtain ⟨_, _, _, _, -, -, -, -, hzero⟩ := (hv.evm hc).token htx
    rw [hzero, ← zero_repr, hu256.decimal, if_pos (by norm_num), Option.some.injEq] at hvalue
    refine .inr ⟨by rw [← hvalue]; rfl, recipient, be_value amount, hs.1, hs.amount_lt, ?_⟩
    rw [← hs.2.1, to_be_bytes_be_value]

theorem nonce_of_valid (hv : Valid cr p) (hc : p.chain = .Ethereum) {nonce : UInt64}
    (h : p.nonce.bind u64_from_str = some nonce) : nonce.toNat < 2 ^ 53 := by
  obtain ⟨n, hn, hsafe⟩ := (hv.evm hc).nonce
  have hsmall : n < 2 ^ 64 := lt_of_le_of_lt hsafe (by decide)
  rw [hn, Option.bind_some, u64_from_str_repr, if_pos hsmall, Option.some.injEq] at h
  rw [← h, toNat_ofNat_u64 hsmall]
  exact lt_of_le_of_lt hsafe (by decide)

theorem transfers_of_read (hhex : HexLaws cr) (hu256 : U256Laws cr) (hv : Valid cr p) {t : UInt64}
    {m : Meaning} (h : read_meaning cr p t = some m) : m.Transfers := by
  cases hc : p.chain with
  | Ethereum =>
    unfold read_meaning at h
    rw [hc] at h
    obtain ⟨common, hcommon, henvelope⟩ := Option.bind_eq_some_iff.1 h
    obtain ⟨-, -, hvalue, hnonce, -, hinput⟩ := EvmText.common_eq_some.1 hcommon
    have hlt := nonce_of_valid hv hc hnonce
    have htransfer := isTransfer_of_valid hhex hu256 hv hc hvalue hinput
    rcases EvmText.envelope_cases henvelope with ⟨_, _, -, -, -, rfl⟩ | ⟨_, -, -, rfl⟩
    · exact ⟨hlt, htransfer⟩
    · exact ⟨hlt, htransfer⟩
  | Tron =>
    obtain ⟨_, _, _, _, _, -, -, -, -, -, rfl⟩ := (read_meaning_tron hc).1 h
    trivial

/-- The calldata of an accepted payload is sixty-eight bytes, and a prefix. -/
theorem len_data_le (hv : Valid cr p) (hc : p.chain = .Ethereum) {d : String}
    (hd : p.data = some d) : len d ≤ 138 := by
  cases htx : p.tx_type with
  | TransferNative =>
    have hnone := (hv.evm hc).native htx
    rw [hd] at hnone
    rcases non_empty_calldata_eq_none.1 hnone with h | h | h
    · simp at h
    · obtain rfl := Option.some.inj h
      decide
    · obtain rfl := Option.some.inj h
      decide
  | TransferToken =>
    obtain ⟨data, _, _, _, hdata, hspells, -⟩ := (hv.evm hc).token htx
    obtain rfl := Option.some.inj (hdata.symm.trans hd)
    obtain ⟨-, hlen, -⟩ := spellsTransfer_slices hspells
    rw [← length_bytes] at hlen ⊢
    rcases bytes_strip_0x data with h | h
    · rw [h, List.length_cons, List.length_cons, hlen]
      decide
    · rw [← h, hlen]
      decide

theorem dataFits_of_valid (hv : Valid cr p) (hc : p.chain = .Ethereum) : DataFits p :=
  fun _ hd => lt_of_le_of_lt (len_data_le hv hc hd) (by norm_num)

end Sound

/-! ## A transaction for each meaning -/

/-- One spelling of an address. -/
def evm_address (bs : List UInt8) : String := "0x" ++ Hex.encode bs

/-- A payment when nothing is called, and else a transfer of the token that is called. -/
def evm_transaction (fee : FeeParams) (chain_id nonce : ℕ) (to_ : List UInt8) (value : ℕ)
    (input : List UInt8) : PreparedTransaction :=
  { chain := .Ethereum
    chain_id := some (Int64.ofNat chain_id)
    -- the sender is recovered from the signature, so any address will do
    «from» := evm_address (List.replicate 20 0)
    «to» := evm_address to_
    value_wei := value.repr
    -- bare digits, since the longest calldata leaves no room for a prefix
    data := if input = [] then none else some (Hex.encode input)
    tx_type := if input = [] then .TransferNative else .TransferToken
    token_contract := if input = [] then none else some (evm_address to_)
    nonce := some nonce.repr
    fee }

/-- A block with the two parts that are signed in their places. -/
def block_header (block_number : ℕ) (block_hash : List UInt8) : TronBlockHeader :=
  { h := Hex.encode (List.replicate 8 0 ++ block_hash ++ List.replicate 16 0)
    -- a number of zero would be refused, and only the low bits count
    n := UInt64.ofNat (2 ^ 16 + block_number)
    t := 1
    p := none
    r := none
    w := none
    v := 0 }

/-- A fee object with this reference block and this limit. -/
def tron_fee (block_number : ℕ) (block_hash : List UInt8) (fee_limit : ℕ) : FeeParams :=
  { mode := .Tron
    gas_limit := none
    base_fee_per_gas := none
    max_priority_fee_per_gas := none
    max_fee_per_gas := none
    gas_price := none
    el := some fee_limit.repr
    rp := some (block_header block_number block_hash) }

/-- A transaction for the transfer, its addresses in hexadecimal. -/
def tron_transaction (fee : FeeParams) : TronTransfer → PreparedTransaction
  | .native from_ to_ amount =>
    { chain := .Tron
      chain_id := none
      «from» := Hex.encode from_
      «to» := Hex.encode to_
      value_wei := amount.repr
      data := none
      tx_type := .TransferNative
      token_contract := none
      nonce := none
      fee }
  | .token from_ to_ token_bytes amount =>
    { chain := .Tron
      chain_id := none
      «from» := Hex.encode from_
      «to» := Hex.encode to_
      value_wei := amount.repr
      data := none
      tx_type := .TransferToken
      token_contract := some (Hex.encode token_bytes)
      nonce := none
      fee }

/-- **A transaction with this meaning**: the inhabitant the exact languages are proved with. -/
def Meaning.transaction : Meaning → PreparedTransaction
  | .eip1559 chain_id nonce gas_limit max_fee max_priority_fee to_ value input =>
    evm_transaction
      { mode := .Eip1559
        gas_limit := some gas_limit.repr
        base_fee_per_gas := none
        max_priority_fee_per_gas := some max_priority_fee.repr
        max_fee_per_gas := some max_fee.repr
        gas_price := none
        el := none
        rp := none } chain_id nonce to_ value input
  | .legacy chain_id nonce gas_limit gas_price to_ value input =>
    evm_transaction
      { mode := .Legacy
        gas_limit := some gas_limit.repr
        base_fee_per_gas := none
        max_priority_fee_per_gas := none
        max_fee_per_gas := none
        gas_price := some gas_price.repr
        el := none
        rp := none } chain_id nonce to_ value input
  | .tron _ block_number block_hash transfer fee_limit =>
    tron_transaction (tron_fee block_number block_hash fee_limit) transfer

/-- The clock of the meaning; Ethereum has none. -/
def Meaning.options : Meaning → CompileOptions
  | .eip1559 .. => ⟨none⟩
  | .legacy .. => ⟨none⟩
  | .tron clock .. => .with_now (UInt64.ofNat clock)

theorem isDecimal_repr {n : ℕ} (h : n < 2 ^ 256) : IsDecimal n.repr :=
  ⟨n, lt_trans h (by norm_num), rfl⟩

theorem optDecimal_repr {n : ℕ} (h : n < 2 ^ 256) : OptDecimal (some n.repr) := by
  rintro _ ⟨⟩
  exact isDecimal_repr h

theorem optDecimal_none : OptDecimal none := fun _ h => by simp at h

/-! ### Ethereum -/

section Ethereum

variable {cr : Crates} {fee : FeeParams} {chain_id nonce gas_limit value : ℕ}
  {to_ input : List UInt8}

theorem spellsEvm_address {bs : List UInt8} (h : bs.length = 20) : SpellsEvm (evm_address bs) bs :=
  ⟨h, _, bytes_append .., Hex.decode_encode bs⟩

theorem read_evm_address (haddr : AddressLaws cr) {bs : List UInt8} (h : bs.length = 20) :
    cr.address_from_str (evm_address bs) = some ⟨bs, h⟩ :=
  haddr.from_str _ (bytes (Hex.encode bs)) ⟨bs, h⟩ (bytes_append ..) (Hex.decode_encode bs)

theorem toInt_ofNat {n : ℕ} (h : n < 2 ^ 63) : (Int64.ofNat n).toInt = n :=
  Int64.toInt_ofNat_of_lt h

/-- The calldata of a transaction spells the transfer it was written from. -/
theorem spellsTransfer_encode {recipient : List UInt8} {amount : ℕ} (h20 : recipient.length = 20) :
    SpellsTransfer (Hex.encode (transfer_calldata recipient (to_be_bytes 32 amount))) recipient
      (to_be_bytes 32 amount) :=
  ⟨h20, length_to_be_bytes .., _, .inl rfl, Hex.decode_encode _⟩

theorem transfer_calldata_ne_nil {recipient amount : List UInt8} :
    transfer_calldata recipient amount ≠ [] := by
  simp [transfer_calldata, ERC20_TRANSFER_SELECTOR_BYTES]

theorem evm_transaction_token (fee : FeeParams) (chain_id nonce : ℕ) (to_ : List UInt8) (value : ℕ)
    (hne : input ≠ []) :
    let p := evm_transaction fee chain_id nonce to_ value input
    p.data = some (Hex.encode input) ∧ p.tx_type = .TransferToken ∧
      p.token_contract = some (evm_address to_) :=
  ⟨if_neg hne, if_neg hne, if_neg hne⟩

/-- Whatever the calldata is, it spells itself. -/
theorem calldata_evm_transaction (fee : FeeParams) (chain_id nonce : ℕ) (to_ : List UInt8)
    (value : ℕ) (input : List UInt8) :
    calldata_bytes (evm_transaction fee chain_id nonce to_ value input).data = some input := by
  by_cases hne : input = []
  · subst hne
    rfl
  · rw [(evm_transaction_token fee chain_id nonce to_ value hne).1]
    exact decode_strip_0x.2 ⟨_, .inl rfl, Hex.decode_encode input⟩

theorem dataFits_evm_transaction (fee : FeeParams) (chain_id nonce : ℕ) (to_ : List UInt8)
    (value : ℕ) (h : input.length < 2 ^ 62) :
    DataFits (evm_transaction fee chain_id nonce to_ value input) := by
  intro d hd
  by_cases hne : input = []
  · simp [evm_transaction, hne] at hd
  · rw [(evm_transaction_token fee chain_id nonce to_ value hne).1, Option.some.injEq] at hd
    rw [← hd, ← length_bytes, Hex.length_of_decode (Hex.decode_encode input)]
    omega

theorem evm_transaction_valid (h : EvmRange chain_id nonce gas_limit to_ value input)
    (hnonce : nonce < 2 ^ 53) (htransfer : IsTransfer value input) (hfee : ValidFee .Ethereum fee) :
    Valid cr (evm_transaction fee chain_id nonce to_ value input) := by
  have hto := spellsEvm_address h.length_to
  have hid := toInt_ofNat h.chain_id_lt
  have hpos := h.pos
  have hnonce' : nonce < 2 ^ 256 := lt_trans hnonce (by norm_num)
  have hchain : ∃ id, some (Int64.ofNat chain_id) = some id ∧ 1 ≤ id.toInt :=
    ⟨_, rfl, by rw [hid]; omega⟩
  have hsafe : ∃ n : ℕ, some nonce.repr = some n.repr ∧ n ≤ MAX_SAFE_JS_INT :=
    ⟨nonce, rfl, by unfold MAX_SAFE_JS_INT; omega⟩
  rcases htransfer with rfl | ⟨rfl, recipient, amount, h20, hamount, rfl⟩
  · exact
      { «from» := ⟨_, spellsEvm_address (by decide)⟩
        «to» := ⟨_, hto⟩
        value_wei := isDecimal_repr h.value_lt
        data := by simp [evm_transaction]
        token_contract := by simp [evm_transaction]
        token := by simp [evm_transaction]
        nonce := optDecimal_repr hnonce'
        fee := hfee
        evm := fun _ =>
          { chain_id := hchain
            nonce := hsafe
            native := fun _ => rfl
            token := by simp [evm_transaction] } }
  · have hspells := @spellsTransfer_encode recipient amount h20
    obtain ⟨hdata, htype, htoken⟩ := evm_transaction_token fee chain_id nonce to_ 0
      (@transfer_calldata_ne_nil recipient (to_be_bytes 32 amount))
    exact
      { «from» := ⟨_, spellsEvm_address (by decide)⟩
        «to» := ⟨_, hto⟩
        value_wei := isDecimal_repr h.value_lt
        data := by
          rw [hdata, Ne, Option.some.injEq]
          exact hspells.ne_empty.1
        token_contract := by
          rw [htoken]
          rintro _ ⟨⟩
          exact ⟨_, hto⟩
        token := by
          rw [htoken]
          simp
        nonce := optDecimal_repr hnonce'
        fee := hfee
        evm := fun _ =>
          { chain_id := hchain
            nonce := hsafe
            native := by
              rw [htype]
              simp
            token := by
              intro _
              -- the token is the address of the envelope, in the same letters
              refine ⟨_, recipient, _, _, hdata, hspells, htoken, ?_, zero_repr⟩
              rw [eq_ignore_ascii_case, beq_iff_eq]
              rfl } }

/-- The common fields are read back, and only the fees are left to read. -/
theorem read_evm_transaction (haddr : AddressLaws cr) (hu256 : U256Laws cr)
    (h : EvmRange chain_id nonce gas_limit to_ value input)
    (hgas : fee.gas_limit = some gas_limit.repr) :
    ∃ common, (∀ t, read_meaning cr (evm_transaction fee chain_id nonce to_ value input) t
        = ((evm_transaction fee chain_id nonce to_ value input).evm_text).envelope common) ∧
      common.chain_id.toNat = chain_id ∧ common.nonce.toNat = nonce ∧
      common.gas_limit.toNat = gas_limit ∧ common.«to».val = to_ ∧ common.value.toNat = value ∧
      common.input_bytes = input := by
  have hid := toInt_ofNat h.chain_id_lt
  have hpos := h.pos
  obtain ⟨u, hu, hval⟩ := @read_chain_id_of_pos (Int64.ofNat chain_id) (by rw [hid]; omega)
  have hinput := calldata_evm_transaction fee chain_id nonce to_ value input
  have hcommon : ((evm_transaction fee chain_id nonce to_ value input).evm_text).common cr
      = some ⟨u, ⟨to_, h.length_to⟩, BitVec.ofNat 256 value, UInt64.ofNat nonce,
        UInt64.ofNat gas_limit, input⟩ := by
    refine EvmText.common_eq_some.2 ⟨hu, ?_, ?_, ?_, ?_, hinput⟩
    · exact read_evm_address haddr h.length_to
    · exact (hu256.decimal value).trans (if_pos h.value_lt)
    · exact (u64_from_str_repr nonce).trans (if_pos h.nonce_lt)
    · show fee.gas_limit.bind u64_from_str = _
      rw [hgas, Option.bind_some, u64_from_str_repr, if_pos h.gas_limit_lt]
  refine ⟨⟨u, ⟨to_, h.length_to⟩, BitVec.ofNat 256 value, UInt64.ofNat nonce,
    UInt64.ofNat gas_limit, input⟩, fun t => ?_, ?_, toNat_ofNat_u64 h.nonce_lt,
    toNat_ofNat_u64 h.gas_limit_lt, rfl, ?_, rfl⟩
  · show ((evm_transaction fee chain_id nonce to_ value input).evm_text).read cr = _
    rw [EvmText.read, hcommon, Option.bind_eq_bind, Option.bind_some]
  · rw [hid] at hval
    exact_mod_cast hval
  · rw [BitVec.toNat_ofNat, Nat.mod_eq_of_lt h.value_lt]

theorem u128_read {n : ℕ} (h : n < 2 ^ 128) :
    (some n.repr).bind u128_from_str = some (BitVec.ofNat 128 n) ∧
      (BitVec.ofNat 128 n).toNat = n := by
  rw [Option.bind_some, u128_from_str_repr, if_pos h, BitVec.toNat_ofNat, Nat.mod_eq_of_lt h]
  exact ⟨rfl, rfl⟩

end Ethereum

/-! ### Tron -/

section Tron

variable {cr : Crates} {transfer : TronTransfer} {fee : FeeParams}

theorem spellsTron_encode {bs : List UInt8} (h : IsTronBytes bs) :
    SpellsTron cr (Hex.encode bs) bs :=
  ⟨h, .inl ⟨_, .inl rfl, Hex.decode_encode bs⟩⟩

theorem tron_bytes_encode {bs : List UInt8} (h : IsTronBytes bs) :
    tron_bytes cr (Hex.encode bs) = some bs := tron_bytes_eq_some.2 (spellsTron_encode h)

theorem block_header_valid {block_number : ℕ} {block_hash : List UInt8}
    (hnumber : block_number < 2 ^ 16) (hhash : block_hash.length = 8) :
    ValidHeader (block_header block_number block_hash) where
  h := ⟨_, by simp [hhash], Hex.decode_encode _⟩
  n := by
    show 0 < UInt64.ofNat (2 ^ 16 + block_number)
    rw [UInt64.lt_iff_toNat_lt, toNat_ofNat_u64 (by omega)]
    exact Nat.add_pos_left (by norm_num) _
  t := show (0 : UInt64) < 1 by decide
  p := by simp [block_header]
  r := by simp [block_header]
  w := by simp [block_header]

theorem read_block_header {block_number : ℕ} {block_hash : List UInt8}
    (hnumber : block_number < 2 ^ 16) (hhash : block_hash.length = 8) :
    read_block_ref (block_header block_number block_hash) = some (block_number, block_hash) := by
  have hdec := Hex.decode_encode (List.replicate 8 0 ++ block_hash ++ List.replicate 16 0)
  have hlen : len (block_header block_number block_hash).h = 64 := by
    rw [← length_bytes, block_header, Hex.length_of_decode hdec, List.length_append,
      List.length_append, List.length_replicate, List.length_replicate, hhash]
  unfold read_block_ref
  rw [if_pos hlen, block_header, hdec, Option.map_some, Option.some.injEq, Prod.mk.injEq]
  refine ⟨?_, ?_⟩
  · rw [toNat_ofNat_u64 (by omega)]
    omega
  · rw [List.append_assoc, List.drop_left' (by simp), List.take_left' hhash]

theorem tron_fee_valid {block_number fee_limit : ℕ} {block_hash : List UInt8}
    (hnumber : block_number < 2 ^ 16) (hhash : block_hash.length = 8)
    (hlimit : fee_limit < 2 ^ 64) :
    ValidFee .Tron (tron_fee block_number block_hash fee_limit) where
  mode := iff_of_true rfl rfl
  required := by simp [RequiredFields, tron_fee]
  gas_limit := optDecimal_none
  base_fee_per_gas := optDecimal_none
  max_priority_fee_per_gas := optDecimal_none
  max_fee_per_gas := optDecimal_none
  gas_price := optDecimal_none
  el := optDecimal_repr (lt_trans hlimit (by norm_num))
  rp := by
    rintro _ ⟨⟩
    exact block_header_valid hnumber hhash

theorem tron_transaction_valid (h : transfer.Wf) (hfee : ValidFee .Tron fee) :
    Valid cr (tron_transaction fee transfer) := by
  cases transfer with
  | native from_ to_ amount =>
    obtain ⟨hfrom, hto, hamount⟩ := h
    exact
      { «from» := ⟨_, spellsTron_encode hfrom⟩
        «to» := ⟨_, spellsTron_encode hto⟩
        value_wei := isDecimal_repr (lt_trans hamount (by norm_num))
        data := by simp [tron_transaction]
        token_contract := by simp [tron_transaction]
        token := by simp [tron_transaction]
        nonce := optDecimal_none
        fee := hfee
        evm := by simp [tron_transaction] }
  | token from_ to_ token_bytes amount =>
    obtain ⟨hfrom, hto, htoken, hamount⟩ := h
    exact
      { «from» := ⟨_, spellsTron_encode hfrom⟩
        «to» := ⟨_, spellsTron_encode hto⟩
        value_wei := isDecimal_repr hamount
        data := by simp [tron_transaction]
        token_contract := by
          rintro _ ⟨⟩
          exact ⟨_, spellsTron_encode htoken⟩
        token := by simp [tron_transaction]
        nonce := optDecimal_none
        fee := hfee
        evm := by simp [tron_transaction] }

theorem read_tron_transfer (hu256 : U256Laws cr) (h : transfer.Wf) :
    let p := tron_transaction fee transfer
    p.chain = .Tron ∧ p.fee = fee ∧
      read_transfer cr p.tx_type p.«from» p.«to» p.token_contract p.value_wei = some transfer := by
  cases transfer with
  | native from_ to_ amount =>
    obtain ⟨hfrom, hto, hamount⟩ := h
    refine ⟨rfl, rfl, ?_⟩
    simp only [tron_transaction, read_transfer, tron_bytes_encode hfrom,
      tron_bytes_encode hto, u64_from_str_repr, if_pos hamount, Option.bind_eq_bind,
      Option.bind_some, toNat_ofNat_u64 hamount]
  | token from_ to_ token_bytes amount =>
    obtain ⟨hfrom, hto, htoken, hamount⟩ := h
    refine ⟨rfl, rfl, ?_⟩
    simp only [tron_transaction, read_transfer, tron_bytes_encode hfrom,
      tron_bytes_encode hto, tron_bytes_encode htoken, hu256.decimal, if_pos hamount,
      Option.bind_eq_bind, Option.bind_some, BitVec.toNat_ofNat, Nat.mod_eq_of_lt hamount]

end Tron

/-! ## The language of the compiler -/

section Language

variable {cr : Crates} {keccak256 : List UInt8 → B256} {m : Meaning}

theorem transaction_valid (h : m.Signable) : Valid cr m.transaction := by
  cases m with
  | eip1559 chain_id nonce gas_limit max_fee max_priority_fee to_ value input =>
    obtain ⟨⟨he, hmax, hpriority⟩, hnonce, htransfer⟩ := h
    exact evm_transaction_valid he hnonce htransfer
      { mode := by simp [FeeMode.Of]
        required := by simp [RequiredFields]
        gas_limit := optDecimal_repr (lt_trans he.gas_limit_lt (by norm_num))
        base_fee_per_gas := optDecimal_none
        max_priority_fee_per_gas := optDecimal_repr (lt_trans hpriority (by norm_num))
        max_fee_per_gas := optDecimal_repr (lt_trans hmax (by norm_num))
        gas_price := optDecimal_none
        el := optDecimal_none
        rp := by simp }
  | legacy chain_id nonce gas_limit gas_price to_ value input =>
    obtain ⟨⟨he, hprice⟩, hnonce, htransfer⟩ := h
    exact evm_transaction_valid he hnonce htransfer
      { mode := by simp [FeeMode.Of]
        required := by simp [RequiredFields, effective_gas_price]
        gas_limit := optDecimal_repr (lt_trans he.gas_limit_lt (by norm_num))
        base_fee_per_gas := optDecimal_none
        max_priority_fee_per_gas := optDecimal_none
        max_fee_per_gas := optDecimal_none
        gas_price := optDecimal_repr (lt_trans hprice (by norm_num))
        el := optDecimal_none
        rp := by simp }
  | tron clock block_number block_hash transfer fee_limit =>
    obtain ⟨⟨-, hnumber, hhash, htransfer, hlimit⟩, -⟩ := h
    exact tron_transaction_valid htransfer (tron_fee_valid hnumber hhash hlimit)

theorem transaction_read (haddr : AddressLaws cr) (hu256 : U256Laws cr)
    (h : m.InRange) : read_meaning cr m.transaction (clock_of cr m.options) = some m := by
  cases m with
  | eip1559 chain_id nonce gas_limit max_fee max_priority_fee to_ value input =>
    obtain ⟨he, hmax, hpriority⟩ := h
    obtain ⟨hmax', hmaxv⟩ := u128_read hmax
    obtain ⟨hpriority', hpriorityv⟩ := u128_read hpriority
    obtain ⟨common, hread, h1, h2, h3, h4, h5, h6⟩ := read_evm_transaction haddr hu256 he
      (show (Meaning.transaction (.eip1559 chain_id nonce gas_limit max_fee max_priority_fee to_
        value input)).fee.gas_limit = _ from rfl)
    refine (hread _).trans ?_
    show ((some max_fee.repr).bind u128_from_str).bind (fun max_fee' =>
      ((some max_priority_fee.repr).bind u128_from_str).bind fun max_priority_fee' => _) = _
    simp only [hmax', hpriority', Option.bind_some, hmaxv, hpriorityv, h1, h2, h3, h4, h5, h6]
  | legacy chain_id nonce gas_limit gas_price to_ value input =>
    obtain ⟨he, hprice⟩ := h
    obtain ⟨hprice', hpricev⟩ := u128_read hprice
    obtain ⟨common, hread, h1, h2, h3, h4, h5, h6⟩ := read_evm_transaction haddr hu256 he
      (show (Meaning.transaction (.legacy chain_id nonce gas_limit gas_price to_ value
        input)).fee.gas_limit = _ from rfl)
    refine (hread _).trans ?_
    show ((some gas_price.repr).bind u128_from_str).bind (fun gas_price' => _) = _
    simp only [hprice', Option.bind_some, hpricev, h1, h2, h3, h4, h5, h6]
  | tron clock block_number block_hash transfer fee_limit =>
    obtain ⟨htime, hnumber, hhash, htransfer, hlimit⟩ := h
    have hclock : (UInt64.ofNat clock).toNat = clock := toNat_ofNat_u64 (by omega)
    obtain ⟨hc, hfee, hread⟩ := @read_tron_transfer cr transfer
      (tron_fee block_number block_hash fee_limit) hu256 htransfer
    refine (read_meaning_tron hc).2 ⟨_, block_number, block_hash, transfer, fee_limit,
      congrArg FeeParams.rp hfee, read_block_header hnumber hhash, hread, ?_, ?_, ?_⟩
    · refine (congrArg (fun fee => read_fee_limit fee.el) hfee).trans ?_
      show (u64_from_str fee_limit.repr).map UInt64.toNat = _
      rw [u64_from_str_repr, if_pos hlimit, Option.map_some, toNat_ofNat_u64 hlimit]
    · show (UInt64.ofNat clock).toNat + 36000000 < 2 ^ 64
      rw [hclock]
      exact htime
    · show _ = Meaning.tron (UInt64.ofNat clock).toNat _ _ _ _
      rw [hclock]

/-- A token contract is an address, and no address is blank. -/
theorem token_ne_empty (hhex : HexLaws cr) {p : PreparedTransaction} (hv : Valid cr p) :
    p.token_contract ≠ some "" := by
  intro h
  have hblank := (hv.token_contract "" h).not_blank hhex
  rw [is_blank_empty] at hblank
  exact absurd hblank (by decide)

/-- A valid transaction is accepted in its serialised form. -/
theorem accepted_of_valid (hhex : HexLaws cr) {p : PreparedTransaction} (hv : Valid cr p) :
    validate cr p.to_value = .ok p :=
  (validate_eq_ok hhex).2 ⟨⟨_, rfl, transaction_spells hv.data (token_ne_empty hhex hv)⟩, hv⟩

theorem dataFits_transaction (h : m.InRange) : DataFits m.transaction := by
  cases m with
  | eip1559 =>
    obtain ⟨he, -⟩ := h
    exact dataFits_evm_transaction _ _ _ _ _ he.length_input_lt
  | legacy =>
    obtain ⟨he, -⟩ := h
    exact dataFits_evm_transaction _ _ _ _ _ he.length_input_lt
  | tron _ _ _ transfer _ =>
    intro d hd
    cases transfer <;> simp [Meaning.transaction, tron_transaction] at hd

/-- The transaction of a meaning is compiled to that meaning. -/
theorem transaction_compiles (hhex : HexLaws cr) (haddr : AddressLaws cr) (hu256 : U256Laws cr)
    (hsign : SigningLaws cr) (hdigest : DigestLaws cr keccak256) (h : m.InRange) :
    compile cr m.transaction m.options
      = .ok (m.result cr keccak256 m.transaction.tx_type) := by
  rw [← toOption_eq_some, compile_toOption hhex hsign hdigest,
    transaction_read haddr hu256 h, Option.map_some]

/-- What is signed of an accepted payload is signable. -/
theorem signable_of_signed (hhex : HexLaws cr) (hu256 : U256Laws cr) (hsign : SigningLaws cr)
    (hdigest : DigestLaws cr keccak256) {v : Json.Value} {p : PreparedTransaction}
    {options : CompileOptions} {res : CompilationResult} (hvalid : validate cr v = .ok p)
    (hres : compile cr p options = .ok res) :
    ∃ m : Meaning, m.Signable ∧ res = m.result cr keccak256 p.tx_type := by
  obtain ⟨-, hv⟩ := (validate_eq_ok hhex).1 hvalid
  rw [← toOption_eq_some, compile_toOption hhex hsign hdigest, Option.map_eq_some_iff] at hres
  obtain ⟨m, hread, rfl⟩ := hres
  exact ⟨m, ⟨inRange_of_read (dataFits_of_valid hv) hread,
    transfers_of_read hhex hu256 hv hread⟩, rfl⟩

/-- **What can be compiled.** Every artefact decodes to a meaning in range, whatever transaction it
was compiled from, and every meaning in range is decoded from the artefact of some transaction. -/
theorem compilable_exactly (hhex : HexLaws cr) (haddr : AddressLaws cr) (hu256 : U256Laws cr)
    (hsign : SigningLaws cr) (hdigest : DigestLaws cr keccak256) (m : Meaning) :
    (∃ p options res, DataFits p ∧ compile cr p options = .ok res ∧
      artefact_meaning res.unsigned_tx = some m) ↔ m.InRange := by
  constructor
  · rintro ⟨p, options, res, hp, hres, hm⟩
    obtain ⟨m', hread, hm', -⟩ := compiled_meaning hhex hsign hdigest hp hres
    obtain rfl := Option.some.inj (hm.symm.trans hm')
    exact inRange_of_read (fun _ => hp) hread
  · intro h
    have hres := transaction_compiles hhex haddr hu256 hsign hdigest h
    exact ⟨_, _, _, dataFits_transaction h, hres, artefact_meaning_result hhex h.fits _⟩

/-- **What can be signed.** Every artefact of a payload that was accepted decodes to a signable
meaning, and every signable meaning is decoded from the artefact of some accepted payload. -/
theorem signable_exactly (hhex : HexLaws cr) (haddr : AddressLaws cr) (hu256 : U256Laws cr)
    (hsign : SigningLaws cr) (hdigest : DigestLaws cr keccak256) (m : Meaning) :
    (∃ v p options res, validate cr v = .ok p ∧ compile cr p options = .ok res ∧
      artefact_meaning res.unsigned_tx = some m) ↔ m.Signable := by
  constructor
  · rintro ⟨v, p, options, res, hvalid, hres, hm⟩
    obtain ⟨m', h, rfl⟩ := signable_of_signed hhex hu256 hsign hdigest hvalid hres
    rw [artefact_meaning_result hhex h.1.fits, Option.some.injEq] at hm
    exact hm ▸ h
  · intro h
    have hres := transaction_compiles hhex haddr hu256 hsign hdigest h.1
    exact ⟨_, _, _, _, accepted_of_valid hhex (transaction_valid h), hres,
      artefact_meaning_result hhex h.1.fits _⟩

/-- A payment, which may come along with calldata. -/
def payment (input : List UInt8) : Meaning :=
  .legacy 1 0 21000 1000 (List.replicate 20 7) 5 input

theorem payment_compilable :
    ∃ p options res, DataFits p ∧ compile reference p options = .ok res ∧
      artefact_meaning res.unsigned_tx = some (payment [0xa9]) :=
  (compilable_exactly reference_hex reference_address reference_u256 reference_signing
    reference_digest (payment [0xa9])).2
    ⟨⟨by norm_num, by norm_num, by norm_num, by norm_num, rfl, by norm_num, by norm_num⟩,
      by norm_num⟩

/-- The validator lets the payment through, and not along with the calldata. -/
theorem payment_signable :
    (∃ v p options res, validate reference v = .ok p ∧ compile reference p options = .ok res ∧
      artefact_meaning res.unsigned_tx = some (payment [])) ∧
      ¬ ∃ v p options res, validate reference v = .ok p ∧ compile reference p options = .ok res ∧
        artefact_meaning res.unsigned_tx = some (payment [0xa9]) := by
  constructor
  · refine (signable_exactly reference_hex reference_address reference_u256 reference_signing
      reference_digest (payment [])).2 ⟨⟨⟨?_, ?_, ?_, ?_, rfl, ?_, ?_⟩, ?_⟩, ?_, .inl rfl⟩ <;>
      norm_num
  · intro h
    obtain ⟨-, -, hcall | ⟨hzero, -⟩⟩ := (signable_exactly reference_hex reference_address
      reference_u256 reference_signing reference_digest (payment [0xa9])).1 h
    · simp at hcall
    · simp at hzero

end Language

end TxCompiler
