/-
**What is reviewed is what is signed, on Ethereum.**

The validator, the review and the compiler each parse the same strings with their own code.
`compile_eip1559_eq` and `compile_legacy_eq` write out the struct the compiler hands to the
encoder; here its pre-image is decoded again with a strict RLP reader, and every item of it
is compared with the number, the address or the calldata the review shows. The comparison
goes through the value a string spells: a decimal is its number (`IsDecimal.eq_repr`), an
address its twenty bytes, and `to` and the token contract spell the same ones because they
differ in letter case at most.
-/
import TxCompiler.TronSigned
import TxCompiler.CostEstimate

set_option autoImplicit false

namespace TxCompiler

open Rust Json

/-! ## The pre-images -/

section Preimages

theorem length_input_le {p : PreparedTransaction} {input : List UInt8} (h : SpellsInput p input) :
    input.length ≤ 68 := by
  unfold SpellsInput at h
  cases htx : p.tx_type with
  | TransferNative =>
    rw [htx] at h
    rw [h]
    decide
  | TransferToken =>
    rw [htx] at h
    obtain ⟨data, recipient, amount, -, ⟨h20, h32, -⟩, rfl⟩ := h
    exact (length_transfer_calldata h20 h32).le

theorem length_uint_le {n : ℕ} (h : n < 2 ^ 256) : (Rlp.encode (Rlp.uint n)).length ≤ 100 := by
  have := @Rlp.length_encode_uint_le n 32 (by decide) (lt_of_lt_of_eq h (by norm_num))
  omega

theorem length_text_le {bs : List UInt8} (h : bs.length ≤ 68) :
    (Rlp.encode (.bytes bs)).length ≤ 100 := by
  have := @Rlp.length_encode_bytes_le bs (by omega)
  omega

/-- A list of items of which none is longer than a word. -/
theorem length_items_lt {items : List Rlp.Item} (h : ∀ x ∈ items, (Rlp.encode x).length ≤ 100)
    (hcount : items.length ≤ 9) : (Rlp.encode (.list items)).length < 2 ^ 64 :=
  lt_of_le_of_lt (Rlp.length_encode_list_le h hcount (by decide)) (by decide)

variable {chain_id nonce gas_limit max_fee max_priority_fee gas_price value : ℕ}
  {to_ input : List UInt8}

theorem length_eip1559_lt
    (h : ∀ n ∈ [chain_id, nonce, gas_limit, max_fee, max_priority_fee, value], n < 2 ^ 256)
    (hto : to_.length ≤ 68) (hinput : input.length ≤ 68) :
    (Rlp.encode (.list [Rlp.uint chain_id, Rlp.uint nonce, Rlp.uint max_priority_fee,
      Rlp.uint max_fee, Rlp.uint gas_limit, .bytes to_, Rlp.uint value, .bytes input,
      .list []])).length < 2 ^ 64 := by
  simp only [List.forall_mem_cons, List.not_mem_nil, false_imp_iff, implies_true, and_true] at h
  obtain ⟨h1, h2, h3, h4, h5, h6⟩ := h
  -- the access list is always empty
  have hempty : (Rlp.encode (.list [])).length ≤ 100 := by decide
  apply length_items_lt _ le_rfl
  simp only [List.forall_mem_cons, List.not_mem_nil, false_imp_iff, implies_true, and_true]
  exact ⟨length_uint_le h1, length_uint_le h2, length_uint_le h5, length_uint_le h4,
    length_uint_le h3, length_text_le hto, length_uint_le h6, length_text_le hinput, hempty⟩

theorem length_legacy_lt
    (h : ∀ n ∈ [chain_id, nonce, gas_limit, gas_price, value], n < 2 ^ 256)
    (hto : to_.length ≤ 68) (hinput : input.length ≤ 68) :
    (Rlp.encode (.list [Rlp.uint nonce, Rlp.uint gas_price, Rlp.uint gas_limit, .bytes to_,
      Rlp.uint value, .bytes input, Rlp.uint chain_id, Rlp.uint 0, Rlp.uint 0])).length
        < 2 ^ 64 := by
  simp only [List.forall_mem_cons, List.not_mem_nil, false_imp_iff, implies_true, and_true] at h
  obtain ⟨h1, h2, h3, h4, h5⟩ := h
  -- the two empty slots EIP-155 puts where the signature goes
  have h0 : (Rlp.encode (Rlp.uint 0)).length ≤ 100 := length_uint_le (by decide)
  apply length_items_lt _ le_rfl
  simp only [List.forall_mem_cons, List.not_mem_nil, false_imp_iff, implies_true, and_true]
  exact ⟨length_uint_le h2, length_uint_le h4, length_uint_le h3, length_text_le hto,
    length_uint_le h5, length_text_le hinput, length_uint_le h1, h0, h0⟩

end Preimages

/-! ## The items as numbers -/

section Values

variable {cr : Crates} {p : PreparedTransaction} {to_ : Address} {input : List UInt8}

theorem chain_id_value_of_valid (he : ValidEvm p) :
    p.chain_id.map Int64.toInt = some (chain_id_value p : ℤ) ∧ chain_id_value p < 2 ^ 63 ∧
      chain_id_value p ≠ 0 := by
  obtain ⟨id, hid, hpos⟩ := he.chain_id
  have hlt := id.toInt_lt
  rw [chain_id_value, hid, Option.map_some, Option.elim_some, Option.some.injEq]
  omega

theorem nonce_value_of_valid (he : ValidEvm p) :
    p.nonce = some (opt_value p.nonce).repr ∧ opt_value p.nonce < 2 ^ 64 := by
  obtain ⟨n, hn, hle⟩ := he.nonce
  have h53 : MAX_SAFE_JS_INT < 2 ^ 64 := by decide
  rw [hn, opt_value_some, decimal_value_repr]
  exact ⟨rfl, by omega⟩

theorem common_below (h : ∀ c ∈ common_checks p, c.1 = false) :
    decimal_value p.value_wei < 2 ^ 256 ∧ opt_value p.fee.gas_limit < 2 ^ 64 := by
  simpa [common_checks] using h

theorem eip1559_below (h : ∀ c ∈ eip1559_checks p, c.1 = false) :
    opt_value p.fee.max_fee_per_gas < 2 ^ 128 ∧
      opt_value p.fee.max_priority_fee_per_gas < 2 ^ 128 := by
  simpa [eip1559_checks] using h

theorem legacy_below (h : ∀ c ∈ legacy_checks p, c.1 = false) :
    opt_value (effective_gas_price p.fee) < 2 ^ 128 := by
  simpa [legacy_checks] using h

/-- The EIP-1559 list of a transaction whose amounts are in range. -/
theorem eip1559_rlp (he : ValidEvm p)
    (h : ∀ c ∈ common_checks p ++ eip1559_checks p, c.1 = false) :
    (signed_eip1559 p to_ input).rlp = .list [Rlp.uint (chain_id_value p),
      Rlp.uint (opt_value p.nonce), Rlp.uint (opt_value p.fee.max_priority_fee_per_gas),
      Rlp.uint (opt_value p.fee.max_fee_per_gas), Rlp.uint (opt_value p.fee.gas_limit),
      .bytes to_.val, Rlp.uint (decimal_value p.value_wei), .bytes input, .list []] := by
  obtain ⟨hcommon, hfees⟩ := List.forall_mem_append.1 h
  obtain ⟨hvalue, hgas⟩ := common_below hcommon
  obtain ⟨hmax, hpriority⟩ := eip1559_below hfees
  obtain ⟨-, hid, -⟩ := chain_id_value_of_valid he
  obtain ⟨-, hnonce⟩ := nonce_value_of_valid he
  simp only [TxEip1559.rlp, signed_eip1559, TxKind.rlp, AccessList.rlp, List.map_nil,
    toNat_ofNat_u64 hnonce, toNat_ofNat_u64 hgas, BitVec.toNat_ofNat, Nat.mod_eq_of_lt hvalue,
    Nat.mod_eq_of_lt hmax, Nat.mod_eq_of_lt hpriority]
  rw [toNat_ofNat_u64 (by omega)]

/-- The legacy list, with the tail EIP-155 asks for. -/
theorem legacy_rlp (he : ValidEvm p)
    (h : ∀ c ∈ common_checks p ++ legacy_checks p, c.1 = false) :
    (signed_legacy p to_ input).rlp = .list [Rlp.uint (opt_value p.nonce),
      Rlp.uint (opt_value (effective_gas_price p.fee)), Rlp.uint (opt_value p.fee.gas_limit),
      .bytes to_.val, Rlp.uint (decimal_value p.value_wei), .bytes input,
      Rlp.uint (chain_id_value p), Rlp.uint 0, Rlp.uint 0] := by
  obtain ⟨hcommon, hfees⟩ := List.forall_mem_append.1 h
  obtain ⟨hvalue, hgas⟩ := common_below hcommon
  have hprice := legacy_below hfees
  obtain ⟨-, hid, -⟩ := chain_id_value_of_valid he
  obtain ⟨-, hnonce⟩ := nonce_value_of_valid he
  simp only [TxLegacy.rlp, signed_legacy, TxKind.rlp, List.cons_append, List.nil_append,
    toNat_ofNat_u64 hnonce, toNat_ofNat_u64 hgas, BitVec.toNat_ofNat, Nat.mod_eq_of_lt hvalue,
    Nat.mod_eq_of_lt hprice]
  rw [toNat_ofNat_u64 (by omega)]

theorem length_address_le (to_ : Address) : to_.val.length ≤ 68 := by
  rw [to_.property]
  decide

/-- What is signed after a successful EIP-1559 compilation: the numbers the fields spell,
and each of them fits a word. -/
theorem eip1559_artefact (hhex : HexLaws cr) (haddr : AddressLaws cr) (hu256 : U256Laws cr)
    (hsign : SigningLaws cr) (hv : Valid cr p) (hc : p.chain = .Ethereum)
    (hm : p.fee.mode = .Eip1559) {options : CompileOptions} {res : CompilationResult}
    (hres : compile cr p options = .ok res) :
    ∃ (to_ : Address) (input : List UInt8) (hash : B256), SpellsEvm p.«to» to_.val ∧
      SpellsInput p input ∧ (∀ c ∈ common_checks p ++ eip1559_checks p, c.1 = false) ∧
      (∀ n ∈ [chain_id_value p, opt_value p.nonce, opt_value p.fee.gas_limit,
        opt_value p.fee.max_fee_per_gas, opt_value p.fee.max_priority_fee_per_gas,
        decimal_value p.value_wei], n < 2 ^ 256) ∧
      res = evm_result cr p (0x02 :: Rlp.encode (.list [Rlp.uint (chain_id_value p),
        Rlp.uint (opt_value p.nonce), Rlp.uint (opt_value p.fee.max_priority_fee_per_gas),
        Rlp.uint (opt_value p.fee.max_fee_per_gas), Rlp.uint (opt_value p.fee.gas_limit),
        .bytes to_.val, Rlp.uint (decimal_value p.value_wei), .bytes input, .list []]))
        hash EVM_TX_TYPE_EIP1559 := by
  have he := hv.evm hc
  obtain ⟨to_, input, hto, hinput, heq⟩ := compile_eip1559_eq hhex haddr hu256 hv hc hm
  rw [compile_of_ethereum hc, heq] at hres
  obtain ⟨u, hchecks, hok⟩ := bind_eq_ok.1 hres
  have hall := reject_first_eq_ok.1 hchecks
  refine ⟨to_, input, cr.eip1559_signature_hash (signed_eip1559 p to_ input), hto, hinput, hall,
    ?_, ?_⟩
  · obtain ⟨hcommon, hfees⟩ := List.forall_mem_append.1 hall
    obtain ⟨hvalue, hgas⟩ := common_below hcommon
    obtain ⟨hmax, hpriority⟩ := eip1559_below hfees
    obtain ⟨-, hid, -⟩ := chain_id_value_of_valid he
    obtain ⟨-, hnonce⟩ := nonce_value_of_valid he
    simp only [List.forall_mem_cons, List.not_mem_nil, false_imp_iff, implies_true, and_true]
    omega
  · rw [← Except.ok.inj hok, hsign.eip1559, eip1559_rlp he hall]

/-- The same for a legacy transaction. -/
theorem legacy_artefact (hhex : HexLaws cr) (haddr : AddressLaws cr) (hu256 : U256Laws cr)
    (hsign : SigningLaws cr) (hv : Valid cr p) (hc : p.chain = .Ethereum)
    (hm : p.fee.mode = .Legacy) {options : CompileOptions} {res : CompilationResult}
    (hres : compile cr p options = .ok res) :
    ∃ (to_ : Address) (input : List UInt8) (hash : B256), SpellsEvm p.«to» to_.val ∧
      SpellsInput p input ∧ (∀ c ∈ common_checks p ++ legacy_checks p, c.1 = false) ∧
      (∀ n ∈ [chain_id_value p, opt_value p.nonce, opt_value p.fee.gas_limit,
        opt_value (effective_gas_price p.fee), decimal_value p.value_wei], n < 2 ^ 256) ∧
      res = evm_result cr p (Rlp.encode (.list [Rlp.uint (opt_value p.nonce),
        Rlp.uint (opt_value (effective_gas_price p.fee)), Rlp.uint (opt_value p.fee.gas_limit),
        .bytes to_.val, Rlp.uint (decimal_value p.value_wei), .bytes input,
        Rlp.uint (chain_id_value p), Rlp.uint 0, Rlp.uint 0])) hash EVM_TX_TYPE_LEGACY := by
  have he := hv.evm hc
  obtain ⟨to_, input, hto, hinput, heq⟩ := compile_legacy_eq hhex haddr hu256 hv hc hm
  rw [compile_of_ethereum hc, heq] at hres
  obtain ⟨u, hchecks, hok⟩ := bind_eq_ok.1 hres
  have hall := reject_first_eq_ok.1 hchecks
  refine ⟨to_, input, cr.legacy_signature_hash (signed_legacy p to_ input), hto, hinput, hall,
    ?_, ?_⟩
  · obtain ⟨hcommon, hfees⟩ := List.forall_mem_append.1 hall
    obtain ⟨hvalue, hgas⟩ := common_below hcommon
    have hprice := legacy_below hfees
    obtain ⟨-, hid, -⟩ := chain_id_value_of_valid he
    obtain ⟨-, hnonce⟩ := nonce_value_of_valid he
    simp only [List.forall_mem_cons, List.not_mem_nil, false_imp_iff, implies_true, and_true]
    omega
  · rw [← Except.ok.inj hok, hsign.legacy, legacy_rlp he hall]

/-! ## The fees that are shown -/

/-- The product is exact: it cannot reach the saturation of 256 bits. -/
theorem multiply_decimal_repr (hu256 : U256Laws cr) {gas price : ℕ} (hgas : gas < 2 ^ 64)
    (hprice : price < 2 ^ 128) : multiply_decimal cr gas.repr price.repr = (gas * price).repr := by
  have hproduct : gas * price < 2 ^ 256 := calc
    gas * price < 2 ^ 64 * 2 ^ 128 := Nat.mul_lt_mul'' hgas hprice
    _ < 2 ^ 256 := by norm_num
  have hgas' : gas < 2 ^ 256 := lt_trans hgas (by norm_num)
  have hprice' : price < 2 ^ 256 := lt_trans hprice (by norm_num)
  -- the product is below the bound it would saturate at
  rw [multiply_decimal_eq hu256, if_pos ⟨hgas', hprice'⟩, Nat.min_eq_left (by omega)]

end Values

/-! ## The signed content -/

/-- The transfer in the pre-image is the one the review shows. -/
def TransfersReviewed (r : TransactionReview) (to_ : List UInt8) (value : ℕ)
    (input : List UInt8) : Prop :=
  match r.tx_type with
  | .TransferNative => SpellsEvm r.recipient to_ ∧ r.amount = value.repr ∧ input = []
  | .TransferToken => ∃ (token : String) (recipient : List UInt8) (amount : ℕ),
      r.token_contract = some token ∧ SpellsEvm token to_ ∧ value = 0 ∧
        SpellsEvm r.recipient recipient ∧ r.amount = amount.repr ∧ amount < 2 ^ 256 ∧
          input = [0xa9, 0x05, 0x9c, 0xbb] ++ (List.replicate 12 0 ++ recipient) ++
            to_be_bytes 32 amount

/-- The type byte, and an EIP-1559 list with the fees of the review. -/
def SignsEip1559 (r : TransactionReview) (raw : List UInt8) (chain_id nonce gas_limit : ℕ)
    (to_ : List UInt8) (value : ℕ) (input : List UInt8) : Prop :=
  ∃ (body : List UInt8) (max_fee priority : ℕ), raw = 0x02 :: body ∧
    Rlp.decode body = some (.list [Rlp.uint chain_id, Rlp.uint nonce, Rlp.uint priority,
      Rlp.uint max_fee, Rlp.uint gas_limit, .bytes to_, Rlp.uint value, .bytes input, .list []]) ∧
    r.fee.max_fee_per_gas = some max_fee.repr ∧
    r.fee.max_priority_fee_per_gas = some priority.repr ∧
    r.fee.estimated_max_cost = some (gas_limit * max_fee).repr

/-- No type byte, and an EIP-155 list with the gas price of the review. -/
def SignsLegacy (r : TransactionReview) (raw : List UInt8) (chain_id nonce gas_limit : ℕ)
    (to_ : List UInt8) (value : ℕ) (input : List UInt8) : Prop :=
  ∃ (head : UInt8) (rest : List UInt8) (gas_price : ℕ), raw = head :: rest ∧ 0xc0 ≤ head.toNat ∧
    Rlp.decode raw = some (.list [Rlp.uint nonce, Rlp.uint gas_price, Rlp.uint gas_limit,
      .bytes to_, Rlp.uint value, .bytes input, Rlp.uint chain_id, Rlp.uint 0, Rlp.uint 0]) ∧
    r.fee.gas_price = some gas_price.repr ∧
    r.fee.estimated_max_cost = some (gas_limit * gas_price).repr

/-- What the pre-image decodes to is what the review shows, in the envelope the metadata
name. -/
def EvmSignsReviewed (r : TransactionReview) (res : CompilationResult) : Prop :=
  ∃ (raw : List UInt8) (chain_id nonce gas_limit : ℕ) (to_ : List UInt8) (value : ℕ)
    (input : List UInt8), artefact_bytes res.unsigned_tx = some raw ∧
    r.chain_id.map Int64.toInt = some (chain_id : ℤ) ∧ r.nonce = some nonce.repr ∧
    r.fee.gas_limit = some gas_limit.repr ∧ TransfersReviewed r to_ value input ∧
    ((r.fee.mode = .Eip1559 ∧ res.metadata.evm_tx_type = some 2 ∧
        SignsEip1559 r raw chain_id nonce gas_limit to_ value input) ∨
      (r.fee.mode = .Legacy ∧ res.metadata.evm_tx_type = some 0 ∧
        SignsLegacy r raw chain_id nonce gas_limit to_ value input))

section Ethereum

variable {cr : Crates} {p : PreparedTransaction} {v : Value} {res : CompilationResult}

/-- Addresses that differ in letter case at most are one address. -/
theorem spellsEvm_of_eq_ignore_case {a b : String} {bs bs' : List UInt8} (ha : SpellsEvm a bs)
    (hb : SpellsEvm b bs') (h : eq_ignore_ascii_case a b = true) : bs = bs' := by
  obtain ⟨-, ds, hds, hdec⟩ := ha
  obtain ⟨-, ds', hds', hdec'⟩ := hb
  rw [eq_ignore_ascii_case, beq_iff_eq, hds, hds', List.map_append, List.map_append] at h
  exact (Hex.decode_eq_iff_lowercase hdec hdec').2 (List.append_cancel_left h)

/-- The review of a validated transaction, and the transfer it shows. -/
theorem review_transfers (hu256 : U256Laws cr) (hv : Valid cr p) (hc : p.chain = .Ethereum)
    {to_ input : List UInt8} (hto : SpellsEvm p.«to» to_) (hinput : SpellsInput p input) :
    ∃ recipient amount, review cr p = .ok (review_of cr p recipient amount) ∧
      TransfersReviewed (review_of cr p recipient amount) to_ (decimal_value p.value_wei)
        input := by
  cases htx : p.tx_type with
  | TransferNative =>
    refine ⟨p.«to», p.value_wei, review_envelope cr (.inl htx), ?_⟩
    rw [SpellsInput, htx] at hinput
    simp only [TransfersReviewed, review_of, htx]
    exact ⟨hto, hv.value_wei.eq_repr, hinput⟩
  | TransferToken =>
    rw [SpellsInput, htx] at hinput
    obtain ⟨data, recipient, amount, hdata, hs, rfl⟩ := hinput
    obtain ⟨-, -, -, token, -, -, htoken, hcase, hzero⟩ := (hv.evm hc).token htx
    obtain ⟨shown, hshown, hreview⟩ := review_evm_token hu256 htx hc hdata hs
    have haddress := hv.token_contract token htoken
    rw [hc] at haddress
    obtain ⟨token_bytes, htb⟩ := haddress
    have hsame := spellsEvm_of_eq_ignore_case hto htb hcase
    refine ⟨shown, (be_value amount).repr, hreview, ?_⟩
    simp only [TransfersReviewed, review_of, htx]
    refine ⟨token, recipient, be_value amount, htoken, hsame ▸ htb, ?_, hshown, rfl, hs.amount_lt,
      ?_⟩
    · rw [hzero, ← zero_repr, decimal_value_repr]
    · have hword := to_be_bytes_be_value amount
      rw [hs.2.1] at hword
      rw [hword]
      simp only [transfer_calldata, ERC20_TRANSFER_SELECTOR_BYTES, List.append_assoc]

/-- **What is reviewed is what is signed**, in both envelopes and for both intents. -/
theorem evm_signs_reviewed (hhex : HexLaws cr) (haddr : AddressLaws cr) (hu256 : U256Laws cr)
    (hsign : SigningLaws cr) (h : validate cr v = .ok p) (hc : p.chain = .Ethereum)
    {options : CompileOptions} (hres : compile cr p options = .ok res) :
    ∃ r, review cr p = .ok r ∧ EvmSignsReviewed r res := by
  obtain ⟨-, hv⟩ := (validate_eq_ok hhex).1 h
  have he := hv.evm hc
  have hof := hv.fee.mode
  obtain ⟨hid, -, -⟩ := chain_id_value_of_valid he
  obtain ⟨hnonce, -⟩ := nonce_value_of_valid he
  rw [FeeMode.Of, hc] at hof
  cases hm : p.fee.mode with
  | Tron => simp [hm] at hof
  | Eip1559 =>
    obtain ⟨to_, input, hash, hto, hinput, hall, hnumbers, rfl⟩ :=
      eip1559_artefact hhex haddr hu256 hsign hv hc hm hres
    obtain ⟨recipient, amount, hreview, htransfers⟩ := review_transfers hu256 hv hc hto hinput
    obtain ⟨hcommon, hfees⟩ := List.forall_mem_append.1 hall
    have hfee := @fee_review_eip1559 cr p hv.fee hm
    rw [multiply_decimal_repr hu256 (common_below hcommon).2 (eip1559_below hfees).1] at hfee
    have hlen := length_eip1559_lt hnumbers (length_address_le to_) (length_input_le hinput)
    refine ⟨_, hreview, _, chain_id_value p, opt_value p.nonce, opt_value p.fee.gas_limit, to_.val,
      decimal_value p.value_wei, input, artefact_bytes_encode hhex _, hid, hnonce, ?_, htransfers,
      .inl ⟨?_, rfl, _, opt_value p.fee.max_fee_per_gas,
        opt_value p.fee.max_priority_fee_per_gas, rfl, Rlp.decode_encode hlen, ?_, ?_, ?_⟩⟩
    · simp only [review_of, hfee]
    · simp only [review_of, hfee]
    · simp only [review_of, hfee]
    · simp only [review_of, hfee]
    · simp only [review_of, hfee]
  | Legacy =>
    obtain ⟨to_, input, hash, hto, hinput, hall, hnumbers, rfl⟩ :=
      legacy_artefact hhex haddr hu256 hsign hv hc hm hres
    obtain ⟨recipient, amount, hreview, htransfers⟩ := review_transfers hu256 hv hc hto hinput
    obtain ⟨hcommon, hfees⟩ := List.forall_mem_append.1 hall
    have hfee := @fee_review_legacy cr p hv.fee hm
    rw [multiply_decimal_repr hu256 (common_below hcommon).2 (legacy_below hfees)] at hfee
    have hlen := length_legacy_lt hnumbers (length_address_le to_) (length_input_le hinput)
    -- no type byte here: the pre-image starts with the header of the list
    obtain ⟨head, rest, hhead, hge⟩ := Rlp.encode_list_head hlen
    refine ⟨_, hreview, _, chain_id_value p, opt_value p.nonce, opt_value p.fee.gas_limit, to_.val,
      decimal_value p.value_wei, input, artefact_bytes_encode hhex _, hid, hnonce, ?_, htransfers,
      .inr ⟨?_, rfl, head, rest, opt_value (effective_gas_price p.fee), hhead, hge,
        Rlp.decode_encode hlen, ?_, ?_⟩⟩
    · simp only [review_of, hfee]
    · simp only [review_of, hfee]
    · simp only [review_of, hfee]
    · simp only [review_of, hfee]

theorem evm_token_signs_reviewed :
    ∃ res r, compile reference (evm_token sample_calldata) ⟨none⟩ = .ok res ∧
      review reference (evm_token sample_calldata) = .ok r ∧ EvmSignsReviewed r res := by
  obtain ⟨res, hres⟩ := reference_compiles (t := 0) validate_evm_token (by decide) (by decide)
  -- the run without options is any run
  rw [compile_of_ethereum rfl, ← compile_of_ethereum rfl ⟨none⟩] at hres
  obtain ⟨r, hr, hsigns⟩ := evm_signs_reviewed reference_hex reference_address reference_u256
    reference_signing validate_evm_token rfl hres
  exact ⟨res, r, hres, hr, hsigns⟩

end Ethereum

end TxCompiler
