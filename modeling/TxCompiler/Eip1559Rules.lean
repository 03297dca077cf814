/-
**The static rules of an EIP-1559 envelope**, which can be checked without looking at any state.

`HandsOver cr p tx` is the struct the compiler hands to the encoder, `StaticallyValid` what is
asked of it: a chain id of `1` to `2 ^ 63 - 1`, a nonce a JavaScript number can hold, a priority
fee within the fee cap, and no calldata unless the intent is a token transfer. Each is a fact
about another function of the source. The chain id is an `i64` that `validate` has found
positive, the nonce is bounded by `validate` on its decimal, and the calldata of a native
transfer was refused there. The two fee caps are parsed by themselves and nothing compares them:
`statically_valid_iff` says that this is the one rule an accepted payload can break.
-/
import TxCompiler.EvmSigned

set_option autoImplicit false

namespace TxCompiler

open Rust Json

/-! ## The struct -/

/-- The struct `encode_eip1559` hands to `alloy`. -/
def HandsOver (cr : Crates) (p : PreparedTransaction) (tx : TxEip1559) : Prop :=
  ∃ common, derive_common cr p = .ok common ∧ build_eip1559 p common = .ok tx

/-- The static rules, for a transaction of the given intent. -/
structure StaticallyValid (tx_type : TxType) (tx : TxEip1559) : Prop where
  chain_id : 1 ≤ tx.chain_id.toNat ∧ tx.chain_id.toNat < 2 ^ 63
  nonce : tx.nonce.toNat ≤ 2 ^ 53 - 1
  fees : tx.max_priority_fee_per_gas.toNat ≤ tx.max_fee_per_gas.toNat
  input : tx_type ≠ .TransferToken → tx.input = []

section Envelope

variable {cr : Crates} {p : PreparedTransaction} {tx : TxEip1559}

/-- The pre-image is the encoding of that struct. -/
theorem handsOver_of_compile (hc : p.chain = .Ethereum) (hmode : p.fee.mode = .Eip1559)
    {options : CompileOptions} {res : CompilationResult} (hres : compile cr p options = .ok res) :
    ∃ tx, HandsOver cr p tx ∧
      res.unsigned_tx = "0x" ++ cr.hex_encode (cr.eip1559_encode_for_signing tx) := by
  rw [compile_of_ethereum hc] at hres
  unfold compile_evm at hres
  obtain ⟨common, hcommon, hres⟩ := bind_eq_ok.1 hres
  rw [encode_envelope, hmode] at hres
  obtain ⟨envelope, henvelope, hres⟩ := bind_eq_ok.1 hres
  obtain ⟨tx, htx, hencoded⟩ := bind_eq_ok.1 henvelope
  refine ⟨tx, ⟨common, hcommon, htx⟩, ?_⟩
  rw [← Except.ok.inj hres, ← Except.ok.inj hencoded]

theorem HandsOver.unique {tx' : TxEip1559} (h : HandsOver cr p tx) (h' : HandsOver cr p tx') :
    tx = tx' := by
  obtain ⟨common, hcommon, htx⟩ := h
  obtain ⟨common', hcommon', htx'⟩ := h'
  rw [hcommon] at hcommon'
  rw [← Except.ok.inj hcommon', htx] at htx'
  exact Except.ok.inj htx'

/-- The numbers of the struct are those the fields of the transaction spell. -/
theorem HandsOver.fields (hhex : HexLaws cr) (haddr : AddressLaws cr) (hu256 : U256Laws cr)
    (hv : Valid cr p) (hc : p.chain = .Ethereum) (hmode : p.fee.mode = .Eip1559)
    (h : HandsOver cr p tx) :
    tx.chain_id.toNat = chain_id_value p ∧ tx.nonce.toNat = opt_value p.nonce ∧
      tx.max_fee_per_gas.toNat = opt_value p.fee.max_fee_per_gas ∧
      tx.max_priority_fee_per_gas.toNat = opt_value p.fee.max_priority_fee_per_gas ∧
      SpellsInput p tx.input := by
  have he := hv.evm hc
  obtain ⟨common, hcommon, htx⟩ := h
  obtain ⟨to_, input, -, hinput, heq⟩ := derive_common_eq hhex haddr hu256 hv hc
  rw [heq] at hcommon
  obtain ⟨-, -, hcommon⟩ := bind_eq_ok.1 hcommon
  rw [← Except.ok.inj hcommon, build_eip1559_eq hv hmode] at htx
  obtain ⟨_, hchecks, htx⟩ := bind_eq_ok.1 htx
  -- the two caps passed their range check, so neither is cut to its width
  obtain ⟨hmax, hpriority⟩ := eip1559_below (reject_first_eq_ok.1 hchecks)
  obtain ⟨-, hid, -⟩ := chain_id_value_of_valid he
  obtain ⟨-, hnonce⟩ := nonce_value_of_valid he
  rw [← Except.ok.inj htx]
  refine ⟨toNat_ofNat_u64 (by omega), toNat_ofNat_u64 hnonce, ?_, ?_, hinput⟩
  · exact (BitVec.toNat_ofNat _ _).trans (Nat.mod_eq_of_lt hmax)
  · exact (BitVec.toNat_ofNat _ _).trans (Nat.mod_eq_of_lt hpriority)

/-- Three of the rules hold of every valid transaction; the fourth is the order of the caps. -/
theorem HandsOver.valid_iff_caps (hhex : HexLaws cr) (haddr : AddressLaws cr)
    (hu256 : U256Laws cr) (hv : Valid cr p) (hc : p.chain = .Ethereum)
    (hmode : p.fee.mode = .Eip1559) (h : HandsOver cr p tx) :
    StaticallyValid p.tx_type tx ↔
      opt_value p.fee.max_priority_fee_per_gas ≤ opt_value p.fee.max_fee_per_gas := by
  have he := hv.evm hc
  obtain ⟨hchain, hnonce, hmax, hpriority, hinput⟩ := h.fields hhex haddr hu256 hv hc hmode
  constructor
  · intro hvalid
    rw [← hmax, ← hpriority]
    exact hvalid.fees
  · intro hle
    refine ⟨?_, ?_, ?_, ?_⟩
    · obtain ⟨-, hlt, hne⟩ := chain_id_value_of_valid he
      rw [hchain]
      omega
    · obtain ⟨n, hn, hbound⟩ := he.nonce
      rw [hnonce, hn, opt_value_some, decimal_value_repr]
      exact hbound
    · rw [hmax, hpriority]
      exact hle
    · intro htx
      unfold SpellsInput at hinput
      cases htype : p.tx_type with
      | TransferNative =>
        rw [htype] at hinput
        exact hinput
      | TransferToken => exact absurd htype htx

/-- **The exact condition.** One struct is handed over for an accepted payload, and it obeys the
static rules when its priority fee is within its fee cap, and only then. -/
theorem statically_valid_iff (hhex : HexLaws cr) (haddr : AddressLaws cr) (hu256 : U256Laws cr)
    {v : Value} (h : validate cr v = .ok p) (hmode : p.fee.mode = .Eip1559)
    {options : CompileOptions} {res : CompilationResult} (hres : compile cr p options = .ok res) :
    ∃ tx, (∀ tx', HandsOver cr p tx' ↔ tx' = tx) ∧
      res.unsigned_tx = "0x" ++ cr.hex_encode (cr.eip1559_encode_for_signing tx) ∧
      (StaticallyValid p.tx_type tx ↔
        opt_value p.fee.max_priority_fee_per_gas ≤ opt_value p.fee.max_fee_per_gas) := by
  obtain ⟨-, hv⟩ := (validate_eq_ok hhex).1 h
  have hc : p.chain = .Ethereum := by
    have hof := hv.fee.mode
    rw [FeeMode.Of, hmode] at hof
    cases hchain : p.chain with
    | Ethereum => rfl
    | Tron => simp [hchain] at hof
  obtain ⟨tx, htx, hencoded⟩ := handsOver_of_compile hc hmode hres
  refine ⟨tx, fun tx' => ⟨fun h' => h'.unique htx, ?_⟩, hencoded,
    htx.valid_iff_caps hhex haddr hu256 hv hc hmode⟩
  rintro rfl
  exact htx

end Envelope

/-- A token transfer of the samples, with a priority fee below its cap. -/
theorem evm_token_statically_valid : ∃ res tx,
    compile reference (evm_token sample_calldata) (.with_now sample_now) = .ok res ∧
      HandsOver reference (evm_token sample_calldata) tx ∧
      StaticallyValid .TransferToken tx := by
  obtain ⟨res, hres⟩ := reference_compiles (t := sample_now) validate_evm_token (by decide)
    (by decide)
  obtain ⟨tx, htx, -, hiff⟩ := statically_valid_iff reference_hex reference_address
    reference_u256 validate_evm_token rfl hres
  exact ⟨res, tx, hres, (htx tx).2 rfl, hiff.2 (by decide)⟩

/-- A priority fee of two under a cap of one is accepted, compiled and signed. -/
theorem evm_capped_not_statically_valid : ∃ p res tx,
    validate reference (evm_capped_payload "1" "2") = .ok p ∧ p.fee.mode = .Eip1559 ∧
      compile reference p (.with_now sample_now) = .ok res ∧ HandsOver reference p tx ∧
      ¬ StaticallyValid p.tx_type tx := by
  have hvalid : validate reference (evm_capped_payload "1" "2") = .ok (evm_capped "1" "2") :=
    eq_ok_of_toOption (by decide)
  obtain ⟨-, hv⟩ := (validate_eq_ok reference_hex).1 hvalid
  obtain ⟨res, hres⟩ := reference_compiles (t := sample_now) hvalid (by decide) (by decide)
  obtain ⟨tx, htx, -⟩ := handsOver_of_compile rfl rfl hres
  refine ⟨_, res, tx, hvalid, rfl, hres, htx, ?_⟩
  rw [htx.valid_iff_caps reference_hex reference_address reference_u256 hv rfl rfl]
  decide

end TxCompiler
