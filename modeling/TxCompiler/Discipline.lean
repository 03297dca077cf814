/-
**Which fields a validated transaction has.** The types document a discipline: a token
contract on token transfers only, a chain id and a nonce on Ethereum only, calldata on
Ethereum token transfers only, and exactly one of the three subsets of the fee fields.

`validate` reads every optional member before it knows whether the member is allowed, and
keeps what it read. So the discipline holds exactly when the payload has no stray member
(`keeps_discipline_iff`), and the review shows a stray one to the human.
-/
import TxCompiler.Language
import TxCompiler.Range

set_option autoImplicit false

namespace TxCompiler

open Rust Json

/-! ## The discipline -/

/-- Only the fields of the active mode. In LEGACY mode `max_fee_per_gas` may stand in for
the gas price, and not beside it. -/
def OnlyMode (fee : FeeParams) : Prop :=
  match fee.mode with
  | .Eip1559 => fee.gas_price = none ∧ fee.el = none ∧ fee.rp = none
  | .Legacy => fee.base_fee_per_gas = none ∧ fee.max_priority_fee_per_gas = none ∧
      fee.el = none ∧ fee.rp = none ∧ (fee.gas_price = none ∨ fee.max_fee_per_gas = none)
  | .Tron => fee.gas_limit = none ∧ fee.base_fee_per_gas = none ∧
      fee.max_priority_fee_per_gas = none ∧ fee.max_fee_per_gas = none ∧ fee.gas_price = none

/-- What the comments on the fields promise: which field is there for which chain and intent. -/
structure Disciplined (p : PreparedTransaction) : Prop where
  token_contract : p.token_contract ≠ none ↔ p.tx_type = .TransferToken
  chain_id : p.chain_id ≠ none ↔ p.chain = .Ethereum
  nonce : p.nonce ≠ none ↔ p.chain = .Ethereum
  data : p.data ≠ none → p.chain = .Ethereum ∧ p.tx_type = .TransferToken
  fee : OnlyMode p.fee

/-- The review shows no token contract of a native transfer and no field of another chain. -/
structure ShowsOwnFields (r : TransactionReview) : Prop where
  token_contract : r.tx_type = .TransferNative → r.token_contract = none
  tron : r.chain = .Tron → r.chain_id = none ∧ r.nonce = none ∧ r.fee.gas_limit = none ∧
    r.fee.gas_price = none ∧ r.fee.max_fee_per_gas = none ∧
      r.fee.max_priority_fee_per_gas = none ∧ r.fee.base_fee_per_gas = none
  ethereum : r.chain = .Ethereum → r.fee.tron_fee_limit = none

/-! ## Stray members -/

/-- A member that is kept as a text. -/
def GivenText (obj : Map) (field : String) : Prop := ∃ s, obj.get field = some (.string s) ∧ s ≠ ""

/-- A member that is kept as a number. -/
def GivenNumber (obj : Map) (field : String) : Prop :=
  ∃ v id, obj.get field = some v ∧ v.as_i64 = some id

/-- The members of the other modes. -/
def foreign_fields : FeeMode → List String
  | .Eip1559 => ["gasPrice", "el", "rp"]
  | .Legacy => ["baseFeePerGas", "maxPriorityFeePerGas", "el", "rp"]
  | .Tron => ["gasLimit", "baseFeePerGas", "maxPriorityFeePerGas", "maxFeePerGas", "gasPrice"]

/-- A fee object without members of other modes. -/
structure StrayFreeFee (mode : FeeMode) (fee : Map) : Prop where
  foreign : ∀ field ∈ foreign_fields mode, Absent fee field
  legacy : mode = .Legacy → Absent fee "gasPrice" ∨ Absent fee "maxFeePerGas"

/-- A payload without members that do not belong to its chain or its intent. -/
structure StrayFree (chain : Chain) (tx_type : TxType) (obj : Map) : Prop where
  token_contract : tx_type = .TransferNative → ¬ GivenText obj "tokenContract"
  chain_id : chain = .Tron → ¬ GivenNumber obj "chainId"
  nonce : chain = .Tron → Absent obj "nonce"
  data : chain = .Tron ∨ tx_type = .TransferNative → ¬ GivenText obj "data"

/-- The payload has no member its chain, intent and fee mode do not use. -/
def NoStrayMember (v : Value) : Prop :=
  ∃ (obj fee : Map) (chain : Chain) (tx_type : TxType) (mode : FeeMode), v = .object obj ∧
    obj.get "chain" = some (.string chain.wire_name) ∧
      obj.get "txType" = some (.string tx_type.wire_name) ∧ obj.get "fee" = some (.object fee) ∧
        fee.get "mode" = some (.string mode.as_str) ∧ StrayFree chain tx_type obj ∧
          StrayFreeFee mode fee

/-! ## Member by member -/

section Members

variable {obj : Map} {field : String}

theorem text_none_iff {o : Option String} (h : optional_string obj field = o) :
    o = none ↔ ¬ GivenText obj field := by
  rw [Option.eq_none_iff_forall_ne_some]
  constructor
  · rintro hno ⟨s, hs⟩
    exact hno s ((carriesText_of_spells h s).2 hs)
  · intro hno s hs
    exact hno ⟨s, (carriesText_of_spells h s).1 hs⟩

theorem number_none_iff : optional_number obj field = none ↔ ¬ GivenNumber obj field := by
  rw [Option.eq_none_iff_forall_ne_some]
  constructor
  · rintro hno ⟨v, id, hv, hid⟩
    exact hno id (optional_number_eq_some.2 ⟨v, hv, hid⟩)
  · intro hno id hid
    obtain ⟨v, hv, hid⟩ := optional_number_eq_some.1 hid
    exact hno ⟨v, id, hv, hid⟩

/-- A field of an accepted payload is absent exactly when its member is. -/
theorem int_none_iff {o : Option String} (h : SpellsOptInt (obj.get field) o) :
    o = none ↔ Absent obj field := by
  cases o with
  | none => exact iff_of_true rfl h
  | some s =>
    -- a present field was a string or a number, and not `null`
    obtain ⟨v, hv, hs⟩ := h
    refine iff_of_false (by simp) ?_
    rcases hs with rfl | ⟨u, rfl, -⟩ <;> simp [Absent, hv]

theorem header_none_iff {o : Option TronBlockHeader} (h : SpellsOptHeader (obj.get field) o) :
    o = none ↔ Absent obj field := by
  cases o with
  | none => exact iff_of_true rfl h
  | some header =>
    obtain ⟨member, hm, -⟩ := h
    exact iff_of_false (by simp) (by simp [Absent, hm])

end Members

/-- The fee of an accepted payload keeps whatever members its object has. -/
theorem onlyMode_iff {obj : Map} {fee : FeeParams} (h : SpellsFee obj fee) :
    OnlyMode fee ↔ StrayFreeFee fee.mode obj := by
  have hiff : StrayFreeFee fee.mode obj ↔ (∀ field ∈ foreign_fields fee.mode, Absent obj field) ∧
      (fee.mode = .Legacy → Absent obj "gasPrice" ∨ Absent obj "maxFeePerGas") :=
    ⟨fun hs => ⟨hs.foreign, hs.legacy⟩, fun hs => ⟨hs.1, hs.2⟩⟩
  -- field by field, then the two sides list the same fields mode by mode
  rw [hiff]
  unfold OnlyMode
  rw [int_none_iff h.gas_limit, int_none_iff h.base_fee_per_gas,
    int_none_iff h.max_priority_fee_per_gas, int_none_iff h.max_fee_per_gas,
    int_none_iff h.gas_price, int_none_iff h.el, header_none_iff h.rp]
  cases fee.mode <;> simp [foreign_fields, and_assoc]

section Transaction

variable {cr : Crates} {obj : Map} {p : PreparedTransaction}

/-- On an accepted transaction the discipline is a statement about members: what it asks to be there
is there by the checks, and what it forbids has to be missing from the payload. -/
theorem disciplined_of_spells (hs : Spells obj p) (hv : Valid cr p) :
    Disciplined p ↔ StrayFree p.chain p.tx_type obj ∧ OnlyMode p.fee := by
  have htoken := text_none_iff hs.token_contract
  have hdata := text_none_iff hs.data
  have hnonce := int_none_iff hs.nonce
  have hid : p.chain_id = none ↔ ¬ GivenNumber obj "chainId" := by
    rw [← hs.chain_id, number_none_iff]
  -- a field the discipline forbids is absent exactly when its member is; the fields it
  -- requires are there because the transaction is valid
  constructor
  · rintro ⟨h1, h2, h3, h4, h5⟩
    refine ⟨⟨?_, ?_, ?_, ?_⟩, h5⟩
    · intro htx
      rw [← htoken]
      by_contra hne
      simp [h1.1 hne] at htx
    · intro hc
      rw [← hid]
      by_contra hne
      simp [h2.1 hne] at hc
    · intro hc
      rw [← hnonce]
      by_contra hne
      simp [h3.1 hne] at hc
    · intro hor
      rw [← hdata]
      by_contra hne
      obtain ⟨hc, htx⟩ := h4 hne
      simp [hc, htx] at hor
  · rintro ⟨⟨h1, h2, h3, h4⟩, h5⟩
    refine ⟨⟨?_, hv.token⟩, ⟨?_, ?_⟩, ⟨?_, ?_⟩, ?_, h5⟩
    · intro hne
      cases htx : p.tx_type with
      | TransferToken => rfl
      | TransferNative => exact absurd (htoken.2 (h1 htx)) hne
    · intro hne
      cases hc : p.chain with
      | Ethereum => rfl
      | Tron => exact absurd (hid.2 (h2 hc)) hne
    · intro hc
      obtain ⟨id, hid, -⟩ := (hv.evm hc).chain_id
      simp [hid]
    · intro hne
      cases hc : p.chain with
      | Ethereum => rfl
      | Tron => exact absurd (hnonce.2 (h3 hc)) hne
    · intro hc
      obtain ⟨n, hn, -⟩ := (hv.evm hc).nonce
      simp [hn]
    · intro hne
      by_contra hor
      refine hne (hdata.2 (h4 ?_))
      cases hc : p.chain <;> cases htx : p.tx_type <;> simp_all

/-- A review copies its fields, so it keeps the discipline that the transaction keeps. -/
theorem showsOwnFields (hd : Disciplined p) (hv : Valid cr p) {r : TransactionReview}
    (h : review cr p = .ok r) : ShowsOwnFields r := by
  obtain ⟨recipient, amount, rfl⟩ := review_eq_ok h
  have hmode := hv.fee.mode
  rw [FeeMode.Of] at hmode
  refine ⟨?_, ?_, ?_⟩
  · intro htx
    show p.token_contract = none
    -- the review repeats the field, so it is the transaction that has none
    by_contra hne
    have := hd.token_contract.1 hne
    simp [review_of, this] at htx
  · intro hc
    have hc : p.chain = .Tron := hc
    have hid : p.chain_id = none := by
      by_contra hne
      simp [hd.chain_id.1 hne] at hc
    have hnonce : p.nonce = none := by
      by_contra hne
      simp [hd.nonce.1 hne] at hc
    simp [review_of, build_fee_review, hmode.2 hc, hid, hnonce]
  · intro hc
    have hc : p.chain = .Ethereum := hc
    cases hm : p.fee.mode <;> simp [review_of, build_fee_review, hm]
    simp [hmode.1 hm] at hc

theorem wire_name_inj {chain chain' : Chain} (h : chain.wire_name = chain'.wire_name) :
    chain = chain' := by
  cases chain <;> cases chain' <;> simp [Chain.wire_name] at h ⊢

theorem tx_type_wire_name_inj {tx_type tx_type' : TxType}
    (h : tx_type.wire_name = tx_type'.wire_name) : tx_type = tx_type' := by
  cases tx_type <;> cases tx_type' <;> simp [TxType.wire_name] at h ⊢

theorem mode_as_str_inj {mode mode' : FeeMode} (h : mode.as_str = mode'.as_str) :
    mode = mode' := by
  cases mode <;> cases mode' <;> simp [FeeMode.as_str] at h ⊢

/-- The payload names its chain, intent and mode, so there is one reading of it. -/
theorem noStrayMember_iff {fee : Map} (hs : Spells obj p)
    (hfee : obj.get "fee" = some (.object fee)) (hsp : SpellsFee fee p.fee) :
    NoStrayMember (.object obj) ↔
      StrayFree p.chain p.tx_type obj ∧ StrayFreeFee p.fee.mode fee := by
  constructor
  · rintro ⟨obj', fee', chain, tx_type, mode, hobj, hchain, htx, hfee', hmode, h1, h2⟩
    -- the members that are named decide the chain, the intent and the mode of any reading
    obtain rfl := Value.object.inj hobj
    have hfee_eq : fee' = fee := by simpa [hfee, eq_comm] using hfee'
    subst hfee_eq
    have hchain_eq : p.chain = chain :=
      wire_name_inj (by simpa [hs.chain] using hchain)
    have htx_eq : p.tx_type = tx_type :=
      tx_type_wire_name_inj (by simpa [hs.tx_type] using htx)
    have hmode_eq : p.fee.mode = mode := mode_as_str_inj (by simpa [hsp.mode] using hmode)
    subst hchain_eq htx_eq hmode_eq
    exact ⟨h1, h2⟩
  · rintro ⟨h1, h2⟩
    exact ⟨obj, fee, p.chain, p.tx_type, p.fee.mode, rfl, hs.chain, hs.tx_type, hfee, hsp.mode,
      h1, h2⟩

/-- **When the discipline is kept.** A validated transaction and its review have the fields
of their chain, intent and fee mode and no others, exactly when the payload has no stray
member; `validate` accepts a stray one and keeps it. -/
theorem keeps_discipline_iff (hhex : HexLaws cr) {v : Value} (h : validate cr v = .ok p) :
    (Disciplined p ∧ ∀ r, review cr p = .ok r → ShowsOwnFields r) ↔ NoStrayMember v := by
  obtain ⟨⟨obj, rfl, hs⟩, hv⟩ := (validate_eq_ok hhex).1 h
  obtain ⟨fee, hfee, hsp⟩ := hs.fee
  rw [noStrayMember_iff hs hfee hsp, ← onlyMode_iff hsp, ← disciplined_of_spells hs hv]
  exact ⟨fun hd => hd.1, fun hd => ⟨hd, fun r hr => showsOwnFields hd hv hr⟩⟩

theorem tron_token_disciplined :
    Disciplined tron_token ∧ ∀ r, review reference tron_token = .ok r → ShowsOwnFields r := by
  refine (keeps_discipline_iff reference_hex validate_tron_token).2
    ⟨_, _, .Tron, .TransferToken, .Tron, rfl, rfl, rfl, rfl, rfl, ⟨?_, ?_, ?_, ?_⟩, ?_, ?_⟩
  · simp
  · rintro - ⟨v, id, hv, hid⟩
    obtain rfl : Value.null = v := Option.some.inj hv
    simp [Value.as_i64] at hid
  · exact fun _ => .inr rfl
  · rintro - ⟨s, hs, -⟩
    exact absurd (Option.some.inj hs) (by simp)
  · intro field hmem
    simp only [foreign_fields, List.mem_cons, List.not_mem_nil, or_false] at hmem
    rcases hmem with rfl | rfl | rfl | rfl | rfl <;> exact .inl rfl
  · simp

/-- A native transfer with a token contract is accepted, and the review shows the token. -/
theorem tron_native_stray_token :
    ∃ p r, validate reference (tron_native_payload "5000000"
        (.string "41a614f803b6fd780986a42c78ec9c7f77e6ded13c")) = .ok p ∧
      review reference p = .ok r ∧ ¬ Disciplined p ∧ ¬ ShowsOwnFields r := by
  have hvalid : validate reference (tron_native_payload "5000000"
      (.string "41a614f803b6fd780986a42c78ec9c7f77e6ded13c"))
        = .ok (tron_native "5000000" (some "41a614f803b6fd780986a42c78ec9c7f77e6ded13c")) :=
    eq_ok_of_toOption (by decide)
  refine ⟨_, _, hvalid, review_envelope reference (.inl rfl), ?_, ?_⟩
  · intro hd
    exact absurd (hd.token_contract.1 (by simp [tron_native])) (by simp [tron_native])
  · intro hshows
    exact absurd (hshows.token_contract rfl) (by simp [review_of, tron_native])

end Transaction

end TxCompiler
