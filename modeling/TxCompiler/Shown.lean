/-
**What a review shows of a transaction that was never validated.**

`review` and `compile` both accept transactions that come from anywhere. The comment on the padding
check in `review` says why that matters: a recipient that is not the one the signer signs for must
not be shown. Here the words of a review are read like the words of a transaction
(`TransactionReview.evm_text`), and compared with what the artefact decodes to.

The recipient and the amount of a token transfer are always the signed ones (`shown_transfer_eq`).
The envelope around the call is not covered by the checks of `review`: all of the pre-image is
shown exactly when a native transfer carries no calldata, and a token transfer carries no value and
goes to the contract it names (`shows_signed_iff`). On Tron it is the fee limit that can be missing
(`tron_shows_signed`). `validate` asks for just that, so reviews of validated transactions leave
nothing out, and two of them that are equal have equal results (`same_review_same_result`).
-/
import TxCompiler.Reading
import TxCompiler.TransferCalldata
import TxCompiler.Layout

set_option autoImplicit false

namespace TxCompiler

open Rust Json

/-! ## The words of a review -/

/-- The price per unit of gas, under the name the mode has for it. -/
def FeeReview.price (fee : FeeReview) : Option String :=
  match fee.mode with
  | .Eip1559 => fee.max_fee_per_gas
  | .Legacy => fee.gas_price
  | .Tron => none

/-- The call of the token contract a review describes. -/
def shown_transfer (cr : Crates) (r : TransactionReview) : Option (List UInt8) := do
  let recipient ← cr.address_from_str r.recipient
  let amount ← cr.u256_from_str_radix r.amount 10
  some (transfer_calldata recipient.val (to_be_bytes 32 amount.toNat))

/-- What a reader of the review expects to be signed: a payment to the recipient without calldata,
or a call of the token contract without a payment. -/
def TransactionReview.evm_text (cr : Crates) (r : TransactionReview) : EvmText :=
  { mode := r.fee.mode
    chain_id := r.chain_id
    to_ := match r.tx_type with
      | .TransferNative => some r.recipient
      | .TransferToken => r.token_contract
    value := match r.tx_type with
      | .TransferNative => some r.amount
      | .TransferToken => some "0"
    nonce := r.nonce
    gas_limit := r.fee.gas_limit
    price := r.fee.price
    max_priority_fee := r.fee.max_priority_fee_per_gas
    input := match r.tx_type with
      | .TransferNative => some []
      | .TransferToken => shown_transfer cr r }

/-- The parts of the envelope a review is silent about are empty, and the token contract it names
is the one that is called. -/
def EnvelopeShown (cr : Crates) (p : PreparedTransaction) : Prop :=
  match p.tx_type with
  | .TransferNative => non_empty_calldata p.data = none
  | .TransferToken => p.token_contract.bind cr.address_from_str = cr.address_from_str p.«to» ∧
      cr.u256_from_str_radix p.value_wei 10 = some 0

/-! ## Two texts with one envelope -/

section Texts

variable {cr : Crates} {text : EvmText} {m : Meaning}

/-- The common fields are all in the meaning. -/
theorem EvmText.envelope_inj {common common' : EvmCommon} (h : text.envelope common = some m)
    (h' : text.envelope common' = some m) : common = common' := by
  obtain ⟨chain_id, to_, value, nonce, gas_limit, input⟩ := common
  obtain ⟨chain_id', to', value', nonce', gas_limit', input'⟩ := common'
  unfold EvmText.envelope at h h'
  cases hm : text.mode with
  | Tron => simp [hm] at h
  | Eip1559 =>
    simp only [hm, Option.bind_eq_bind, Option.bind_eq_some_iff, Option.some.injEq] at h h'
    obtain ⟨_, -, _, -, rfl⟩ := h
    obtain ⟨_, -, _, -, heq⟩ := h'
    rw [Meaning.eip1559.injEq] at heq
    obtain ⟨h1, h2, h3, -, -, h4, h5, h6⟩ := heq
    rw [EvmCommon.mk.injEq]
    exact ⟨UInt64.toNat_inj.1 h1.symm, Subtype.ext h4.symm, BitVec.eq_of_toNat_eq h5.symm,
      UInt64.toNat_inj.1 h2.symm, UInt64.toNat_inj.1 h3.symm, h6.symm⟩
  | Legacy =>
    simp only [hm, Option.bind_eq_bind, Option.bind_eq_some_iff, Option.some.injEq] at h h'
    obtain ⟨_, -, rfl⟩ := h
    obtain ⟨_, -, heq⟩ := h'
    rw [Meaning.legacy.injEq] at heq
    obtain ⟨h1, h2, h3, -, h4, h5, h6⟩ := heq
    rw [EvmCommon.mk.injEq]
    exact ⟨UInt64.toNat_inj.1 h1.symm, Subtype.ext h4.symm, BitVec.eq_of_toNat_eq h5.symm,
      UInt64.toNat_inj.1 h2.symm, UInt64.toNat_inj.1 h3.symm, h6.symm⟩

/-- The same envelope around another call. -/
def EvmText.with_call (text : EvmText) (to_ value : Option String) (input : Option (List UInt8)) :
    EvmText :=
  { text with to_ := to_, value := value, input := input }

/-- Two calls that read alike. -/
def EvmText.SameCall (cr : Crates) (text : EvmText) (to_ value : Option String)
    (input : Option (List UInt8)) : Prop :=
  to_.bind cr.address_from_str = text.to_.bind cr.address_from_str ∧
    (value.bind fun s => cr.u256_from_str_radix s 10)
      = (text.value.bind fun s => cr.u256_from_str_radix s 10) ∧ input = text.input

theorem EvmText.read_congr {to_ value : Option String} {input : Option (List UInt8)}
    (h : text.SameCall cr to_ value input) :
    (text.with_call to_ value input).read cr = text.read cr := by
  obtain ⟨hto, hvalue, hinput⟩ := h
  have hcommon : (text.with_call to_ value input).common cr = text.common cr := by
    unfold EvmText.common EvmText.with_call
    simp only [hto, hvalue, hinput]
  unfold EvmText.read
  rw [hcommon]
  rfl

/-- The fees are those of the text, so it is the calls that are compared. -/
theorem EvmText.read_with_call (h : text.read cr = some m) (to_ value : Option String)
    (input : Option (List UInt8)) :
    (text.with_call to_ value input).read cr = some m ↔ text.SameCall cr to_ value input := by
  constructor
  · intro h'
    obtain ⟨common, hcommon, henvelope⟩ := Option.bind_eq_some_iff.1 h
    obtain ⟨common', hcommon', henvelope'⟩ := Option.bind_eq_some_iff.1 h'
    have heq := envelope_inj henvelope henvelope'
    rw [← heq] at hcommon'
    obtain ⟨-, hto', hvalue', -, -, hinput'⟩ := common_eq_some.1 hcommon'
    obtain ⟨-, hto, hvalue, -, -, hinput⟩ := common_eq_some.1 hcommon
    exact ⟨hto'.trans hto.symm, hvalue'.trans hvalue.symm, hinput'.trans hinput.symm⟩
  · intro hsame
    rw [read_congr hsame, h]

end Texts

/-! ## Ethereum -/

section Ethereum

variable {cr : Crates} {p : PreparedTransaction} {r : TransactionReview} {m : Meaning}

/-- The fields `build_fee_review` would show as `"0"` are there. -/
def FeePresent (fee : FeeParams) : Prop :=
  fee.mode ≠ .Tron ∧ fee.gas_limit ≠ none ∧ fee_per_gas fee ≠ none

theorem feePresent_of_read (h : p.evm_text.read cr = some m) : FeePresent p.fee := by
  obtain ⟨common, hcommon, henvelope⟩ := Option.bind_eq_some_iff.1 h
  obtain ⟨-, -, -, -, hgas, -⟩ := EvmText.common_eq_some.1 hcommon
  obtain ⟨gas_limit, hgas, -⟩ := Option.bind_eq_some_iff.1 hgas
  have hgas : p.fee.gas_limit = some gas_limit := hgas
  have hprice : p.fee.mode ≠ .Tron ∧ fee_per_gas p.fee ≠ none := by
    rcases EvmText.envelope_cases henvelope with ⟨max_fee, _, hmode, hmax, -⟩ |
      ⟨gas_price, hmode, hprice, -⟩
    · replace hmode : p.fee.mode = .Eip1559 := hmode
      obtain ⟨s, hs, -⟩ := Option.bind_eq_some_iff.1 hmax
      replace hs : fee_per_gas p.fee = some s := hs
      simp [hmode, hs]
    · replace hmode : p.fee.mode = .Legacy := hmode
      obtain ⟨s, hs, -⟩ := Option.bind_eq_some_iff.1 hprice
      replace hs : fee_per_gas p.fee = some s := hs
      simp [hmode, hs]
  exact ⟨hprice.1, by simp [hgas], hprice.2⟩

theorem feePresent_of_valid (hv : Valid cr p) (hc : p.chain = .Ethereum) : FeePresent p.fee := by
  have hof := hv.fee.mode
  have hreq := hv.fee.required
  rw [FeeMode.Of, hc] at hof
  unfold RequiredFields at hreq
  unfold FeePresent fee_per_gas
  cases hmode : p.fee.mode with
  | Tron => simp [hmode] at hof
  | Eip1559 =>
    rw [hmode] at hreq
    exact ⟨by simp, hreq.1, hreq.2.1⟩
  | Legacy =>
    rw [hmode] at hreq
    exact ⟨by simp, hreq.1, hreq.2⟩

theorem fee_shown (h : FeePresent p.fee) :
    (build_fee_review cr p.fee).mode = p.fee.mode ∧
      (build_fee_review cr p.fee).gas_limit = p.fee.gas_limit ∧
      (build_fee_review cr p.fee).price = fee_per_gas p.fee ∧
      (build_fee_review cr p.fee).max_priority_fee_per_gas = tip_per_gas p.fee := by
  obtain ⟨hmode, hgas, hprice⟩ := h
  obtain ⟨gas_limit, hgas⟩ := Option.ne_none_iff_exists'.1 hgas
  obtain ⟨price, hprice⟩ := Option.ne_none_iff_exists'.1 hprice
  unfold fee_per_gas at hprice ⊢
  unfold build_fee_review tip_per_gas
  cases hm : p.fee.mode with
  | Tron => exact absurd hm hmode
  | Eip1559 =>
    simp only [hm] at hprice
    simp [FeeReview.price, hgas, hprice]
  | Legacy =>
    simp only [hm] at hprice
    unfold effective_gas_price at hprice ⊢
    simp [FeeReview.price, hgas, hprice]

/-- Outside the call the words of a review are the words that are read. -/
theorem review_text_native (h : FeePresent p.fee) (htx : p.tx_type = .TransferNative)
    (recipient amount : String) :
    (review_of cr p recipient amount).evm_text cr
      = p.evm_text.with_call (some recipient) (some amount) (some []) := by
  obtain ⟨h1, h2, h3, h4⟩ := @fee_shown cr p h
  simp only [TransactionReview.evm_text, review_of, PreparedTransaction.evm_text,
    EvmText.with_call, htx, h1, h2, h3, h4]

theorem review_text_token (h : FeePresent p.fee) (htx : p.tx_type = .TransferToken)
    (recipient amount : String) :
    (review_of cr p recipient amount).evm_text cr
      = p.evm_text.with_call p.token_contract (some "0")
          (shown_transfer cr (review_of cr p recipient amount)) := by
  obtain ⟨h1, h2, h3, h4⟩ := @fee_shown cr p h
  simp only [TransactionReview.evm_text, review_of, PreparedTransaction.evm_text,
    EvmText.with_call, htx, h1, h2, h3, h4]

/-! The calls. -/

theorem spellsCalldata_nil {data : Option String} :
    SpellsCalldata data [] ↔ non_empty_calldata data = none := by
  refine ⟨fun h => ?_, spellsCalldata_of_empty⟩
  rw [non_empty_calldata_eq_none]
  cases data with
  | none => exact .inl rfl
  | some d =>
    -- no digits behind the prefix, so the text is one of the two
    obtain ⟨ds, hd, hdec⟩ := h
    obtain rfl : ds = [] := List.length_eq_zero_iff.1 (Hex.length_of_decode hdec)
    rcases hd with hd | hd
    · exact .inr (.inl (congrArg some (bytes_eq_nil.1 hd)))
    · rw [List.append_nil, bytes_inj] at hd
      exact .inr (.inr (congrArg some hd))

/-- What a review of a token transfer says of recipient and amount is what the calldata says to
the compiler. -/
theorem shown_transfer_eq (haddr : AddressLaws cr) (hu256 : U256Laws cr)
    {data : String} (hdata : p.data = some data) {recipient amount : String}
    (h : decode_erc20_transfer_data cr data = .ok (recipient, amount)) :
    shown_transfer cr (review_of cr p recipient amount) = calldata_bytes p.data := by
  obtain ⟨bs, word, hs⟩ := spellsTransfer_of_review h
  obtain ⟨shown, hshown, hspells⟩ := decode_erc20_transfer_data_of_spells hu256 hs
  rw [h, Except.ok.injEq, Prod.mk.injEq] at hshown
  obtain ⟨rfl, rfl⟩ := hshown
  obtain ⟨h20, ds, hds, hdec⟩ := hspells
  have hto : cr.address_from_str recipient = some ⟨bs, h20⟩ :=
    haddr.from_str recipient ds ⟨bs, h20⟩ hds hdec
  have hword : to_be_bytes 32 (be_value word) = word := by
    rw [← hs.2.1, to_be_bytes_be_value]
  have hamount := hu256.decimal (be_value word)
  rw [if_pos hs.amount_lt] at hamount
  rw [hdata, calldata_bytes_eq_some.2 hs.spellsCalldata]
  unfold shown_transfer review_of
  simp only [hto, hamount, Option.bind_eq_bind, Option.bind_some]
  rw [BitVec.toNat_ofNat, Nat.mod_eq_of_lt hs.amount_lt, hword]

/-- The texts of an EVM transaction and of its review differ in the call, and by what the envelope
says beside it. -/
theorem review_text (haddr : AddressLaws cr) (hu256 : U256Laws cr)
    (hc : p.chain = .Ethereum) (hfee : FeePresent p.fee) (hr : review cr p = .ok r) :
    ∃ to_ value input, r.evm_text cr = p.evm_text.with_call to_ value input ∧
      (p.evm_text.SameCall cr to_ value input ↔ EnvelopeShown cr p) := by
  unfold EvmText.SameCall EnvelopeShown
  cases htx : p.tx_type with
  | TransferNative =>
    rw [review_envelope cr (.inl htx), Except.ok.injEq] at hr
    subst hr
    refine ⟨_, _, _, review_text_native hfee htx _ _, ?_⟩
    -- recipient and amount are the words of the envelope
    rw [← spellsCalldata_nil, ← calldata_bytes_eq_some, eq_comm (a := some [])]
    exact ⟨fun h => h.2.2, fun h => ⟨rfl, rfl, h⟩⟩
  | TransferToken =>
    obtain ⟨⟨recipient, amount⟩, htransfer, hok⟩ := bind_eq_ok.1 hr
    obtain rfl : review_of cr p recipient amount = r := Except.ok.inj hok
    unfold review_transfer at htransfer
    rw [htx, hc] at htransfer
    obtain ⟨data, hdata, hdecode⟩ := bind_eq_ok.1 htransfer
    have hinput := shown_transfer_eq haddr hu256 (ok_or_eq_ok.1 hdata) hdecode
    refine ⟨_, _, _, review_text_token hfee htx _ _, ?_⟩
    have hzero : cr.u256_from_str_radix "0" 10 = some 0 := by
      rw [← zero_repr, hu256.decimal, if_pos (by norm_num)]
      rfl
    constructor
    · rintro ⟨hto, hvalue, -⟩
      exact ⟨hto, hvalue.symm.trans hzero⟩
    · rintro ⟨hto, hvalue⟩
      exact ⟨hto, hzero.trans hvalue.symm, hinput⟩

/-- A validated transaction has nothing in its envelope that its review is silent about. -/
theorem envelopeShown_of_valid (haddr : AddressLaws cr) (hu256 : U256Laws cr) (hv : Valid cr p)
    (hc : p.chain = .Ethereum) : EnvelopeShown cr p := by
  have he := hv.evm hc
  unfold EnvelopeShown
  cases htx : p.tx_type with
  | TransferNative => exact he.native htx
  | TransferToken =>
    obtain ⟨_, _, _, token, -, -, htc, hcase, hvalue⟩ := he.token htx
    have hto := hv.«to»
    have htoken := hv.token_contract token htc
    rw [hc] at hto htoken
    obtain ⟨bs, h20, ds, hds, hdec⟩ := hto
    obtain ⟨bs', h20', ds', hds', hdec'⟩ := htoken
    -- two spellings of one address, whatever the case of their digits
    obtain rfl := spellsEvm_of_eq_ignore_case ⟨h20, ds, hds, hdec⟩ ⟨h20', ds', hds', hdec'⟩ hcase
    have hread := haddr.from_str p.«to» ds ⟨bs, h20⟩ hds hdec
    have hread' := haddr.from_str token ds' ⟨bs, h20⟩ hds' hdec'
    refine ⟨?_, ?_⟩
    · rw [htc, Option.bind_some, hread, hread']
    · rw [hvalue, ← zero_repr, hu256.decimal, if_pos (by norm_num)]
      rfl

end Ethereum

/-! ## Tron -/

section Tron

variable {cr : Crates} {p : PreparedTransaction}

/-- The fee limit is shown in its own mode only, while `compile_tron` reads no mode. -/
theorem shown_fee_limit (cr : Crates) (fee : FeeParams) :
    (build_fee_review cr fee).tron_fee_limit = if fee.mode = .Tron then fee.el else none := by
  unfold build_fee_review
  cases fee.mode <;> rfl

end Tron

/-! ## What a review is worth -/

section Reviews

variable {cr : Crates} {keccak256 : List UInt8 → B256} {p : PreparedTransaction}
  {options : CompileOptions} {res : CompilationResult} {r : TransactionReview}

/-- **All of the pre-image is shown, or some of it is not.** For every transaction on Ethereum that
compiles, the words of its review are read as what the artefact decodes to exactly when the parts
of the envelope the review is silent about are empty. -/
theorem shows_signed_iff (hhex : HexLaws cr) (haddr : AddressLaws cr) (hu256 : U256Laws cr)
    (hsign : SigningLaws cr) (hdigest : DigestLaws cr keccak256) (hp : DataFits p)
    (hc : p.chain = .Ethereum) (hr : review cr p = .ok r)
    (hres : compile cr p options = .ok res) :
    (∃ m, artefact_meaning res.unsigned_tx = some m ∧ (r.evm_text cr).read cr = some m) ↔
      EnvelopeShown cr p := by
  obtain ⟨m, hm, hartefact, -⟩ := compiled_meaning hhex hsign hdigest hp hres
  unfold read_meaning at hm
  rw [hc] at hm
  obtain ⟨to_, value, input, htext, hsame⟩ :=
    review_text haddr hu256 hc (feePresent_of_read hm) hr
  rw [← hsame, ← EvmText.read_with_call hm, ← htext, hartefact]
  constructor
  · rintro ⟨m', hm', h⟩
    rw [Option.some.inj hm', h]
  · intro h
    exact ⟨m, rfl, h⟩

theorem dataFits_evm_token (data : String) (h : len data < 2 ^ 63) : DataFits (evm_token data) := by
  intro d hd
  obtain rfl : data = d := Option.some.inj hd
  exact h

/-- A validated token transfer is shown to the last field. -/
theorem evm_token_shows_signed :
    ∃ res r m, compile reference (evm_token sample_calldata) (.with_now sample_now) = .ok res ∧
      review reference (evm_token sample_calldata) = .ok r ∧
      artefact_meaning res.unsigned_tx = some m ∧
      (r.evm_text reference).read reference = some m := by
  obtain ⟨-, hv⟩ := (validate_eq_ok reference_hex).1 validate_evm_token
  obtain ⟨res, hres⟩ := reference_compiles (t := sample_now) validate_evm_token
    (by decide) (by decide)
  obtain ⟨r, hr⟩ := review_of_valid reference_u256 hv
  obtain ⟨m, hm, hread⟩ := (shows_signed_iff reference_hex reference_address reference_u256
    reference_signing reference_digest (dataFits_evm_token _ (by decide +kernel)) rfl hr hres).2
      (envelopeShown_of_valid reference_address reference_u256 hv rfl)
  exact ⟨res, r, m, hres, hr, hm, hread⟩

/-- A payment beside the call is signed, and a review has no field for it. -/
example : ¬ EnvelopeShown reference { evm_token sample_calldata with value_wei := "5" } :=
  fun h => absurd h.2 (by decide)

/-- **On Tron the transfer is always shown.** Whatever transaction is compiled, the owner, the
recipient, the token and the amount in the artefact are those its review spells; the fee limit is
shown exactly when the transaction has the fee mode of the chain, or there is none. -/
theorem tron_shows_signed (hhex : HexLaws cr) (hsign : SigningLaws cr)
    (hdigest : DigestLaws cr keccak256) (hp : DataFits p) (hc : p.chain = .Tron)
    (hres : compile cr p options = .ok res) :
    ∃ r block_number block_hash transfer fee_limit, review cr p = .ok r ∧
      artefact_meaning res.unsigned_tx = some
        (.tron (clock_of cr options).toNat block_number block_hash transfer fee_limit) ∧
      p.fee.rp.bind read_block_ref = some (block_number, block_hash) ∧
      read_transfer cr r.tx_type r.«from» r.recipient r.token_contract r.amount = some transfer ∧
      (read_fee_limit r.fee.tron_fee_limit = some fee_limit ↔
        p.fee.mode = .Tron ∨ fee_limit = 0) := by
  obtain ⟨m, hm, hartefact, -⟩ := compiled_meaning hhex hsign hdigest hp hres
  obtain ⟨header, block_number, block_hash, transfer, fee_limit, hrp, href, htransfer, hlimit, -,
    rfl⟩ := (read_meaning_tron hc).1 hm
  refine ⟨_, block_number, block_hash, transfer, fee_limit, review_envelope cr (.inr hc), hartefact,
    by rw [hrp, Option.bind_some, href], htransfer, ?_⟩
  show read_fee_limit (build_fee_review cr p.fee).tron_fee_limit = some fee_limit ↔ _
  rw [shown_fee_limit]
  by_cases hmode : p.fee.mode = .Tron
  · rw [if_pos hmode]
    exact iff_of_true hlimit (.inl hmode)
  · rw [if_neg hmode]
    constructor
    · intro h
      exact .inr (Option.some.inj h).symm
    · rintro (h | rfl)
      · exact absurd h hmode
      · rfl

theorem tron_token_shows_signed :
    ∃ res r transfer, compile reference tron_token (.with_now sample_now) = .ok res ∧
      review reference tron_token = .ok r ∧
      read_transfer reference r.tx_type r.«from» r.recipient r.token_contract r.amount
        = some transfer ∧
      ∃ block_number block_hash fee_limit, artefact_meaning res.unsigned_tx = some
        (.tron sample_now.toNat block_number block_hash transfer fee_limit) := by
  obtain ⟨res, hres⟩ := reference_compiles (t := sample_now) validate_tron_token
    (by decide) (by decide)
  obtain ⟨r, block_number, block_hash, transfer, fee_limit, hr, hm, -, htransfer, -⟩ :=
    tron_shows_signed reference_hex reference_signing reference_digest dataFits_tron_token rfl hres
  exact ⟨res, r, transfer, hres, hr, htransfer, block_number, block_hash, fee_limit, hm⟩

/-- What is read off a validated transaction can be read off its review, but for the reference
block and the clock of a Tron transaction. -/
def TransactionReview.read (cr : Crates) (r : TransactionReview) (t : UInt64)
    (block_ref : Option (ℕ × List UInt8)) : Option Meaning :=
  match r.chain with
  | .Ethereum => (r.evm_text cr).read cr
  | .Tron => do
    let (block_number, block_hash) ← block_ref
    let transfer ← read_transfer cr r.tx_type r.«from» r.recipient r.token_contract r.amount
    let fee_limit ← read_fee_limit r.fee.tron_fee_limit
    if t.toNat + 36000000 < 2 ^ 64 then
      some (.tron t.toNat block_number block_hash transfer fee_limit)
    else none

theorem review_read (haddr : AddressLaws cr) (hu256 : U256Laws cr) (hv : Valid cr p)
    (hr : review cr p = .ok r) (t : UInt64) :
    read_meaning cr p t = r.read cr t (p.fee.rp.bind read_block_ref) := by
  obtain ⟨recipient, amount, hreview⟩ := review_eq_ok hr
  unfold read_meaning TransactionReview.read
  rw [show r.chain = p.chain by rw [hreview]; rfl]
  cases hc : p.chain with
  | Ethereum =>
    obtain ⟨to_, value, input, htext, hsame⟩ :=
      review_text haddr hu256 hc (feePresent_of_valid hv hc) hr
    dsimp only
    rw [htext, EvmText.read_congr (hsame.2 (envelopeShown_of_valid haddr hu256 hv hc))]
  | Tron =>
    rw [review_envelope cr (.inr hc), Except.ok.injEq] at hr
    subst hr
    have hmode : p.fee.mode = .Tron := hv.fee.mode.2 hc
    have hlimit : (build_fee_review cr p.fee).tron_fee_limit = p.fee.el := by
      rw [shown_fee_limit, if_pos hmode]
    simp only [review_of, hlimit]
    cases p.fee.rp <;> rfl

/-- **A review stands for one result.** Two accepted payloads that are reviewed alike compile
alike: to the same result or to none. On Tron they have to refer to the same block and be compiled
at the same time, which a review does not show. -/
theorem same_review_same_result (hhex : HexLaws cr) (haddr : AddressLaws cr) (hu256 : U256Laws cr)
    (hsign : SigningLaws cr) (hdigest : DigestLaws cr keccak256) {v v' : Value}
    {p' : PreparedTransaction} (h : validate cr v = .ok p) (h' : validate cr v' = .ok p')
    (hr : review cr p = .ok r) (hr' : review cr p' = .ok r) (options options' : CompileOptions)
    (htron : r.chain = .Tron → clock_of cr options = clock_of cr options' ∧
      p.fee.rp.bind read_block_ref = p'.fee.rp.bind read_block_ref) (res : CompilationResult) :
    compile cr p options = .ok res ↔ compile cr p' options' = .ok res := by
  obtain ⟨-, hv⟩ := (validate_eq_ok hhex).1 h
  obtain ⟨-, hv'⟩ := (validate_eq_ok hhex).1 h'
  apply eq_ok_iff_of_toOption
  have htx : p.tx_type = p'.tx_type := by
    obtain ⟨_, _, hreview⟩ := review_eq_ok hr
    obtain ⟨_, _, hreview'⟩ := review_eq_ok hr'
    exact congrArg TransactionReview.tx_type (hreview.symm.trans hreview')
  have hread : r.read cr (clock_of cr options) (p.fee.rp.bind read_block_ref)
      = r.read cr (clock_of cr options') (p'.fee.rp.bind read_block_ref) := by
    cases hc : r.chain with
    | Ethereum =>
      unfold TransactionReview.read
      rw [hc]
    | Tron =>
      obtain ⟨hclock, href⟩ := htron hc
      rw [hclock, href]
  rw [compile_toOption hhex hsign hdigest, compile_toOption hhex hsign hdigest,
    review_read haddr hu256 hv hr, review_read haddr hu256 hv' hr', hread, htx]

/-- The sample with the address of the token in capitals. -/
def evm_token_capitals : PreparedTransaction :=
  { evm_token sample_calldata with «to» := "0xDAC17F958D2EE523A2206206994597C13D831EC7" }

/-- The review of a token transfer shows one of the two spellings of the token contract. -/
theorem evm_token_same_result :
    ∃ res, compile reference (evm_token sample_calldata) (.with_now sample_now) = .ok res ∧
      compile reference evm_token_capitals ⟨none⟩ = .ok res := by
  obtain ⟨-, hv⟩ := (validate_eq_ok reference_hex).1 validate_evm_token
  -- the digits of one address, and the check against the token contract ignores their case
  have hto : ∃ bs, SpellsEvm evm_token_capitals.«to» bs :=
    (@validate_evm_address_eq_ok _ "to" ()).1 (eq_ok_of_toOption (by decide))
  have hevm := hv.evm rfl
  have hcapitals : validate reference evm_token_capitals.to_value = .ok evm_token_capitals :=
    (validate_eq_ok reference_hex).2 ⟨⟨_, rfl, transaction_spells hv.data (by decide)⟩,
      { hv with
        «to» := hto
        evm := fun _ =>
          { hevm with
            token := fun htx => by
              obtain ⟨data, recipient, amount, _, hdata, hs, -⟩ := hevm.token htx
              exact ⟨data, recipient, amount, _, hdata, hs, rfl, by decide, rfl⟩ } }⟩
  obtain ⟨r, hr⟩ := review_of_valid reference_u256 hv
  have hr' : review reference evm_token_capitals = .ok r := hr
  have hno : r.chain ≠ .Tron := by
    obtain ⟨_, _, hreview⟩ := review_eq_ok hr
    rw [hreview]
    exact Chain.noConfusion
  obtain ⟨res, hres⟩ := reference_compiles (t := sample_now) validate_evm_token
    (by decide) (by decide)
  have hiff := same_review_same_result reference_hex reference_address reference_u256
    reference_signing reference_digest validate_evm_token hcapitals hr hr'
    (.with_now sample_now) ⟨none⟩ (fun h => absurd h hno) res
  exact ⟨res, hres, hiff.1 hres⟩

end Reviews

end TxCompiler
