/-
**What is reviewed is what is signed, on Tron.**

`tron_artefact` is the shape of every successful compilation of a validated transaction:
the artefact is the bytes of one `RawData` record, whose operands are the decoded fields
of the transaction. From there the statements are about reading those bytes back with the
generic wire reader, which knows field numbers and wire types and nothing of this crate:
the entries at the four levels carry the numbers and the addresses that `review` shows.

The record's integers are `u64` on the way in and `int64` in the protocol.
`int64_fields_iff` says exactly when a node that reads them as signed numbers sees the
same ones.
-/
import TxCompiler.Range

set_option autoImplicit false

namespace TxCompiler

open Rust Json

/-- The bytes behind the `0x` of an artefact. -/
def artefact_bytes (unsigned_tx : String) : Option (List UInt8) :=
  strip_prefix unsigned_tx "0x" |>.bind fun digits => Hex.decode (bytes digits)

theorem artefact_bytes_encode {cr : Crates} (hhex : HexLaws cr) (bs : List UInt8) :
    artefact_bytes ("0x" ++ cr.hex_encode bs) = some bs := by
  have hstarts : starts_with ("0x" ++ cr.hex_encode bs) "0x" = true := by
    rw [starts_with_iff, bytes_append, ← length_bytes, List.drop_left']
    rfl
  obtain ⟨digits, hdigits, hbytes⟩ := strip_prefix_eq_some hstarts (by rw [bytes_0x]; simp)
  rw [bytes_append, ← length_bytes, List.drop_left' rfl] at hbytes
  rw [artefact_bytes, hdigits, Option.bind_some, hbytes, hhex.encode, Hex.decode_encode]

section Tron

variable {cr : Crates} {v : Value} {p : PreparedTransaction} {t : UInt64}
  {res : CompilationResult}

/-- The record of a transaction whose amounts and clock are in range is well formed. -/
theorem raw_wf (hhex : HexLaws cr) {parts : TronParts} (hp : parts.Of cr p)
    (h : ∀ c ∈ tron_checks p t, c.1 = false) : (parts.raw p t.toNat).Wf where
  ref_block_bytes := length_to_be_bytes ..
  ref_block_hash := by
    simp only [TronParts.raw, List.length_take, List.length_drop, hp.block_id.1]
    decide
  expiration := time_below (tron_checks_passed h).2.2
  contract := contract_wf hhex hp (tron_checks_passed h).1
  timestamp := t.toNat_lt
  fee_limit := fee_limit_below (tron_checks_passed h).2.1

/-- **Every Tron artefact is one record**: that of the decoded transaction at the clock. -/
theorem tron_artefact (hhex : HexLaws cr) (hu256 : U256Laws cr) (hv : Valid cr p)
    (hc : p.chain = .Tron) (hres : compile cr p (.with_now t) = .ok res) :
    ∃ parts : TronParts, parts.Of cr p ∧ (parts.raw p t.toNat).Wf ∧
      (∀ c ∈ tron_checks p t, c.1 = false) ∧ res = tron_result cr p (parts.raw p t.toNat) := by
  obtain ⟨parts, hp⟩ := TronParts.Of.exists hv hc
  -- the options reach only this branch
  unfold compile at hres
  rw [hc] at hres
  dsimp only at hres
  rw [compile_tron_eq hhex hu256 hv hp] at hres
  obtain ⟨u, hchecks, hok⟩ := bind_eq_ok.1 hres
  have hall := reject_first_eq_ok.1 hchecks
  exact ⟨parts, hp, raw_wf hhex hp hall, hall, (Except.ok.inj hok).symm⟩

/-! ## The signed content -/

/-- Field 18, when the fee limit is present and not zero. -/
def fee_limit_entries (el : Option String) : List Wire.Entry :=
  match el with
  | some s => if decimal_value s = 0 then [] else [⟨18, .varint (decimal_value s)⟩]
  | none => []

/-- The innermost message moves what the review shows, from the given owner. -/
def MovesReviewed (cr : Crates) (r : TransactionReview) (owner : List UInt8)
    (message : List Wire.Entry) : Prop :=
  match r.tx_type with
  | .TransferNative => ∃ (recipient : List UInt8) (amount : ℕ),
      SpellsTron cr r.recipient recipient ∧ r.amount = amount.repr ∧
        message = [⟨1, .len owner⟩, ⟨2, .len recipient⟩, ⟨3, .varint amount⟩]
  | .TransferToken => ∃ (token : String) (contract recipient : List UInt8) (amount : ℕ),
      r.token_contract = some token ∧ SpellsTron cr token contract ∧
        SpellsTron cr r.recipient recipient ∧ r.amount = amount.repr ∧ amount < 2 ^ 256 ∧
          message = [⟨1, .len owner⟩, ⟨2, .len contract⟩, ⟨4, .len ([0xa9, 0x05, 0x9c, 0xbb] ++
            (List.replicate 12 0 ++ recipient.drop 1) ++ to_be_bytes 32 amount)⟩]

/-- The contract type and the type URL of the two intents. -/
def contract_type_of : TxType → UInt8 × String
  | .TransferNative => (1, "type.googleapis.com/protocol.TransferContract")
  | .TransferToken => (31, "type.googleapis.com/protocol.TriggerSmartContract")

theorem contract_type_eq (parts : TronParts) (p : PreparedTransaction) :
    UInt8.ofNat (parts.contract p).type = (contract_type_of p.tx_type).1 ∧
      (parts.contract p).type = (contract_type_of p.tx_type).1.toNat ∧
        (parts.contract p).url = (contract_type_of p.tx_type).2 := by
  unfold TronParts.contract
  cases p.tx_type <;> exact ⟨rfl, rfl, rfl⟩

theorem fee_limit_entries_eq (el : Option String) :
    fee_limit_entries el
      = if opt_value el = 0 then [] else [⟨18, .varint (opt_value el)⟩] := by
  cases el <;> rfl

/-- The message in the record moves what the review repeats from the transaction. -/
theorem moves_reviewed (hv : Valid cr p) {parts : TronParts}
    (hp : parts.Of cr p) (h : ∀ c ∈ amount_checks p, c.1 = false) :
    MovesReviewed cr (review_of cr p p.«to» p.value_wei) parts.owner
      (parts.contract p).entries := by
  have hlt := amount_below h
  unfold MovesReviewed TronParts.contract review_of
  cases htx : p.tx_type with
  | TransferNative =>
    exact ⟨parts.to_, decimal_value p.value_wei, hp.to_, hv.value_wei.eq_repr, rfl⟩
  | TransferToken =>
    rw [htx] at hlt
    obtain ⟨token, htc, htoken⟩ := hp.token htx
    refine ⟨token, parts.token, parts.to_, decimal_value p.value_wei, htc, htoken, hp.to_,
      hv.value_wei.eq_repr, hlt, ?_⟩
    simp only [Contract.entries, trigger_entries, transfer_calldata,
      ERC20_TRANSFER_SELECTOR_BYTES, List.append_assoc]

/-- The generic reader consumes the whole artefact, and the entries it finds at each level
are the reference block, the clock, the fee limit and the transfer that the review and the
metadata report. -/
def SignsReviewed (cr : Crates) (p : PreparedTransaction) (t : UInt64) (res : CompilationResult) :
    Prop :=
  ∃ (r : TransactionReview) (header : TronBlockHeader) (block_id owner : List UInt8)
    (raw contract any message : List UInt8) (entries : List Wire.Entry),
    review cr p = .ok r ∧
    p.fee.rp = some header ∧ Hex.decode (bytes header.h) = some block_id ∧
    SpellsTron cr p.«from» owner ∧
    artefact_bytes res.unsigned_tx = some raw ∧
    res.tx_hash = "0x" ++ cr.hex_encode (cr.sha256 raw).val ∧
    Wire.parse raw = some ([⟨1, .len (to_be_bytes 2 (header.n.toNat % 2 ^ 16))⟩,
      ⟨4, .len ((block_id.drop 8).take 8)⟩, ⟨8, .varint (t.toNat + 36000000)⟩,
      ⟨11, .len contract⟩, ⟨14, .varint t.toNat⟩] ++ fee_limit_entries p.fee.el) ∧
    res.metadata.expiration.map UInt64.toNat = some (t.toNat + 36000000) ∧
    res.metadata.tron_contract_type = some (contract_type_of p.tx_type).1 ∧
    Wire.parse contract = some [⟨1, .varint (contract_type_of p.tx_type).1.toNat⟩, ⟨2, .len any⟩] ∧
    Wire.parse any = some [⟨1, .len (bytes (contract_type_of p.tx_type).2)⟩, ⟨2, .len message⟩] ∧
    Wire.parse message = some entries ∧ MovesReviewed cr r owner entries

/-- **What is reviewed is what is signed**, for every accepted payload and every clock. -/
theorem tron_signs_reviewed (hhex : HexLaws cr) (hu256 : U256Laws cr)
    (h : validate cr v = .ok p) (hc : p.chain = .Tron)
    (hres : compile cr p (.with_now t) = .ok res) : SignsReviewed cr p t res := by
  obtain ⟨-, hv⟩ := (validate_eq_ok hhex).1 h
  obtain ⟨parts, hp, hwf, hall, rfl⟩ := tron_artefact hhex hu256 hv hc hres
  obtain ⟨htype, htype', hurl⟩ := contract_type_eq parts p
  have hraw := RawData.parse_bytes hwf
  have hcontract := Contract.parse_bytes hwf.contract
  have hany := Contract.parse_any hwf.contract
  simp only [TronParts.raw] at hcontract hany
  rw [htype'] at hcontract
  refine ⟨_, parts.header, parts.block_id, parts.owner, _, _, _, _, _,
    review_envelope cr (.inr hc), hp.rp, hp.block_id.2, hp.owner, artefact_bytes_encode hhex _, rfl,
    ?_, ?_, ?_, hcontract, ?_, Contract.parse_entries hwf.contract,
    moves_reviewed hv hp (tron_checks_passed hall).1⟩
  · rw [fee_limit_entries_eq]
    exact hraw
  · have hexp := hwf.expiration
    simp only [TronParts.raw] at hexp
    simp only [tron_result, TronParts.raw, Option.map_some]
    rw [toNat_ofNat_u64 hexp]
  · rw [← htype]
    rfl
  · rw [← hurl]
    exact hany

theorem tron_token_signs_reviewed :
    ∃ res, compile reference tron_token (.with_now sample_now) = .ok res ∧
      SignsReviewed reference tron_token sample_now res := by
  obtain ⟨res, hres⟩ := reference_compiles (t := sample_now) validate_tron_token
    (by decide) (by decide)
  exact ⟨res, hres, tron_signs_reviewed reference_hex reference_u256 validate_tron_token rfl hres⟩

/-! ## Signed integers -/

/-- A node that reads the four `int64` fields sees non-negative numbers. -/
structure Int64Fields (raw : List UInt8) : Prop where
  expiration : ∀ n, Wire.Field raw 8 (.varint n) → n < 2 ^ 63
  timestamp : ∀ n, Wire.Field raw 14 (.varint n) → n < 2 ^ 63
  fee_limit : ∀ n, Wire.Field raw 18 (.varint n) → n < 2 ^ 63
  /-- of a `TransferContract`, three levels down -/
  amount : ∀ contract any message n, Wire.Field raw 11 (.len contract) →
    Wire.Field contract 1 (.varint 1) → Wire.Field contract 2 (.len any) →
      Wire.Field any 2 (.len message) → Wire.Field message 3 (.varint n) → n < 2 ^ 63

/-- The amount of a record, zero unless it is a native transfer. -/
def Contract.amount : Contract → ℕ
  | .transfer _ _ amount => amount
  | .trigger .. => 0

theorem contract_amount_field {c : Contract} (h : c.Wf) (n : ℕ) :
    (∃ any message, Wire.Field c.bytes 1 (.varint 1) ∧ Wire.Field c.bytes 2 (.len any) ∧
      Wire.Field any 2 (.len message) ∧ Wire.Field message 3 (.varint n)) ↔
      c.type = 1 ∧ n = c.amount := by
  -- each level is read from the one above: type and Any, then the message, then the amount
  have hlevels : (∃ any message, Wire.Field c.bytes 1 (.varint 1) ∧
      Wire.Field c.bytes 2 (.len any) ∧ Wire.Field any 2 (.len message) ∧
        Wire.Field message 3 (.varint n)) ↔ c.type = 1 ∧ ⟨3, .varint n⟩ ∈ c.entries := by
    constructor
    · rintro ⟨any, message, h1, h2, h3, h4⟩
      rw [Wire.field_of_parse (Contract.parse_bytes h)] at h1 h2
      simp [contract_entries] at h1 h2
      subst h2
      rw [Wire.field_of_parse (Contract.parse_any h)] at h3
      simp [any_entries] at h3
      subst h3
      exact ⟨h1.symm, (Wire.field_of_parse (Contract.parse_entries h)).1 h4⟩
    · rintro ⟨h1, h4⟩
      refine ⟨_, _, (Wire.field_of_parse (Contract.parse_bytes h)).2 ?_,
        (Wire.field_of_parse (Contract.parse_bytes h)).2 (List.mem_cons_of_mem _
          (List.mem_singleton.2 rfl)),
        (Wire.field_of_parse (Contract.parse_any h)).2 (List.mem_cons_of_mem _
          (List.mem_singleton.2 rfl)), (Wire.field_of_parse (Contract.parse_entries h)).2 h4⟩
      simp [contract_entries, h1]
  rw [hlevels]
  refine and_congr_right fun h1 => ?_
  -- field 3 of a TriggerSmartContract is never written
  cases c with
  | transfer owner to_ amount => simp [Contract.entries, transfer_entries, Contract.amount]
  | trigger owner contract_address data => exact absurd h1 (by simp [Contract.type])

/-- The fields of a record, read back from its bytes. -/
theorem raw_field_iff {raw : RawData} (h : raw.Wf) (number : ℕ) (payload : Wire.Payload) :
    Wire.Field raw.bytes number payload ↔
      (number = 1 ∧ payload = .len raw.ref_block_bytes) ∨
      (number = 4 ∧ payload = .len raw.ref_block_hash) ∨
      (number = 8 ∧ payload = .varint raw.expiration) ∨
      (number = 11 ∧ payload = .len raw.contract.bytes) ∨
      (number = 14 ∧ payload = .varint raw.timestamp) ∨
      (number = 18 ∧ payload = .varint raw.fee_limit ∧ raw.fee_limit ≠ 0) := by
  rw [Wire.field_of_parse (RawData.parse_bytes h)]
  by_cases h0 : raw.fee_limit = 0 <;> simp [RawData.entries, raw_data_entries, h0]

theorem raw_int64_fields_iff {raw : RawData} (h : raw.Wf) :
    Int64Fields raw.bytes ↔ raw.expiration < 2 ^ 63 ∧ raw.timestamp < 2 ^ 63 ∧
      raw.fee_limit < 2 ^ 63 ∧ raw.contract.amount < 2 ^ 63 := by
  constructor
  · rintro ⟨h8, h14, h18, h3⟩
    refine ⟨h8 _ ((raw_field_iff h _ _).2 (by simp)), h14 _ ((raw_field_iff h _ _).2 (by simp)),
      ?_, ?_⟩
    · -- a zero fee limit is not written, so no field bounds it
      by_cases h0 : raw.fee_limit = 0
      · rw [h0]
        decide
      · exact h18 _ ((raw_field_iff h _ _).2 (by simp [h0]))
    · cases hc : raw.contract with
      | trigger owner contract_address data => exact Nat.two_pow_pos 63
      | transfer owner to_ amount =>
        obtain ⟨any, message, f1, f2, f3, f4⟩ :=
          (contract_amount_field h.contract raw.contract.amount).2 ⟨by rw [hc]; rfl, rfl⟩
        rw [← hc]
        exact h3 _ _ _ _ ((raw_field_iff h _ _).2 (by simp)) f1 f2 f3 f4
  · rintro ⟨h8, h14, h18, h3⟩
    refine ⟨?_, ?_, ?_, ?_⟩
    · intro n hn
      have hvalue := (raw_field_iff h _ _).1 hn
      simp at hvalue
      omega
    · intro n hn
      have hvalue := (raw_field_iff h _ _).1 hn
      simp at hvalue
      omega
    · intro n hn
      have hvalue := (raw_field_iff h _ _).1 hn
      simp at hvalue
      omega
    · intro contract any message n h11 f1 f2 f3 f4
      have hcontract := (raw_field_iff h _ _).1 h11
      simp at hcontract
      subst hcontract
      have hn := (contract_amount_field h.contract n).1 ⟨any, message, f1, f2, f3, f4⟩
      rw [hn.2]
      exact h3

/-- **When a signed reader agrees.** The amount of a native transfer, the fee limit and the
expiration have to be below `2^63`; the compiler only keeps them below `2^64`. -/
theorem int64_fields_iff (hhex : HexLaws cr) (hu256 : U256Laws cr) (h : validate cr v = .ok p)
    (hc : p.chain = .Tron) (hres : compile cr p (.with_now t) = .ok res) :
    (∃ raw, artefact_bytes res.unsigned_tx = some raw ∧ Int64Fields raw) ↔
      (p.tx_type = .TransferNative → decimal_value p.value_wei < 2 ^ 63) ∧
        opt_value p.fee.el < 2 ^ 63 ∧ t.toNat + 36000000 < 2 ^ 63 := by
  obtain ⟨-, hv⟩ := (validate_eq_ok hhex).1 h
  obtain ⟨parts, hp, hwf, -, rfl⟩ := tron_artefact hhex hu256 hv hc hres
  have hbytes := artefact_bytes_encode hhex (parts.raw p t.toNat).bytes
  have hamount : (parts.contract p).amount < 2 ^ 63 ↔
      (p.tx_type = .TransferNative → decimal_value p.value_wei < 2 ^ 63) := by
    unfold TronParts.contract
    cases p.tx_type <;> simp [Contract.amount]
  -- the artefact determines the bytes, so the existential is about one record
  simp only [tron_result, hbytes, Option.some.injEq, exists_eq_left', raw_int64_fields_iff hwf]
  rw [show (parts.raw p t.toNat).contract = parts.contract p from rfl, hamount]
  simp only [TronParts.raw]
  constructor
  · rintro ⟨h8, -, h18, h3⟩
    exact ⟨h3, h18, h8⟩
  · rintro ⟨h3, h18, h8⟩
    exact ⟨h8, by omega, h18, h3⟩

theorem tron_native_int64_fields :
    ∃ res, compile reference (tron_native "5000000" none) (.with_now sample_now) = .ok res ∧
      ∃ raw, artefact_bytes res.unsigned_tx = some raw ∧ Int64Fields raw := by
  obtain ⟨res, hres⟩ := reference_compiles (t := sample_now) validate_tron_native
    (by decide) (by decide)
  exact ⟨res, hres, (int64_fields_iff reference_hex reference_u256 validate_tron_native rfl hres).2
    ⟨fun _ => by decide, by decide, by decide⟩⟩

/-- An amount of `2^63` is accepted and signed, and a signed reader takes it for `-2^63`. -/
theorem tron_native_not_int64 :
    ∃ (p : PreparedTransaction) (res : CompilationResult) (raw : List UInt8),
      validate reference (tron_native_payload "9223372036854775808" .null) = .ok p ∧
        p.chain = .Tron ∧ compile reference p (.with_now sample_now) = .ok res ∧
          artefact_bytes res.unsigned_tx = some raw ∧ ¬ Int64Fields raw := by
  have hvalid : validate reference (tron_native_payload "9223372036854775808" .null)
      = .ok (tron_native "9223372036854775808" none) := eq_ok_of_toOption (by decide)
  obtain ⟨res, hres⟩ := reference_compiles (t := sample_now) hvalid (by decide) (by decide)
  obtain ⟨-, hv⟩ := (validate_eq_ok reference_hex).1 hvalid
  obtain ⟨parts, hp, hwf, -, rfl⟩ := tron_artefact reference_hex reference_u256 hv rfl hres
  refine ⟨_, _, _, hvalid, rfl, hres, artefact_bytes_encode reference_hex _, ?_⟩
  -- the artefact is not evaluated: its record is known to carry the amount
  rw [raw_int64_fields_iff hwf]
  rintro ⟨-, -, -, hamount⟩
  have hvalue : decimal_value "9223372036854775808" = 2 ^ 63 := by decide
  simp only [TronParts.raw, TronParts.contract, tron_native, Contract.amount, hvalue] at hamount
  exact absurd hamount (lt_irrefl _)

end Tron

end TxCompiler
