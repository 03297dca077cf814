/-
**Is a Tron artefact the canonical serialisation of its own content?** A node, or a library,
that parses `raw_data` and writes it back gets the same transaction id only if it is.

The encoder writes the fields of every message once and by ascending number, with varints
of minimal length, so the one rule it can break is that a zero is not written. It keeps
that rule for the fee limit, by an explicit test, and not for the amount of a native
transfer nor for the clock: `canonical_iff` says that a record is canonical exactly when
neither of the two is zero. The argument goes outwards: what the reader writes back at one
level is what the level around it carries.
-/
import TxCompiler.Proto3
import TxCompiler.TronSigned

set_option autoImplicit false

namespace TxCompiler

open Rust Json Proto3

/-! ## The schema of `raw_data` -/

/-- `TransferContract`: owner, recipient and amount. -/
def transfer_schema : Schema := .cons 1 .bytes (.cons 2 .bytes (.cons 3 .int .nil))

/-- `TriggerSmartContract`: owner, contract and calldata. -/
def trigger_schema : Schema := .cons 1 .bytes (.cons 2 .bytes (.cons 4 .bytes .nil))

/-- The message a contract of the given intent carries. -/
def message_schema : TxType → Schema
  | .TransferNative => transfer_schema
  | .TransferToken => trigger_schema

/-- `Any`: the name of a type, and a message of it. -/
def any_schema (message : Schema) : Schema := .cons 1 .bytes (.cons 2 (.message message) .nil)

/-- `Contract`: its number in the enumeration, and its parameter. -/
def contract_schema (message : Schema) : Schema :=
  .cons 1 .int (.cons 2 (.message (any_schema message)) .nil)

/-- `raw_data`: the reference block, two times, the contracts and a fee limit. -/
def raw_data_schema (tx_type : TxType) : Schema :=
  .cons 1 .bytes (.cons 4 .bytes (.cons 8 .int
    (.cons 11 (.repeated (contract_schema (message_schema tx_type)))
      (.cons 14 .int (.cons 18 .int .nil)))))

/-! ## Level by level -/

/-- No operand is empty. -/
def Contract.Filled : Contract → Prop
  | .transfer owner to_ _ => owner ≠ [] ∧ to_ ≠ []
  | .trigger owner contract_address data => owner ≠ [] ∧ contract_address ≠ [] ∧ data ≠ []

/-- The intent a contract carries out. -/
def Contract.tx_type : Contract → TxType
  | .transfer .. => .TransferNative
  | .trigger .. => .TransferToken

/-- The innermost message loses its zero amount. -/
theorem rewrite_entries {c : Contract} (h : c.Filled) :
    (message_schema c.tx_type).rewrite c.entries = some (c.entries.filter written) := by
  cases c with
  | transfer owner to_ amount =>
    obtain ⟨h1, h2⟩ := h
    by_cases h0 : amount = 0 <;>
      simp [message_schema, Contract.tx_type, transfer_schema, Contract.entries, transfer_entries,
        Schema.rewrite, occurrences_cons_ne, bytes_rewrite_one, int_rewrite_one, h1, h2, h0,
        written]
  | trigger owner contract_address data =>
    obtain ⟨h1, h2, h3⟩ := h
    simp [message_schema, Contract.tx_type, trigger_schema, Contract.entries, trigger_entries,
      Schema.rewrite, occurrences_cons_ne, bytes_rewrite_one, h1, h2, h3, written]

/-- The bytes of the contract around the message that is left. -/
def Contract.canonical (c : Contract) : List UInt8 :=
  contract_bytes c.type c.url (c.entries.filter written)

theorem reserialise_any {c : Contract} (hwf : c.Wf) (h : c.Filled) :
    (any_schema (message_schema c.tx_type)).reserialise
        (Wire.serialise (any_entries c.url (Wire.serialise c.entries)))
      = some (Wire.serialise (any_entries c.url (Wire.serialise (c.entries.filter written)))) := by
  have hmessage := (@message_rewrite_one 2 _ _ _
    (reserialise_of_parse (Contract.parse_entries hwf) (rewrite_entries h))).1
  -- neither type URL is empty, so field 1 is written
  have hurl : bytes c.url ≠ [] := by
    cases c <;> simp only [Contract.url] <;> decide
  apply reserialise_of_parse (Contract.parse_any hwf)
  simp [any_schema, any_entries, Schema.rewrite, occurrences_cons_ne, bytes_rewrite_one, hurl,
    hmessage]

/-- A contract is rewritten inside out: the message, the `Any`, the contract. -/
theorem reserialise_contract {c : Contract} (hwf : c.Wf) (h : c.Filled) :
    (contract_schema (message_schema c.tx_type)).reserialise c.bytes = some c.canonical := by
  have hany := (@message_rewrite_one 2 _ _ _ (reserialise_any hwf h)).1
  have htype : c.type ≠ 0 := by
    cases c <;> simp [Contract.type]
  apply reserialise_of_parse (Contract.parse_bytes hwf)
  simp [contract_schema, contract_entries, Schema.rewrite, occurrences_cons_ne, int_rewrite_one,
    htype, hany]

/-- What the whole record is written back as. -/
def RawData.canonical (raw : RawData) : List Wire.Entry :=
  (raw_data_entries raw.ref_block_bytes raw.ref_block_hash raw.expiration raw.contract.canonical
    raw.timestamp raw.fee_limit).filter written

/-- The two parts of the block reference have their fixed lengths, so both are written. -/
theorem ref_block_ne_nil {raw : RawData} (h : raw.Wf) :
    raw.ref_block_bytes ≠ [] ∧ raw.ref_block_hash ≠ [] := by
  rw [← List.length_pos_iff, ← List.length_pos_iff, h.ref_block_bytes, h.ref_block_hash]
  decide

theorem canonical_ne_nil (c : Contract) : c.canonical ≠ [] := by
  rw [← List.length_pos_iff]
  have := Wire.length_write_pos ⟨1, .varint c.type⟩
  simp only [Contract.canonical, contract_bytes, contract_entries, Wire.serialise_cons,
    List.length_append]
  omega

/-- The canonical form of `raw_data`. Only three of its integers can be zero: the clock, the fee
limit and the amount inside the contract. -/
theorem reserialise_raw {raw : RawData} (hwf : raw.Wf) (h : raw.contract.Filled)
    (hexp : raw.expiration ≠ 0) :
    (raw_data_schema raw.contract.tx_type).reserialise raw.bytes
      = some (Wire.serialise raw.canonical) := by
  have hcontract := (@message_rewrite_one 11 _ _ _ (reserialise_contract hwf.contract h)).2
  obtain ⟨hbytes, hhash⟩ := ref_block_ne_nil hwf
  apply reserialise_of_parse (RawData.parse_bytes hwf)
  by_cases ht : raw.timestamp = 0 <;> by_cases hl : raw.fee_limit = 0 <;>
    simp [raw_data_schema, RawData.entries, RawData.canonical, raw_data_entries, Schema.rewrite,
      occurrences_cons_ne, bytes_rewrite_one, int_rewrite_one, int_rewrite_none, hbytes, hhash,
      hexp, ht, hl, hcontract, canonical_ne_nil, written]

/-! ## When nothing is left out -/

theorem length_canonical_lt {c : Contract} (h : c.Wf) : c.canonical.length < 2 ^ 62 := by
  have h1 := Contract.length_entries_lt h
  have h2 := length_serialise_filter_le c.entries written
  have h3 := @length_contract_bytes_le _ _ (c.entries.filter written) c.type_lt c.len_url_le
    (by omega)
  rw [Contract.canonical]
  omega

/-- A contract is canonical unless it moves the amount zero. -/
theorem canonical_eq_bytes_iff {c : Contract} (hwf : c.Wf) (h : c.Filled) :
    c.canonical = c.bytes ↔ (c.tx_type = .TransferNative → c.amount ≠ 0) := by
  have hfilter : c.canonical = c.bytes ↔ c.entries.filter written = c.entries := by
    constructor
    · intro heq
      have h1 := Contract.length_entries_lt hwf
      have h2 := length_serialise_filter_le c.entries written
      -- the two contracts differ in the message only, and the message is read back
      obtain ⟨-, hmessage⟩ := contract_bytes_inj c.type_lt c.type_lt c.len_url_le c.len_url_le
        (by omega) h1 heq
      exact Wire.serialise_inj
        (fun e he => Contract.wf_entries hwf e (List.mem_of_mem_filter he))
        (Contract.wf_entries hwf) hmessage
    · intro heq
      rw [Contract.canonical, heq, Contract.bytes]
  rw [hfilter, List.filter_eq_self]
  cases c with
  | transfer owner to_ amount =>
    obtain ⟨h1, h2⟩ := h
    simp [Contract.entries, transfer_entries, written, Contract.tx_type, Contract.amount, h1, h2]
  | trigger owner contract_address data =>
    obtain ⟨h1, h2, h3⟩ := h
    simp [Contract.entries, trigger_entries, written, Contract.tx_type, h1, h2, h3]

/-- The record is its own canonical form exactly when its clock and its native amount are
not zero. -/
theorem canonical_eq_entries_iff {raw : RawData} (hwf : raw.Wf) (h : raw.contract.Filled)
    (hexp : raw.expiration ≠ 0) :
    raw.canonical = raw.entries ↔ raw.timestamp ≠ 0 ∧
      (raw.contract.tx_type = .TransferNative → raw.contract.amount ≠ 0) := by
  obtain ⟨hbytes, hhash⟩ := ref_block_ne_nil hwf
  rw [← canonical_eq_bytes_iff hwf.contract h]
  unfold RawData.canonical RawData.entries
  by_cases ht : raw.timestamp = 0
  · have hlen : ∀ contract,
        (raw_data_entries raw.ref_block_bytes raw.ref_block_hash raw.expiration contract 0
          raw.fee_limit).length
        = 5 + (if raw.fee_limit = 0 then []
          else [Wire.Entry.mk 18 (.varint raw.fee_limit)]).length := by
      intro contract
      simp [raw_data_entries]
      omega
    -- with a zero clock the filter drops field 14, so the two lists differ in length; the length
    -- does not depend on the contract, which is what differs elsewhere
    rw [ht]
    simp only [ne_eq, not_true_eq_false, false_and, iff_false]
    intro heq
    have hfilter := congrArg List.length heq
    rw [hlen raw.contract.bytes, ← hlen raw.contract.canonical,
      List.length_filter_eq_length_iff] at hfilter
    exact absurd (hfilter ⟨14, .varint 0⟩ (by simp [raw_data_entries])) (by decide)
  · have hall : ∀ e ∈ raw_data_entries raw.ref_block_bytes raw.ref_block_hash raw.expiration
        raw.contract.canonical raw.timestamp raw.fee_limit, written e = true := by
      by_cases hl : raw.fee_limit = 0 <;>
        simp [raw_data_entries, written, hbytes, hhash, hexp, ht, hl, canonical_ne_nil]
    -- nothing at this level is dropped: only the contract can differ
    rw [List.filter_eq_self.2 hall]
    simp [raw_data_entries, ht]

theorem wf_canonical {raw : RawData} (h : raw.Wf) : ∀ e ∈ raw.canonical, e.Wf := by
  intro e he
  have hlen := length_canonical_lt h.contract
  exact wf_raw_data_entries h.ref_block_bytes h.ref_block_hash h.expiration (by omega)
    h.timestamp h.fee_limit e (List.mem_of_mem_filter he)

/-! ## The artefact -/

section Artefact

variable {cr : Crates} {v : Value} {p : PreparedTransaction} {t : UInt64}
  {res : CompilationResult}

/-- Reading the artefact and writing it back by the proto3 rules gives the same bytes, of
which the transaction id is the digest. -/
def IsCanonical (cr : Crates) (tx_type : TxType) (res : CompilationResult) : Prop :=
  ∃ raw canonical, artefact_bytes res.unsigned_tx = some raw ∧
    (raw_data_schema tx_type).reserialise raw = some canonical ∧ canonical = raw ∧
      res.tx_hash = "0x" ++ cr.hex_encode (cr.sha256 canonical).val

/-- No address of a contract is empty, and neither is its calldata. -/
theorem contract_filled {parts : TronParts} (hp : parts.Of cr p) :
    (parts.contract p).Filled := by
  have hne : ∀ {address : String} {bs : List UInt8}, SpellsTron cr address bs → bs ≠ [] := by
    intro address bs h h0
    have hlen := h.1.1
    rw [h0] at hlen
    exact absurd hlen (by decide)
  unfold TronParts.contract
  cases htx : p.tx_type with
  | TransferNative => exact ⟨hne hp.owner, hne hp.to_⟩
  | TransferToken =>
    obtain ⟨token, -, htoken⟩ := hp.token htx
    refine ⟨hne hp.owner, hne htoken, ?_⟩
    simp [transfer_calldata, ERC20_TRANSFER_SELECTOR_BYTES]

theorem contract_tx_type (parts : TronParts) (p : PreparedTransaction) :
    (parts.contract p).tx_type = p.tx_type := by
  unfold TronParts.contract
  cases p.tx_type <;> rfl

theorem result_canonical_iff (hhex : HexLaws cr) {parts : TronParts} (hp : parts.Of cr p)
    (hwf : (parts.raw p t.toNat).Wf) :
    IsCanonical cr p.tx_type (tron_result cr p (parts.raw p t.toNat)) ↔
      t ≠ 0 ∧ (p.tx_type = .TransferNative → decimal_value p.value_wei ≠ 0) := by
  have hraw := reserialise_raw hwf (contract_filled hp) (Nat.succ_ne_zero _)
  have hiff := canonical_eq_entries_iff hwf (contract_filled hp) (Nat.succ_ne_zero _)
  have htype := contract_tx_type parts p
  have hamount : (p.tx_type = .TransferNative → (parts.contract p).amount ≠ 0) ↔
      (p.tx_type = .TransferNative → decimal_value p.value_wei ≠ 0) := by
    unfold TronParts.contract
    cases p.tx_type <;> simp [Contract.amount]
  -- the statement speaks of the clock as a `u64`, the record of its number
  have ht : t.toNat ≠ 0 ↔ t ≠ 0 := by
    rw [ne_eq, ne_eq, ← UInt64.toNat_inj]
    rfl
  rw [show (parts.raw p t.toNat).contract.tx_type = p.tx_type from htype] at hraw hiff
  rw [show (parts.raw p t.toNat).timestamp = t.toNat from rfl, ht,
    show (parts.raw p t.toNat).contract.amount = (parts.contract p).amount from rfl,
    hamount] at hiff
  rw [← hiff]
  constructor
  · rintro ⟨raw, canonical, hbytes, hcanonical, rfl, -⟩
    rw [tron_result, artefact_bytes_encode hhex, Option.some.injEq] at hbytes
    rw [← hbytes, hraw, Option.some.injEq] at hcanonical
    exact Wire.serialise_inj (wf_canonical hwf) (RawData.wf_entries hwf) hcanonical
  · intro heq
    refine ⟨_, _, artefact_bytes_encode hhex _, hraw, ?_, ?_⟩
    · rw [heq]
      rfl
    · rw [heq]
      rfl

/-- **When the artefact is canonical.** The clock must not be zero, and neither must the
amount of a native transfer; a zero fee limit is left out as the rules ask. -/
theorem canonical_iff (hhex : HexLaws cr) (hu256 : U256Laws cr) (h : validate cr v = .ok p)
    (hc : p.chain = .Tron) (hres : compile cr p (.with_now t) = .ok res) :
    IsCanonical cr p.tx_type res ↔
      t ≠ 0 ∧ (p.tx_type = .TransferNative → decimal_value p.value_wei ≠ 0) := by
  obtain ⟨-, hv⟩ := (validate_eq_ok hhex).1 h
  obtain ⟨parts, hp, hwf, -, rfl⟩ := tron_artefact hhex hu256 hv hc hres
  exact result_canonical_iff hhex hp hwf

theorem tron_native_canonical :
    ∃ res, compile reference (tron_native "5000000" none) (.with_now sample_now) = .ok res ∧
      IsCanonical reference .TransferNative res := by
  obtain ⟨res, hres⟩ := reference_compiles (t := sample_now) validate_tron_native
    (by decide) (by decide)
  exact ⟨res, hres, (canonical_iff reference_hex reference_u256 validate_tron_native rfl hres).2
    ⟨by decide, fun _ => by decide⟩⟩

/-- A transfer of zero is accepted, and its amount is written out as `18 00`. -/
theorem tron_zero_not_canonical :
    ∃ (p : PreparedTransaction) (res : CompilationResult),
      validate reference (tron_native_payload "0" .null) = .ok p ∧ p.chain = .Tron ∧
        compile reference p (.with_now sample_now) = .ok res ∧
          ¬ IsCanonical reference p.tx_type res := by
  have hvalid : validate reference (tron_native_payload "0" .null) = .ok (tron_native "0" none) :=
    eq_ok_of_toOption (by decide)
  obtain ⟨res, hres⟩ := reference_compiles (t := sample_now) hvalid (by decide) (by decide)
  obtain ⟨-, hv⟩ := (validate_eq_ok reference_hex).1 hvalid
  obtain ⟨parts, hp, hwf, -, rfl⟩ := tron_artefact reference_hex reference_u256 hv rfl hres
  refine ⟨_, _, hvalid, rfl, hres, ?_⟩
  rw [result_canonical_iff reference_hex hp hwf]
  rintro ⟨-, hamount⟩
  have hzero : decimal_value "0" = 0 := by decide
  exact hamount rfl hzero

end Artefact

end TxCompiler
