/-
`Transaction.raw_data` as a value: what the crate's protobuf encoder is given, less the
bytes.

A `Contract` is one of the two messages the crate builds and a `RawData` is the whole
record. `RawData.bytes` is what `encode_raw_data` returns for it, and reading those bytes
with the generic wire reader gives back the entries at each of the four levels
(`RawData.parse_bytes` and below). The encoding is injective (`RawData.bytes_inj`): two
records with the same bytes are the same record.
-/
import TxCompiler.TronProto

set_option autoImplicit false

namespace TxCompiler

open Rust

/-! ## The envelope of a message -/

theorem wf_any_entries {full_url : String} {value : List UInt8} (hurl : len full_url ≤ 100)
    (hv : value.length < 2 ^ 64) : ∀ e ∈ any_entries full_url value, e.Wf := by
  simp [any_entries, Wire.Entry.Wf]
  omega

theorem wf_contract_entries {contract_type : ℕ} {any : List UInt8} (htype : contract_type < 2 ^ 64)
    (hany : any.length < 2 ^ 64) : ∀ e ∈ contract_entries contract_type any, e.Wf := by
  simp [contract_entries, Wire.Entry.Wf]
  omega

theorem wf_transfer_entries {owner to_ : List UInt8} {amount : ℕ} (howner : owner.length < 2 ^ 64)
    (hto : to_.length < 2 ^ 64) (hamount : amount < 2 ^ 64) :
    ∀ e ∈ transfer_entries owner to_ amount, e.Wf := by
  simp [transfer_entries, Wire.Entry.Wf]
  omega

theorem wf_trigger_entries {owner contract_address data : List UInt8}
    (howner : owner.length < 2 ^ 64) (hcontract : contract_address.length < 2 ^ 64)
    (hdata : data.length < 2 ^ 64) : ∀ e ∈ trigger_entries owner contract_address data, e.Wf := by
  simp [trigger_entries, Wire.Entry.Wf]
  omega

/-- Equal envelopes are of one type and carry one message. -/
theorem contract_bytes_inj {contract_type contract_type' : ℕ} {full_url full_url' : String}
    {es es' : List Wire.Entry} (htype : contract_type < 2 ^ 64) (htype' : contract_type' < 2 ^ 64)
    (hurl : len full_url ≤ 100) (hurl' : len full_url' ≤ 100)
    (hlen : (Wire.serialise es).length < 2 ^ 61) (hlen' : (Wire.serialise es').length < 2 ^ 61)
    (h : contract_bytes contract_type full_url es = contract_bytes contract_type' full_url' es') :
    contract_type = contract_type' ∧ Wire.serialise es = Wire.serialise es' := by
  have hany := length_any_le hurl (show (Wire.serialise es).length < 2 ^ 62 by omega)
  have hany' := length_any_le hurl' (show (Wire.serialise es').length < 2 ^ 62 by omega)
  -- level by level: the `Contract`, then the `Any` in it
  have hcontract := Wire.serialise_inj (wf_contract_entries htype (by omega))
    (wf_contract_entries htype' (by omega)) h
  simp only [contract_entries, List.cons.injEq, Wire.Entry.mk.injEq, Wire.Payload.varint.injEq,
    Wire.Payload.len.injEq, true_and, and_true] at hcontract
  obtain ⟨heq, hinner⟩ := hcontract
  have hmessage := Wire.serialise_inj (wf_any_entries hurl (by omega))
    (wf_any_entries hurl' (by omega)) hinner
  simp only [any_entries, List.cons.injEq, Wire.Entry.mk.injEq, Wire.Payload.len.injEq,
    true_and, and_true] at hmessage
  exact ⟨heq, hmessage.2⟩

/-! ## The contract -/

/-- `TransferContract` and `TriggerSmartContract`. -/
inductive Contract where
  | transfer (owner to_ : List UInt8) (amount : ℕ)
  | trigger (owner contract_address data : List UInt8)
  deriving DecidableEq

namespace Contract

/-- The number of the contract in the enumeration. -/
def type : Contract → ℕ
  | .transfer .. => 1
  | .trigger .. => 31

/-- The name of its message type. -/
def url : Contract → String
  | .transfer .. => TRANSFER_URL
  | .trigger .. => TRIGGER_URL

/-- The entries of its message. -/
def entries : Contract → List Wire.Entry
  | .transfer owner to_ amount => transfer_entries owner to_ amount
  | .trigger owner contract_address data => trigger_entries owner contract_address data

/-- The bytes of the `Contract` message around it. -/
def bytes (c : Contract) : List UInt8 := contract_bytes c.type c.url c.entries

/-- The operands have sizes the format can express; the crate's own are below 100 bytes. -/
def Wf : Contract → Prop
  | .transfer owner to_ amount => owner.length + to_.length < 2 ^ 60 ∧ amount < 2 ^ 64
  | .trigger owner contract_address data =>
    owner.length + contract_address.length + data.length < 2 ^ 60

theorem type_lt (c : Contract) : c.type < 2 ^ 64 := by
  cases c <;> simp only [type] <;> decide

theorem len_url_le (c : Contract) : len c.url ≤ 100 := by
  cases c <;> simp only [url] <;> decide

theorem length_entries_lt {c : Contract} (h : c.Wf) :
    (Wire.serialise c.entries).length < 2 ^ 61 := by
  cases c with
  | transfer owner to_ amount =>
    have := length_transfer_le (show owner.length + to_.length < 2 ^ 61 from by
      have := h.1
      omega) h.2
    have h1 := h.1
    simp only [entries]
    omega
  | trigger owner contract_address data =>
    simp only [Wf] at h
    have := length_trigger_le
      (show owner.length + contract_address.length + data.length < 2 ^ 61 by omega)
    simp only [entries]
    omega

theorem length_bytes_lt {c : Contract} (h : c.Wf) : c.bytes.length < 2 ^ 62 := by
  have h1 := length_entries_lt h
  have h2 := length_contract_bytes_le c.type_lt c.len_url_le h1
  rw [bytes]
  omega

theorem wf_entries {c : Contract} (h : c.Wf) : ∀ e ∈ c.entries, e.Wf := by
  cases c with
  | transfer owner to_ amount =>
    obtain ⟨h1, h2⟩ := h
    exact wf_transfer_entries (by omega) (by omega) h2
  | trigger owner contract_address data =>
    simp only [Wf] at h
    exact wf_trigger_entries (by omega) (by omega) (by omega)

/-- The message in the `Any`. -/
theorem parse_entries {c : Contract} (h : c.Wf) :
    Wire.parse (Wire.serialise c.entries) = some c.entries :=
  Wire.parse_serialise (wf_entries h)

/-- The `Any`: the type URL and the message. -/
theorem parse_any {c : Contract} (h : c.Wf) :
    Wire.parse (Wire.serialise (any_entries c.url (Wire.serialise c.entries)))
      = some (any_entries c.url (Wire.serialise c.entries)) := by
  have hlen := length_entries_lt h
  exact Wire.parse_serialise (wf_any_entries c.len_url_le (by omega))

/-- The `Contract`: its type and the `Any`. -/
theorem parse_bytes {c : Contract} (h : c.Wf) :
    Wire.parse c.bytes = some (contract_entries c.type
      (Wire.serialise (any_entries c.url (Wire.serialise c.entries)))) := by
  have hlen := length_entries_lt h
  have hany := length_any_le c.len_url_le (show (Wire.serialise c.entries).length < 2 ^ 62 by omega)
  exact Wire.parse_serialise (wf_contract_entries c.type_lt (by omega))

theorem entries_inj {c d : Contract} (htype : c.type = d.type) (h : c.entries = d.entries) :
    c = d := by
  cases c <;> cases d <;> simp_all [entries, type, transfer_entries, trigger_entries]

theorem bytes_inj {c d : Contract} (hc : c.Wf) (hd : d.Wf) (h : c.bytes = d.bytes) : c = d := by
  obtain ⟨htype, hmessage⟩ := contract_bytes_inj c.type_lt d.type_lt c.len_url_le d.len_url_le
    (length_entries_lt hc) (length_entries_lt hd) h
  exact entries_inj htype (Wire.serialise_inj (wf_entries hc) (wf_entries hd) hmessage)

end Contract

/-- The six fields, around a contract of any bytes. -/
theorem wf_raw_data_entries {ref_block_bytes ref_block_hash contract : List UInt8}
    {expiration timestamp fee_limit : ℕ} (hbytes : ref_block_bytes.length = 2)
    (hhash : ref_block_hash.length = 8) (hexp : expiration < 2 ^ 64)
    (hcontract : contract.length < 2 ^ 64) (htime : timestamp < 2 ^ 64)
    (hfee : fee_limit < 2 ^ 64) : ∀ e ∈ raw_data_entries ref_block_bytes ref_block_hash expiration
      contract timestamp fee_limit, e.Wf := by
  intro e he
  simp only [raw_data_entries, List.mem_append, List.mem_cons, List.not_mem_nil,
    or_false] at he
  rcases he with (rfl | rfl | rfl | rfl | rfl) | he
  · simp [Wire.Entry.Wf, hbytes]
  · simp [Wire.Entry.Wf, hhash]
  · simpa [Wire.Entry.Wf] using hexp
  · simp [Wire.Entry.Wf]; omega
  · simpa [Wire.Entry.Wf] using htime
  · -- the sixth field is there only when the limit is not zero
    split at he
    · simp at he
    · rw [List.mem_singleton.1 he]
      simpa [Wire.Entry.Wf] using hfee

/-- `Transaction.raw_data`; a fee limit of zero is an absent one. -/
structure RawData where
  ref_block_bytes : List UInt8
  ref_block_hash : List UInt8
  expiration : ℕ
  contract : Contract
  timestamp : ℕ
  fee_limit : ℕ
  deriving DecidableEq

namespace RawData

def entries (raw : RawData) : List Wire.Entry :=
  raw_data_entries raw.ref_block_bytes raw.ref_block_hash raw.expiration raw.contract.bytes
    raw.timestamp raw.fee_limit

def bytes (raw : RawData) : List UInt8 := Wire.serialise raw.entries

/-- Numbers that fit their fields, and a reference of the right length. -/
structure Wf (raw : RawData) : Prop where
  ref_block_bytes : raw.ref_block_bytes.length = 2
  ref_block_hash : raw.ref_block_hash.length = 8
  expiration : raw.expiration < 2 ^ 64
  contract : raw.contract.Wf
  timestamp : raw.timestamp < 2 ^ 64
  fee_limit : raw.fee_limit < 2 ^ 64

theorem wf_entries {raw : RawData} (h : raw.Wf) : ∀ e ∈ raw.entries, e.Wf := by
  have hlen := Contract.length_bytes_lt h.contract
  exact wf_raw_data_entries h.ref_block_bytes h.ref_block_hash h.expiration (by omega)
    h.timestamp h.fee_limit

theorem parse_bytes {raw : RawData} (h : raw.Wf) : Wire.parse raw.bytes = some raw.entries :=
  Wire.parse_serialise (wf_entries h)

/-- **One encoding, one record.** The entries are compared level by level; the number of
them tells an absent fee limit from a present one. -/
theorem bytes_inj {raw raw' : RawData} (h : raw.Wf) (h' : raw'.Wf) (heq : raw.bytes = raw'.bytes) :
    raw = raw' := by
  have hparse := parse_bytes h
  rw [heq, parse_bytes h'] at hparse
  obtain ⟨r1, r2, r3, c, r5, r6⟩ := raw
  obtain ⟨s1, s2, s3, d, s5, s6⟩ := raw'
  have hcontract := @Contract.bytes_inj c d h.contract h'.contract
  simp only [entries, raw_data_entries, Option.some.injEq, List.cons_append, List.nil_append,
    List.cons.injEq, Wire.Entry.mk.injEq, Wire.Payload.varint.injEq, Wire.Payload.len.injEq,
    true_and] at hparse
  obtain ⟨h1, h2, h3, h4, h5, h6⟩ := hparse
  -- the lists have five or six entries, so both limits are zero or neither is
  have hlimit : s6 = r6 := by
    by_cases hs : s6 = 0 <;> by_cases hr : r6 = 0 <;> simp_all
  rw [mk.injEq]
  exact ⟨h1.symm, h2.symm, h3.symm, hcontract h4.symm, h5.symm, hlimit.symm⟩

/-- An artefact starts with the key of field 1, at wire type 2. -/
theorem bytes_head (raw : RawData) : ∃ rest, raw.bytes = 0x0a :: rest := by
  simp only [bytes, entries, raw_data_entries, List.cons_append, Wire.serialise_cons,
    Wire.Entry.write]
  rw [Wire.varint_of_lt (show 1 * 8 + 2 < 128 by decide)]
  exact ⟨_, rfl⟩

end RawData

end TxCompiler
