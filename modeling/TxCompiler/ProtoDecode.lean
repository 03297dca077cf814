/-
**The hand-written writers are uniquely decodable**, for operands of every size a vector can
have.

`RawData` relates the encoders to the wire reader for operands below `2 ^ 60`, which covers
every message the crate builds. Here there is no such bound: the encoders are taken at their
exact specification (`encode_transfer_contract_eq_ok` and its two siblings), which says when
the buffers can be had and what is then returned. `ReadsAs` is what a generic reader makes of
the bytes of a `Contract`, level by level: the `Contract`, the `Any` in it, the message in
that. It determines the message, so two calls that return the same bytes were given the same
operands.

The two contract encoders return whenever their message is shorter than `2 ^ 63`, although
they ask for capacities: every estimate is below the length of what is written
(`Contract.fits_of_length`). `encode_raw_data` asks for `96` bytes more than its contract has,
which can be more than it writes, so there the capacity is the condition.
-/
import TxCompiler.RawData

set_option autoImplicit false

namespace TxCompiler

open Rust

/-! ## Reading a contract -/

/-- What a generic reader makes of the bytes: the message, at each of the three levels. -/
def ReadsAs (bs : List UInt8) (c : Contract) : Prop :=
  ∃ any message : List UInt8,
    Wire.parse bs = some [⟨1, .varint c.type⟩, ⟨2, .len any⟩] ∧
    Wire.parse any = some [⟨1, .len (bytes c.url)⟩, ⟨2, .len message⟩] ∧
    Wire.parse message = some c.entries

theorem ReadsAs.unique {bs : List UInt8} {c d : Contract} (hc : ReadsAs bs c)
    (hd : ReadsAs bs d) : c = d := by
  obtain ⟨any, message, h1, h2, h3⟩ := hc
  obtain ⟨any', message', h1', h2', h3'⟩ := hd
  rw [h1] at h1'
  simp only [Option.some.injEq, List.cons.injEq, Wire.Entry.mk.injEq, Wire.Payload.varint.injEq,
    Wire.Payload.len.injEq, true_and, and_true] at h1'
  obtain ⟨htype, rfl⟩ := h1'
  rw [h2] at h2'
  simp only [Option.some.injEq, List.cons.injEq, Wire.Entry.mk.injEq, Wire.Payload.len.injEq,
    true_and, and_true] at h2'
  obtain ⟨-, rfl⟩ := h2'
  rw [h3] at h3'
  exact Contract.entries_inj htype (Option.some.inj h3')

/-- A contract that fits its buffers is read back. -/
theorem Contract.readsAs {c : Contract} (hentries : ∀ e ∈ c.entries, e.Wf)
    (hfits : FitsContract c.url (Wire.serialise c.entries)) : ReadsAs c.bytes c := by
  obtain ⟨hvalue, hany⟩ := hfits
  have hurl := c.len_url_le
  exact ⟨_, _, Wire.parse_serialise (wf_contract_entries c.type_lt (by omega)),
    Wire.parse_serialise (wf_any_entries hurl (by omega)), Wire.parse_serialise hentries⟩

/-! ## The capacities -/

/-- Seven bits a byte: from `2 ^ 56` on a length takes nine bytes. -/
theorem nine_le_length_varint {n : ℕ} (h : 2 ^ 56 ≤ n) : 9 ≤ (Wire.varint n).length := by
  have hsize : 56 < Nat.size n := Nat.lt_size.2 h
  rw [Wire.length_varint, Nat.ceilDiv_eq_add_pred_div]
  omega

theorem Contract.length_bytes (c : Contract) : ∃ any : List UInt8,
    any = Wire.serialise (any_entries c.url (Wire.serialise c.entries)) ∧
    c.bytes.length = 3 + (Wire.varint any.length).length + any.length ∧
    any.length = 3 + len c.url + (Wire.varint (Wire.serialise c.entries).length).length
      + (Wire.serialise c.entries).length := by
  have hone : ∀ n, n < 128 → (Wire.varint n).length = 1 := by
    intro n hn
    rw [Wire.varint_of_lt hn, List.length_singleton]
  have htype : c.type < 128 := by
    cases c <;> simp only [Contract.type] <;> decide
  have hurl : len c.url < 128 := by
    have := c.len_url_le
    omega
  refine ⟨_, rfl, ?_, ?_⟩
  · simp only [Contract.bytes, contract_bytes, contract_entries, Wire.serialise_cons,
      Wire.serialise_nil, Wire.Entry.write, List.append_nil, List.length_append]
    rw [hone (1 * 8) (by decide), hone c.type htype, hone (2 * 8 + 2) (by decide)]
    omega
  · simp only [any_entries, Wire.serialise_cons, Wire.serialise_nil, Wire.Entry.write,
      List.append_nil, List.length_append, Rust.length_bytes]
    rw [hone (1 * 8 + 2) (by decide), hone (len c.url) hurl, hone (2 * 8 + 2) (by decide)]
    omega

/-- **No capacity is over-estimated**: a message that can be written has room for what the
three buffers ask for. -/
theorem Contract.fits_of_length {c : Contract} (h : c.bytes.length < 2 ^ 63) :
    32 + (Wire.serialise c.entries).length < 2 ^ 63 ∧
      FitsContract c.url (Wire.serialise c.entries) := by
  obtain ⟨any, hany, hbytes, hlen⟩ := c.length_bytes
  have hurl : 45 ≤ len c.url := by
    cases c <;> simp only [Contract.url] <;> decide
  have hle := c.len_url_le
  refine ⟨by omega, ?_, ?_⟩
  · by_contra hge
    -- so long a value makes both lengths nine bytes long
    have h1 := nine_le_length_varint (n := (Wire.serialise c.entries).length) (by omega)
    have h2 := nine_le_length_varint (n := any.length) (by omega)
    omega
  · rw [← hany]
    by_contra hge
    have h2 := nine_le_length_varint (n := any.length) (by omega)
    omega

/-! ## The three writers -/

theorem le_length_transfer (owner to_ : List UInt8) (amount : ℕ) :
    owner.length + to_.length ≤ (Wire.serialise (transfer_entries owner to_ amount)).length := by
  simp only [transfer_entries, Wire.serialise_cons, Wire.serialise_nil, Wire.Entry.write,
    List.append_nil, List.length_append]
  omega

theorem le_length_trigger (owner contract_address data : List UInt8) :
    owner.length + contract_address.length + data.length
      ≤ (Wire.serialise (trigger_entries owner contract_address data)).length := by
  simp only [trigger_entries, Wire.serialise_cons, Wire.serialise_nil, Wire.Entry.write,
    List.append_nil, List.length_append]
  omega

theorem encode_transfer_contract_reads {owner to_ bs : List UInt8} {amount : UInt64}
    (h : encode_transfer_contract owner to_ amount = .ok bs) :
    ReadsAs bs (.transfer owner to_ amount.toNat) := by
  obtain ⟨hcap, hfits, rfl⟩ := encode_transfer_contract_eq_ok.1 h
  have hwf : ∀ e ∈ (Contract.transfer owner to_ amount.toNat).entries, e.Wf :=
    wf_transfer_entries (by omega) (by omega) amount.toNat_lt
  exact Contract.readsAs hwf hfits

theorem encode_trigger_smart_contract_reads {owner contract_address data bs : List UInt8}
    (h : encode_trigger_smart_contract owner contract_address data = .ok bs) :
    ReadsAs bs (.trigger owner contract_address data) := by
  obtain ⟨hcap, hfits, rfl⟩ := encode_trigger_smart_contract_eq_ok.1 h
  have hwf : ∀ e ∈ (Contract.trigger owner contract_address data).entries, e.Wf :=
    wf_trigger_entries (by omega) (by omega) (by omega)
  exact Contract.readsAs hwf hfits

theorem fee_limit_value (limit : Option UInt64) :
    limit.elim 0 UInt64.toNat = (limit.getD 0).toNat := by
  cases limit <;> rfl

theorem encode_raw_data_reads {params : RawDataParams} {bs : List UInt8}
    (h : encode_raw_data params = .ok bs) : Wire.parse bs = some params.entries := by
  obtain ⟨hcap, rfl⟩ := encode_raw_data_eq_ok.1 h
  have hfee : params.fee_limit.elim 0 UInt64.toNat < 2 ^ 64 := by
    rw [fee_limit_value]
    exact (params.fee_limit.getD 0).toNat_lt
  apply Wire.parse_serialise
  exact wf_raw_data_entries params.ref_block_bytes.property params.ref_block_hash.property
    params.expiration.toNat_lt (by omega) params.timestamp.toNat_lt hfee

/-- The same record, when no fee limit and a limit of zero are one. -/
structure SameRecord (p q : RawDataParams) : Prop where
  ref_block_bytes : p.ref_block_bytes = q.ref_block_bytes
  ref_block_hash : p.ref_block_hash = q.ref_block_hash
  expiration : p.expiration = q.expiration
  timestamp : p.timestamp = q.timestamp
  contract : p.contract = q.contract
  fee_limit : p.fee_limit.getD 0 = q.fee_limit.getD 0

theorem SameRecord.entries_eq {p q : RawDataParams} (h : SameRecord p q) :
    p.entries = q.entries := by
  simp only [RawDataParams.entries, fee_limit_value, h.ref_block_bytes, h.ref_block_hash,
    h.expiration, h.timestamp, h.contract, h.fee_limit]

/-- The entries determine the record. -/
theorem RawDataParams.entries_inj {p q : RawDataParams} (h : p.entries = q.entries) :
    SameRecord p q := by
  simp only [RawDataParams.entries, raw_data_entries, List.cons_append, List.nil_append,
    List.cons.injEq, Wire.Entry.mk.injEq, Wire.Payload.varint.injEq, Wire.Payload.len.injEq,
    true_and, fee_limit_value] at h
  obtain ⟨h1, h4, h8, h11, h14, h18⟩ := h
  -- field 18 is there in both or in neither
  have hlimit : (p.fee_limit.getD 0).toNat = (q.fee_limit.getD 0).toNat := by
    by_cases hp : (p.fee_limit.getD 0).toNat = 0 <;>
    by_cases hq : (q.fee_limit.getD 0).toNat = 0 <;> simp_all
  exact ⟨Subtype.ext h1, Subtype.ext h4, UInt64.toNat_inj.1 h8, UInt64.toNat_inj.1 h14, h11,
    UInt64.toNat_inj.1 hlimit⟩

/-- The writer of a native transfer returns whenever its message can be had. -/
theorem encode_transfer_contract_returns {owner to_ : List UInt8} {amount : UInt64}
    (h : (Contract.transfer owner to_ amount.toNat).bytes.length < 2 ^ 63) :
    ∃ bs, encode_transfer_contract owner to_ amount = .ok bs := by
  obtain ⟨hcap, hfits⟩ := Contract.fits_of_length h
  have hle := le_length_transfer owner to_ amount.toNat
  simp only [Contract.entries] at hcap
  exact ⟨_, encode_transfer_contract_eq_ok.2 ⟨by omega, hfits, rfl⟩⟩

theorem encode_trigger_smart_contract_returns {owner contract_address data : List UInt8}
    (h : (Contract.trigger owner contract_address data).bytes.length < 2 ^ 63) :
    ∃ bs, encode_trigger_smart_contract owner contract_address data = .ok bs := by
  obtain ⟨hcap, hfits⟩ := Contract.fits_of_length h
  have hle := le_length_trigger owner contract_address data
  simp only [Contract.entries] at hcap
  exact ⟨_, encode_trigger_smart_contract_eq_ok.2 ⟨by omega, hfits, rfl⟩⟩

/-- Two runs that wrote the same record were given the same record. -/
theorem encode_raw_data_eq_ok_iff_same {p q : RawDataParams} {bs : List UInt8}
    (h : encode_raw_data p = .ok bs) : encode_raw_data q = .ok bs ↔ SameRecord q p := by
  constructor
  · intro h'
    have hreads := encode_raw_data_reads h'
    rw [encode_raw_data_reads h] at hreads
    exact RawDataParams.entries_inj (Option.some.inj hreads).symm
  · intro hsame
    obtain ⟨hcap, rfl⟩ := encode_raw_data_eq_ok.1 h
    apply encode_raw_data_eq_ok.2
    rw [hsame.contract, hsame.entries_eq]
    exact ⟨hcap, rfl⟩

/-- **Unique decoding.** Whatever the operands, what a writer returns is read back entry by
entry, at every level, and what is read determines the operands. -/
theorem writers_uniquely_decodable :
    (∀ owner to_ amount,
      ((Contract.transfer owner to_ amount.toNat).bytes.length < 2 ^ 63 →
        ∃ bs, encode_transfer_contract owner to_ amount = .ok bs) ∧
      ∀ bs, encode_transfer_contract owner to_ amount = .ok bs →
        ReadsAs bs (.transfer owner to_ amount.toNat) ∧
        (∀ owner' to_' amount', encode_transfer_contract owner' to_' amount' = .ok bs →
          owner' = owner ∧ to_' = to_ ∧ amount' = amount) ∧
        ∀ owner' contract_address data,
          encode_trigger_smart_contract owner' contract_address data ≠ .ok bs) ∧
    (∀ owner contract_address data,
      ((Contract.trigger owner contract_address data).bytes.length < 2 ^ 63 →
        ∃ bs, encode_trigger_smart_contract owner contract_address data = .ok bs) ∧
      ∀ bs, encode_trigger_smart_contract owner contract_address data = .ok bs →
        ReadsAs bs (.trigger owner contract_address data) ∧
        ∀ owner' contract_address' data',
          encode_trigger_smart_contract owner' contract_address' data' = .ok bs →
            owner' = owner ∧ contract_address' = contract_address ∧ data' = data) ∧
    ∀ params,
      ((∃ bs, encode_raw_data params = .ok bs) ↔ 96 + params.contract.length < 2 ^ 63) ∧
      ∀ bs, encode_raw_data params = .ok bs →
        Wire.parse bs = some params.entries ∧
        ∀ params', encode_raw_data params' = .ok bs ↔ SameRecord params' params := by
  refine ⟨?_, ?_, ?_⟩
  · intro owner to_ amount
    refine ⟨encode_transfer_contract_returns, ?_⟩
    intro bs h
    have hreads := encode_transfer_contract_reads h
    refine ⟨hreads, ?_, ?_⟩
    · intro owner' to_' amount' h'
      have heq := (encode_transfer_contract_reads h').unique hreads
      simp only [Contract.transfer.injEq, UInt64.toNat_inj] at heq
      exact heq
    · intro owner' contract_address data h'
      -- the contract types differ
      have heq := (encode_trigger_smart_contract_reads h').unique hreads
      simp at heq
  · intro owner contract_address data
    refine ⟨encode_trigger_smart_contract_returns, ?_⟩
    intro bs h
    have hreads := encode_trigger_smart_contract_reads h
    refine ⟨hreads, ?_⟩
    intro owner' contract_address' data' h'
    have heq := (encode_trigger_smart_contract_reads h').unique hreads
    simp only [Contract.trigger.injEq] at heq
    exact heq
  · intro params
    refine ⟨?_, ?_⟩
    · simp only [encode_raw_data_eq_ok, exists_and_left, exists_eq, and_true]
    · intro bs h
      exact ⟨encode_raw_data_reads h, fun params' => encode_raw_data_eq_ok_iff_same h⟩

end TxCompiler
