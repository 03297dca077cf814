/-
`tron_proto.rs`: the hand-written protobuf encoder of `Transaction.raw_data`.

The functions are translated with their buffers: each writer takes the bytes written
so far and appends. `expect`, the capacity additions and `Vec::with_capacity` stay in
the model, so every encoder is a `Run`. What the rest of the development uses is the
refinement below them: `write_varint` is `Wire.varint`, and each encoder returns
`Wire.serialise` of a list of entries (`encode_transfer_contract_eq`,
`encode_trigger_smart_contract_eq`, `encode_raw_data_eq`). The generic reader of
`Wire` then applies to the output of the hand-written code.
-/
import TxCompiler.Wire
import TxCompiler.Types

set_option autoImplicit false

namespace TxCompiler

open Rust

/-- The two wire types of the format that the writers use. -/
def WIRE_VARINT : UInt64 := 0

def WIRE_LEN : UInt64 := 2

theorem shiftRight_seven (value : UInt64) : (value >>> 7).toNat = value.toNat / 128 := by
  rw [UInt64.toNat_shiftRight]
  exact Nat.shiftRight_eq_div_pow value.toNat 7

/-- The loop of the source: one byte for every seven bits, low bits first. -/
def write_varint (out : List UInt8) (value : UInt64) : List UInt8 :=
  if 0x80 ≤ value then
    write_varint (out ++ [(value &&& 0x7f).toUInt8 ||| 0x80]) (value >>> 7)
  else out ++ [value.toUInt8]
termination_by value.toNat
decreasing_by
  have hge : 128 ≤ value.toNat :=
    UInt64.le_iff_toNat_le.1 (by assumption : (0x80 : UInt64) ≤ value)
  rw [shiftRight_seven]
  omega

/-- A key and an integer. A zero is written like any other value. -/
def write_varint_field (out : List UInt8) (field_num value : UInt64) : List UInt8 :=
  write_varint (write_varint out ((field_num <<< 3) ||| WIRE_VARINT)) value

/-- A key, a length and that many bytes. -/
def write_bytes_field (out : List UInt8) (field_num : UInt64) (data : List UInt8) :
    Run (List UInt8) := do
  let out := write_varint out ((field_num <<< 3) ||| WIRE_LEN)
  let data_len ← expect (u64_try_from data.length)
  .ok (write_varint out data_len ++ data)

/-- A message inside an `Any`, which names its type, inside a `Contract`. -/
def wrap_in_contract (contract_type : UInt64) (type_url : String) (value : List UInt8) :
    Run (List UInt8) := do
  let full_url := s!"type.googleapis.com/{type_url}"
  let any ← with_capacity (← usize_add (← usize_add 16 (len full_url)) value.length)
  let any ← write_bytes_field any 1 (bytes full_url)
  let any ← write_bytes_field any 2 value
  let buf ← with_capacity (← usize_add 8 any.length)
  let buf := write_varint_field buf 1 contract_type
  write_bytes_field buf 2 any

/-- `TransferContract`, contract type 1. -/
def encode_transfer_contract (owner to_ : List UInt8) (amount : UInt64) : Run (List UInt8) := do
  let inner ← with_capacity (← usize_add (← usize_add 32 owner.length) to_.length)
  let inner ← write_bytes_field inner 1 owner
  let inner ← write_bytes_field inner 2 to_
  let inner := write_varint_field inner 3 amount
  wrap_in_contract 1 "protocol.TransferContract" inner

/-- `TriggerSmartContract`, contract type 31. -/
def encode_trigger_smart_contract (owner contract_address data : List UInt8) :
    Run (List UInt8) := do
  let inner ← with_capacity
    (← usize_add (← usize_add (← usize_add 32 owner.length) contract_address.length) data.length)
  let inner ← write_bytes_field inner 1 owner
  let inner ← write_bytes_field inner 2 contract_address
  let inner ← write_bytes_field inner 4 data
  wrap_in_contract 31 "protocol.TriggerSmartContract" inner

/-- What `raw_data` is written from; the contract is encoded already. -/
structure RawDataParams where
  ref_block_bytes : FixedBytes 2
  ref_block_hash : FixedBytes 8
  expiration : UInt64
  timestamp : UInt64
  contract : List UInt8
  fee_limit : Option UInt64

/-- The fields in the order of their numbers. A fee limit of zero is left out. -/
def encode_raw_data (params : RawDataParams) : Run (List UInt8) := do
  let buf ← with_capacity (← usize_add 96 params.contract.length)
  let buf ← write_bytes_field buf 1 params.ref_block_bytes.val
  let buf ← write_bytes_field buf 4 params.ref_block_hash.val
  let buf := write_varint_field buf 8 params.expiration
  let buf ← write_bytes_field buf 11 params.contract
  let buf := write_varint_field buf 14 params.timestamp
  match params.fee_limit with
  | some fee_limit => .ok (if 0 < fee_limit then write_varint_field buf 18 fee_limit else buf)
  | none => .ok buf

/-! ## The writers append one field

The field numbers are below `2^60`, so the shift by three loses nothing and the wire
type lands in the three bits it cleared. -/

theorem low_seven_bits (value : UInt64) :
    (value &&& 0x7f).toUInt8 ||| 0x80 = UInt8.ofNat (value.toNat % 128 + 128) := by
  have hlow : (value &&& 0x7f).toUInt8.toNat = value.toNat % 128 := by
    rw [UInt64.toNat_toUInt8, UInt64.toNat_and]
    have hmask : value.toNat &&& (0x7f : UInt64).toNat = value.toNat % 128 :=
      Nat.and_two_pow_sub_one_eq_mod value.toNat 7
    rw [hmask]
    omega
  -- the low seven bits leave bit 7 clear, so setting it adds `128`
  rw [← UInt8.toNat_inj, UInt8.toNat_or, hlow, UInt8.toNat_ofNat', Nat.or_comm]
  have hor := Nat.two_pow_add_eq_or_of_lt (i := 7) (Nat.mod_lt value.toNat (by decide)) 1
  have h128 : (0x80 : UInt8).toNat = 2 ^ 7 * 1 := rfl
  rw [h128, ← hor]
  omega

/-- The loop appends the varint of the value; the induction is on the value. -/
theorem write_varint_eq (out : List UInt8) (value : UInt64) :
    write_varint out value = out ++ Wire.varint value.toNat := by
  induction hn : value.toNat using Nat.strong_induction_on generalizing out value with
  | _ n ih =>
    subst hn
    rw [write_varint]
    by_cases hge : 0x80 ≤ value
    · have h128 : 128 ≤ value.toNat := UInt64.le_iff_toNat_le.1 hge
      -- one turn of the loop writes the first byte of the varint and leaves `value / 128`
      rw [if_pos hge, ih _ (by rw [shiftRight_seven]; omega) _ _ rfl, shiftRight_seven,
        low_seven_bits, Wire.varint_of_ge h128, List.append_assoc, List.singleton_append]
    · have h128 : value.toNat < 128 := by
        have := mt UInt64.le_iff_toNat_le.2 hge
        exact Nat.lt_of_not_le this
      rw [if_neg hge, Wire.varint_of_lt h128]
      congr 2

theorem field_key {field_num wire : UInt64} (hf : field_num.toNat < 2 ^ 60)
    (hw : wire.toNat < 8) :
    ((field_num <<< 3) ||| wire).toNat = field_num.toNat * 8 + wire.toNat := by
  have hshift : (field_num <<< 3).toNat = 2 ^ 3 * field_num.toNat := by
    rw [UInt64.toNat_shiftLeft]
    have h3 : (3 : UInt64).toNat % 64 = 3 := rfl
    rw [h3, Nat.shiftLeft_eq, Nat.mod_eq_of_lt (by omega)]
    omega
  -- the shift cleared the three bits the wire type is written to
  rw [UInt64.toNat_or, hshift, ← Nat.two_pow_add_eq_or_of_lt hw]
  omega

theorem write_varint_field_eq (out : List UInt8) {field_num : UInt64} (value : UInt64)
    (hf : field_num.toNat < 2 ^ 60) :
    write_varint_field out field_num value
      = out ++ (Wire.Entry.mk field_num.toNat (.varint value.toNat)).write := by
  rw [write_varint_field, write_varint_eq, write_varint_eq, field_key hf (by decide),
    List.append_assoc]
  rfl

theorem write_bytes_field_eq (out : List UInt8) {field_num : UInt64} {data : List UInt8}
    (hf : field_num.toNat < 2 ^ 60) (hd : data.length < 2 ^ 64) :
    write_bytes_field out field_num data
      = .ok (out ++ (Wire.Entry.mk field_num.toNat (.len data)).write) := by
  rw [write_bytes_field, u64_try_from_of_lt hd]
  simp only [expect, ok_bind]
  rw [write_varint_eq, write_varint_eq, field_key hf (by decide), toNat_ofNat_u64 hd]
  simp only [Wire.Entry.write, List.append_assoc]
  rfl

theorem write_bytes_field_eq_ok {out data bs : List UInt8} {field_num : UInt64}
    (hf : field_num.toNat < 2 ^ 60) :
    write_bytes_field out field_num data = .ok bs ↔ data.length < 2 ^ 64 ∧
      bs = out ++ (Wire.Entry.mk field_num.toNat (.len data)).write := by
  by_cases hd : data.length < 2 ^ 64
  · rw [write_bytes_field_eq out hf hd, Except.ok.injEq]
    exact ⟨fun h => ⟨hd, h.symm⟩, fun h => h.2.symm⟩
  · rw [write_bytes_field, u64_try_from, if_neg hd]
    simp only [expect, hd, false_and, iff_false]
    exact panicked_ne_ok

/-! ## The encoders serialise entries -/

/-- `google.protobuf.Any`. -/
def any_entries (full_url : String) (value : List UInt8) : List Wire.Entry :=
  [⟨1, .len (bytes full_url)⟩, ⟨2, .len value⟩]

/-- `Transaction.Contract`. -/
def contract_entries (contract_type : ℕ) (any : List UInt8) : List Wire.Entry :=
  [⟨1, .varint contract_type⟩, ⟨2, .len any⟩]

/-- `TransferContract`, as a list of entries. -/
def transfer_entries (owner to_ : List UInt8) (amount : ℕ) : List Wire.Entry :=
  [⟨1, .len owner⟩, ⟨2, .len to_⟩, ⟨3, .varint amount⟩]

/-- `TriggerSmartContract`, which has no entry for a payment. -/
def trigger_entries (owner contract_address data : List UInt8) : List Wire.Entry :=
  [⟨1, .len owner⟩, ⟨2, .len contract_address⟩, ⟨4, .len data⟩]

/-- `Transaction.raw_data`. The last field is dropped when absent or zero. -/
def raw_data_entries (ref_block_bytes ref_block_hash : List UInt8) (expiration : ℕ)
    (contract : List UInt8) (timestamp fee_limit : ℕ) : List Wire.Entry :=
  [⟨1, .len ref_block_bytes⟩, ⟨4, .len ref_block_hash⟩, ⟨8, .varint expiration⟩,
    ⟨11, .len contract⟩, ⟨14, .varint timestamp⟩] ++
      if fee_limit = 0 then [] else [⟨18, .varint fee_limit⟩]

/-- The bytes of a `Contract` around a message of the given type. -/
def contract_bytes (contract_type : ℕ) (full_url : String) (inner : List Wire.Entry) :
    List UInt8 :=
  Wire.serialise (contract_entries contract_type
    (Wire.serialise (any_entries full_url (Wire.serialise inner))))

/-- The names of the two messages inside an `Any`. -/
def TRANSFER_URL : String := "type.googleapis.com/protocol.TransferContract"

def TRIGGER_URL : String := "type.googleapis.com/protocol.TriggerSmartContract"

theorem length_varint_u64_le {n : ℕ} (h : n < 2 ^ 64) : (Wire.varint n).length ≤ 10 :=
  Wire.length_varint_le (k := 9) (lt_trans h (by norm_num))

/-- A length-delimited field is at most twenty bytes longer than its payload. -/
theorem length_write_len_le {number : ℕ} {data : List UInt8} (hn : number < 2 ^ 60)
    (hd : data.length < 2 ^ 64) :
    (Wire.Entry.mk number (.len data)).write.length ≤ data.length + 20 := by
  have h1 := length_varint_u64_le (n := number * 8 + 2) (by omega)
  have h2 := length_varint_u64_le hd
  simp only [Wire.Entry.write, List.length_append]
  omega

theorem length_write_varint_le {number value : ℕ} (hn : number < 2 ^ 60) (hv : value < 2 ^ 64) :
    (Wire.Entry.mk number (.varint value)).write.length ≤ 20 := by
  have h1 := length_varint_u64_le (n := number * 8) (by omega)
  have h2 := length_varint_u64_le hv
  simp only [Wire.Entry.write, List.length_append]
  omega

theorem length_any_le {full_url : String} {value : List UInt8} (hurl : len full_url ≤ 100)
    (hv : value.length < 2 ^ 62) :
    (Wire.serialise (any_entries full_url value)).length ≤ value.length + 140 := by
  have h1 := @length_write_len_le 1 (bytes full_url) (by decide) (by rw [length_bytes]; omega)
  have h2 := @length_write_len_le 2 value (by decide) (by omega)
  rw [length_bytes] at h1
  simp only [any_entries, Wire.serialise_cons, Wire.serialise_nil, List.append_nil,
    List.length_append]
  omega

theorem length_contract_bytes_le {contract_type : ℕ} {full_url : String}
    {inner : List Wire.Entry} (htype : contract_type < 2 ^ 64) (hurl : len full_url ≤ 100)
    (hinner : (Wire.serialise inner).length < 2 ^ 61) :
    (contract_bytes contract_type full_url inner).length
      ≤ (Wire.serialise inner).length + 180 := by
  have hany := length_any_le hurl (show (Wire.serialise inner).length < 2 ^ 62 by omega)
  have h1 := @length_write_varint_le 1 contract_type (by decide) htype
  have h2 := @length_write_len_le 2 (Wire.serialise (any_entries full_url (Wire.serialise inner)))
    (by decide) (by omega)
  simp only [contract_bytes, contract_entries, Wire.serialise_cons, Wire.serialise_nil,
    List.append_nil, List.length_append]
  omega

theorem length_transfer_le {owner to_ : List UInt8} {amount : ℕ}
    (hlen : owner.length + to_.length < 2 ^ 61) (hamount : amount < 2 ^ 64) :
    (Wire.serialise (transfer_entries owner to_ amount)).length
      ≤ owner.length + to_.length + 60 := by
  have h1 := @length_write_len_le 1 owner (by decide) (by omega)
  have h2 := @length_write_len_le 2 to_ (by decide) (by omega)
  have h3 := @length_write_varint_le 3 amount (by decide) hamount
  simp only [transfer_entries, Wire.serialise_cons, Wire.serialise_nil, List.append_nil,
    List.length_append]
  omega

theorem length_trigger_le {owner contract_address data : List UInt8}
    (hlen : owner.length + contract_address.length + data.length < 2 ^ 61) :
    (Wire.serialise (trigger_entries owner contract_address data)).length
      ≤ owner.length + contract_address.length + data.length + 60 := by
  have h1 := @length_write_len_le 1 owner (by decide) (by omega)
  have h2 := @length_write_len_le 2 contract_address (by decide) (by omega)
  have h3 := @length_write_len_le 4 data (by decide) (by omega)
  simp only [trigger_entries, Wire.serialise_cons, Wire.serialise_nil, List.append_nil,
    List.length_append]
  omega

/-- The capacities `wrap_in_contract` asks for. -/
def FitsContract (full_url : String) (value : List UInt8) : Prop :=
  16 + len full_url + value.length < 2 ^ 63 ∧
    8 + (Wire.serialise (any_entries full_url value)).length < 2 ^ 63

theorem fitsContract_of_lt {full_url : String} {value : List UInt8} (hurl : len full_url ≤ 100)
    (hv : value.length < 2 ^ 62) : FitsContract full_url value := by
  have hany := length_any_le hurl hv
  exact ⟨by omega, by omega⟩

theorem wrap_in_contract_eq_ok {contract_type : UInt64} {type_url full_url : String}
    {value bs : List UInt8} (hfull : s!"type.googleapis.com/{type_url}" = full_url) :
    wrap_in_contract contract_type type_url value = .ok bs ↔ FitsContract full_url value ∧
      bs = Wire.serialise (contract_entries contract_type.toNat
        (Wire.serialise (any_entries full_url value))) := by
  have hany : [] ++ (Wire.Entry.mk (1 : UInt64).toNat (.len (bytes full_url))).write ++
      (Wire.Entry.mk (2 : UInt64).toNat (.len value)).write
        = Wire.serialise (any_entries full_url value) := by
    rw [List.nil_append]
    simp only [any_entries, Wire.serialise_cons, Wire.serialise_nil, List.append_nil]
    rfl
  have hcontract : write_varint_field [] 1 contract_type ++
      (Wire.Entry.mk (2 : UInt64).toNat
        (.len (Wire.serialise (any_entries full_url value)))).write
        = Wire.serialise (contract_entries contract_type.toNat
            (Wire.serialise (any_entries full_url value))) := by
    rw [write_varint_field_eq _ _ (by decide), List.nil_append]
    simp only [contract_entries, Wire.serialise_cons, Wire.serialise_nil, List.append_nil]
    rfl
  unfold wrap_in_contract FitsContract
  simp only [hfull, bind_eq_ok, usize_add_eq_ok, with_capacity_eq_ok]
  constructor
  · rintro ⟨_, ⟨-, rfl⟩, _, ⟨-, rfl⟩, any, ⟨h1, rfl⟩, any1, hw1, any2, hw2, _, ⟨-, rfl⟩, buf,
      ⟨h2, rfl⟩, hw3⟩
    obtain ⟨-, rfl⟩ := (write_bytes_field_eq_ok (by decide)).1 hw1
    obtain ⟨-, rfl⟩ := (write_bytes_field_eq_ok (by decide)).1 hw2
    obtain ⟨-, rfl⟩ := (write_bytes_field_eq_ok (by decide)).1 hw3
    rw [hany] at h2 ⊢
    exact ⟨⟨h1, h2⟩, hcontract⟩
  · rintro ⟨⟨h1, h2⟩, rfl⟩
    refine ⟨_, ⟨by omega, rfl⟩, _, ⟨by omega, rfl⟩, [], ⟨h1, rfl⟩, _,
      (write_bytes_field_eq_ok (by decide)).2 ⟨by rw [length_bytes]; omega, rfl⟩, _,
      (write_bytes_field_eq_ok (by decide)).2 ⟨by omega, rfl⟩, ?_⟩
    rw [hany]
    exact ⟨_, ⟨by omega, rfl⟩, [], ⟨h2, rfl⟩,
      (write_bytes_field_eq_ok (by decide)).2 ⟨by omega, hcontract.symm⟩⟩

theorem encode_transfer_contract_eq_ok {owner to_ bs : List UInt8} {amount : UInt64} :
    encode_transfer_contract owner to_ amount = .ok bs ↔
      32 + owner.length + to_.length < 2 ^ 63 ∧
        FitsContract TRANSFER_URL (Wire.serialise (transfer_entries owner to_ amount.toNat)) ∧
          bs = contract_bytes 1 TRANSFER_URL (transfer_entries owner to_ amount.toNat) := by
  have hinner : write_varint_field ([] ++ (Wire.Entry.mk (1 : UInt64).toNat (.len owner)).write ++
      (Wire.Entry.mk (2 : UInt64).toNat (.len to_)).write) 3 amount
        = Wire.serialise (transfer_entries owner to_ amount.toNat) := by
    rw [write_varint_field_eq _ _ (by decide), List.nil_append]
    simp only [transfer_entries, Wire.serialise_cons, Wire.serialise_nil, List.append_nil,
      List.append_assoc]
    rfl
  have hwrap := fun inner =>
    @wrap_in_contract_eq_ok 1 "protocol.TransferContract" TRANSFER_URL inner bs (by decide)
  unfold encode_transfer_contract
  simp only [bind_eq_ok, usize_add_eq_ok, with_capacity_eq_ok, hwrap]
  constructor
  · rintro ⟨_, ⟨-, rfl⟩, _, ⟨-, rfl⟩, inner, ⟨hcap, rfl⟩, inner1, hw1, inner2, hw2, hfits, rfl⟩
    obtain ⟨-, rfl⟩ := (write_bytes_field_eq_ok (by decide)).1 hw1
    obtain ⟨-, rfl⟩ := (write_bytes_field_eq_ok (by decide)).1 hw2
    rw [hinner] at hfits ⊢
    exact ⟨hcap, hfits, rfl⟩
  · rintro ⟨hcap, hfits, rfl⟩
    refine ⟨_, ⟨by omega, rfl⟩, _, ⟨by omega, rfl⟩, [], ⟨hcap, rfl⟩, _,
      (write_bytes_field_eq_ok (by decide)).2 ⟨by omega, rfl⟩, _,
      (write_bytes_field_eq_ok (by decide)).2 ⟨by omega, rfl⟩, ?_⟩
    rw [hinner]
    exact ⟨hfits, rfl⟩

theorem encode_trigger_smart_contract_eq_ok {owner contract_address data bs : List UInt8} :
    encode_trigger_smart_contract owner contract_address data = .ok bs ↔
      32 + owner.length + contract_address.length + data.length < 2 ^ 63 ∧
        FitsContract TRIGGER_URL (Wire.serialise (trigger_entries owner contract_address data)) ∧
          bs = contract_bytes 31 TRIGGER_URL (trigger_entries owner contract_address data) := by
  have hinner : [] ++ (Wire.Entry.mk (1 : UInt64).toNat (.len owner)).write ++
      (Wire.Entry.mk (2 : UInt64).toNat (.len contract_address)).write ++
        (Wire.Entry.mk (4 : UInt64).toNat (.len data)).write
          = Wire.serialise (trigger_entries owner contract_address data) := by
    simp only [trigger_entries, Wire.serialise_cons, Wire.serialise_nil, List.append_nil,
      List.nil_append, List.append_assoc]
    rfl
  have hwrap := fun inner =>
    @wrap_in_contract_eq_ok 31 "protocol.TriggerSmartContract" TRIGGER_URL inner bs (by decide)
  unfold encode_trigger_smart_contract
  simp only [bind_eq_ok, usize_add_eq_ok, with_capacity_eq_ok, hwrap]
  constructor
  · rintro ⟨_, ⟨-, rfl⟩, _, ⟨-, rfl⟩, _, ⟨-, rfl⟩, inner, ⟨hcap, rfl⟩, inner1, hw1, inner2, hw2,
      inner3, hw3, hfits, rfl⟩
    obtain ⟨-, rfl⟩ := (write_bytes_field_eq_ok (by decide)).1 hw1
    obtain ⟨-, rfl⟩ := (write_bytes_field_eq_ok (by decide)).1 hw2
    obtain ⟨-, rfl⟩ := (write_bytes_field_eq_ok (by decide)).1 hw3
    rw [hinner] at hfits ⊢
    exact ⟨hcap, hfits, rfl⟩
  · rintro ⟨hcap, hfits, rfl⟩
    refine ⟨_, ⟨by omega, rfl⟩, _, ⟨by omega, rfl⟩, _, ⟨by omega, rfl⟩, [], ⟨hcap, rfl⟩, _,
      (write_bytes_field_eq_ok (by decide)).2 ⟨by omega, rfl⟩, _,
      (write_bytes_field_eq_ok (by decide)).2 ⟨by omega, rfl⟩, _,
      (write_bytes_field_eq_ok (by decide)).2 ⟨by omega, rfl⟩, ?_⟩
    rw [hinner]
    exact ⟨hfits, rfl⟩

/-- The encoder of a native transfer, for operands of every size a vector can have. -/
theorem encode_transfer_contract_eq {owner to_ : List UInt8} {amount : UInt64}
    (hlen : owner.length + to_.length < 2 ^ 61) :
    encode_transfer_contract owner to_ amount
      = .ok (contract_bytes 1 TRANSFER_URL (transfer_entries owner to_ amount.toNat)) := by
  have hser := length_transfer_le hlen amount.toNat_lt
  apply encode_transfer_contract_eq_ok.2
  exact ⟨by omega, fitsContract_of_lt (by decide) (by omega), rfl⟩

/-- The encoder of a token transfer. -/
theorem encode_trigger_smart_contract_eq {owner contract_address data : List UInt8}
    (hlen : owner.length + contract_address.length + data.length < 2 ^ 61) :
    encode_trigger_smart_contract owner contract_address data
      = .ok (contract_bytes 31 TRIGGER_URL (trigger_entries owner contract_address data)) := by
  have hser := length_trigger_le hlen
  apply encode_trigger_smart_contract_eq_ok.2
  exact ⟨by omega, fitsContract_of_lt (by decide) (by omega), rfl⟩

/-- What `encode_raw_data` writes; `Some(0)` is an absent limit. -/
def RawDataParams.entries (params : RawDataParams) : List Wire.Entry :=
  raw_data_entries params.ref_block_bytes.val params.ref_block_hash.val params.expiration.toNat
    params.contract params.timestamp.toNat (params.fee_limit.elim 0 UInt64.toNat)

/-- The encoder of `raw_data`, for every contract its buffer has room for. -/
theorem encode_raw_data_of_capacity {params : RawDataParams}
    (hlen : 96 + params.contract.length < 2 ^ 63) :
    encode_raw_data params = .ok (Wire.serialise params.entries) := by
  have h2 := params.ref_block_bytes.property
  have h8 := params.ref_block_hash.property
  unfold encode_raw_data
  rw [usize_add_of_lt (by omega), ok_bind, with_capacity_of_lt (by omega), ok_bind,
    write_bytes_field_eq _ (by decide) (by omega), ok_bind,
    write_bytes_field_eq _ (by decide) (by omega), ok_bind,
    write_varint_field_eq _ _ (by decide)]
  dsimp only
  rw [write_bytes_field_eq _ (by decide) (by omega), ok_bind,
    write_varint_field_eq _ _ (by decide)]
  -- the five fields that are always written; at fee limit zero they are the whole record
  have heq : ([] ++ (Wire.Entry.mk (1 : UInt64).toNat (.len params.ref_block_bytes.val)).write ++
      (Wire.Entry.mk (4 : UInt64).toNat (.len params.ref_block_hash.val)).write ++
        (Wire.Entry.mk (8 : UInt64).toNat (.varint params.expiration.toNat)).write ++
          (Wire.Entry.mk (11 : UInt64).toNat (.len params.contract)).write ++
            (Wire.Entry.mk (14 : UInt64).toNat (.varint params.timestamp.toNat)).write)
      = Wire.serialise (raw_data_entries params.ref_block_bytes.val params.ref_block_hash.val
          params.expiration.toNat params.contract params.timestamp.toNat 0) := by
    simp only [raw_data_entries, if_true, Wire.serialise_cons, Wire.serialise_nil,
      List.append_nil, List.nil_append, List.append_assoc]
    rfl
  rw [heq, RawDataParams.entries]
  cases hfee : params.fee_limit with
  | none => rfl
  | some fee_limit =>
    simp only [Option.elim_some]
    by_cases hpos : 0 < fee_limit
    · -- a positive limit adds field 18 behind the rest
      have hne : fee_limit.toNat ≠ 0 := by
        have : (0 : UInt64).toNat < fee_limit.toNat := UInt64.lt_iff_toNat_lt.1 hpos
        omega
      rw [if_pos hpos, write_varint_field_eq _ _ (by decide)]
      simp only [raw_data_entries, if_true, if_neg hne, List.append_nil, Wire.serialise_append,
        Wire.serialise_cons, Wire.serialise_nil]
      rfl
    · -- `Some(0)` is dropped like `None`
      have hz : fee_limit.toNat = 0 := by
        have h0 := mt UInt64.lt_iff_toNat_lt.2 hpos
        have : (0 : UInt64).toNat = 0 := rfl
        omega
      rw [if_neg hpos, hz]

theorem encode_raw_data_eq_ok {params : RawDataParams} {bs : List UInt8} :
    encode_raw_data params = .ok bs ↔
      96 + params.contract.length < 2 ^ 63 ∧ bs = Wire.serialise params.entries := by
  by_cases hlen : 96 + params.contract.length < 2 ^ 63
  · rw [encode_raw_data_of_capacity hlen, Except.ok.injEq, and_iff_right hlen]
    exact eq_comm
  · rw [iff_false_intro (show ¬ (_ ∧ _) from fun h => hlen h.1), iff_false]
    intro h
    -- nothing is returned behind a capacity that cannot be had
    unfold encode_raw_data at h
    simp only [bind_eq_ok, usize_add_eq_ok, with_capacity_eq_ok] at h
    obtain ⟨_, ⟨-, rfl⟩, _, ⟨hcap, -⟩, -⟩ := h
    exact hlen hcap

theorem encode_raw_data_eq {params : RawDataParams} (hlen : params.contract.length < 2 ^ 62) :
    encode_raw_data params
      = .ok (Wire.serialise (raw_data_entries params.ref_block_bytes.val
          params.ref_block_hash.val params.expiration.toNat params.contract
          params.timestamp.toNat (params.fee_limit.elim 0 UInt64.toNat))) :=
  encode_raw_data_of_capacity (by omega)

end TxCompiler
