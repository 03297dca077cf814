/-
What `validate` checks, as predicates: `Spells obj p` says that the fields of `p` are
what the members of the JSON object spell, and `Valid cr p` that `p` satisfies every
rule of its chain, intent and fee mode.

`validate_eq_ok` is the specification of the whole validator: it returns `p` exactly
when the input is an object that spells `p` and `p` is valid. The order of the checks
and the texts of the errors are gone from it, and so is the JSON, from the second half:
what the compiler and the review need of a validated transaction is `Valid cr p` and
nothing else.
-/
import TxCompiler.Calldata

set_option autoImplicit false

namespace TxCompiler

open Rust Json

/-! ## Decimals -/

/-- A canonical decimal of at most 78 digits. -/
def IsDecimal (s : String) : Prop := ∃ n : ℕ, n < 10 ^ 78 ∧ s = n.repr

theorem zero_repr : (0 : ℕ).repr = "0" := by decide

theorem isDecimal_zero : IsDecimal "0" := ⟨0, by norm_num, zero_repr.symm⟩

/-- The first digit of a number that is not zero. -/
theorem nonzero_digit_iff {b : UInt8} :
    ((0x31 : UInt8) ≤ b ∧ b ≤ 0x39) ↔ is_ascii_digit b = true ∧ b ≠ 0x30 := by
  have h30 : (0x30 : UInt8).toNat = 48 := rfl
  have h31 : (0x31 : UInt8).toNat = 49 := rfl
  have h39 : (0x39 : UInt8).toNat = 57 := rfl
  rw [is_ascii_digit_iff, Ne, ← UInt8.toNat_inj, UInt8.le_iff_toNat_le, UInt8.le_iff_toNat_le]
  omega

/-- A digit string that does not start with `0` is what printing its value gives; the bound
on the length is a bound on the value. -/
theorem isDecimal_of_digits {s : String} {b : UInt8} {rest : List UInt8} (hb : bytes s = b :: rest)
    (hlen : len s ≤ 78) (hfirst : (0x31 : UInt8) ≤ b ∧ b ≤ 0x39)
    (hrest : ∀ x ∈ rest, is_ascii_digit x = true) : IsDecimal s := by
  obtain ⟨hdigit, hb0⟩ := nonzero_digit_iff.1 hfirst
  have hs : s = (decimal_value s).repr := by
    apply eq_repr_of_canonical
    · rw [hb]
      simp
    · rw [hb]
      exact List.forall_mem_cons.2 ⟨hdigit, hrest⟩
    · rw [hb]
      intro hz
      exact absurd (Option.some.inj hz) hb0
  -- a printed number has at most 78 digits exactly below `10^78`
  refine ⟨decimal_value s, ?_, hs⟩
  rw [← len_repr_le_iff (by decide), ← hs]
  exact hlen

/-- A printed number passes every test: it is not empty, not too long, and has no leading
zero. -/
theorem is_non_neg_int_repr {n : ℕ} (hn : n < 10 ^ 78) : is_non_neg_int n.repr = true := by
  have hne : n.repr ≠ "" := Nat.repr_ne_empty
  have hlen : len n.repr ≤ 78 := (len_repr_le_iff (by decide)).2 hn
  unfold is_non_neg_int
  rw [if_neg (by simpa [MAX_DECIMAL_LEN, hne] using hlen)]
  by_cases h0 : n.repr = "0"
  · rw [if_pos h0]
  · rw [if_neg h0]
    have hn0 : n ≠ 0 := by
      rintro rfl
      exact h0 zero_repr
    have hhead := repr_head_ne_zero hn0
    have hdig := digits_repr n
    cases hb : bytes n.repr with
    | nil => exact absurd hb (bytes_repr_ne_nil n)
    | cons b rest =>
      rw [hb] at hhead hdig
      obtain ⟨hbd, hrest⟩ := List.forall_mem_cons.1 hdig
      have hb0 : b ≠ 0x30 := fun h => hhead (congrArg some h)
      have hrange := nonzero_digit_iff.2 ⟨hbd, hb0⟩
      simp only [hrange, decide_true, Bool.and_self, Bool.true_and, List.all_eq_true]
      exact hrest

/-- **The check accepts the decimals below `10^78`.** -/
theorem is_non_neg_int_iff (s : String) : is_non_neg_int s = true ↔ IsDecimal s := by
  constructor
  · intro h
    unfold is_non_neg_int at h
    split at h
    · simp at h
    · next hguard =>
      simp only [Bool.or_eq_true, decide_eq_true_eq, not_or, MAX_DECIMAL_LEN] at hguard
      split at h
      · next h0 => rw [h0]; exact isDecimal_zero
      · split at h
        · next b rest hb =>
          simp only [Bool.and_eq_true, decide_eq_true_eq, List.all_eq_true] at h
          exact isDecimal_of_digits hb (by simpa using hguard.2) h.1 h.2
        · simp at h
  · rintro ⟨n, hn, rfl⟩
    exact is_non_neg_int_repr hn

theorem isDecimal_u64 (u : UInt64) : IsDecimal u.toNat.repr :=
  ⟨u.toNat, lt_trans u.toNat_lt (by norm_num), rfl⟩

/-- A value spells a decimal as that string or as the number that prints as it. -/
def SpellsInt (v : Value) (s : String) : Prop :=
  v = .string s ∨ ∃ u : UInt64, v = .number (.posInt u) ∧ s = u.toNat.repr

/-- An optional integer and the member it is read from. -/
def SpellsOptInt (raw : Option Value) (o : Option String) : Prop :=
  match o with
  | none => raw = none ∨ raw = some .null
  | some s => ∃ v, raw = some v ∧ SpellsInt v s

/-- The decimals a number in JSON can coerce to are all valid, so validity may be asked
of the string alone. -/
theorem coerce_to_string_filter {v : Value} {s : String} :
    (coerce_to_string v).filter is_non_neg_int = some s ↔ SpellsInt v s ∧ IsDecimal s := by
  rw [Option.filter_eq_some_iff, is_non_neg_int_iff]
  refine and_congr_left fun _ => ?_
  rcases v with _ | _ | (_ | _ | _) | _ | _ | _ <;>
    simp [coerce_to_string, SpellsInt, Number.as_u64, eq_comm]

theorem require_int_string_eq_ok {obj : Map} {field s : String} :
    require_int_string obj field = .ok s ↔
      (∃ v, obj.get field = some v ∧ SpellsInt v s) ∧ IsDecimal s := by
  unfold require_int_string
  dsimp only
  rw [ok_or_eq_ok]
  cases obj.get field with
  | none => simp
  | some v =>
    rw [Option.bind_some, coerce_to_string_filter]
    simp

/-- Validity of an optional decimal. -/
def OptDecimal (o : Option String) : Prop := ∀ s, o = some s → IsDecimal s

theorem optional_int_string_eq_ok {obj : Map} {field : String} {o : Option String} :
    optional_int_string obj field = .ok o ↔
      SpellsOptInt (obj.get field) o ∧ OptDecimal o := by
  unfold optional_int_string
  cases obj.get field with
  | none => cases o <;> simp [SpellsOptInt, OptDecimal]
  | some v =>
    dsimp only
    -- `null` is read as an absent field
    by_cases hnull : v.is_null = true
    · rw [if_pos hnull]
      rw [Value.is_null_eq_true] at hnull
      subst hnull
      cases o <;> simp [SpellsOptInt, OptDecimal, SpellsInt]
    · rw [if_neg hnull]
      rw [Value.is_null_eq_true] at hnull
      simp only [bind_eq_ok, ok_or_eq_ok, coerce_to_string_filter, Except.ok.injEq]
      cases o with
      | none => simp [SpellsOptInt, hnull]
      | some s => simp [SpellsOptInt, OptDecimal]

/-! ## Enumerations and strings -/

theorem require_chain_eq_ok {obj : Map} {chain : Chain} :
    require_chain obj = .ok chain ↔ obj.get "chain" = some (.string chain.wire_name) := by
  -- only the exact string of a variant is that variant
  rw [← Value.as_str_eq_some_bind]
  unfold require_chain
  split <;> cases chain <;> simp_all [Chain.wire_name]

theorem require_tx_type_eq_ok {obj : Map} {tx_type : TxType} :
    require_tx_type obj = .ok tx_type ↔ obj.get "txType" = some (.string tx_type.wire_name) := by
  rw [← Value.as_str_eq_some_bind]
  unfold require_tx_type
  split <;> cases tx_type <;> simp_all [TxType.wire_name]

theorem require_fee_mode_eq_ok {obj : Map} {mode : FeeMode} :
    require_fee_mode obj = .ok mode ↔ obj.get "mode" = some (.string mode.as_str) := by
  rw [← Value.as_str_eq_some_bind]
  unfold require_fee_mode
  split <;> cases mode <;> simp_all [FeeMode.as_str]

theorem require_non_empty_string_with_eq_ok {obj : Map} {field s : String}
    {err : TxCompilerError} : require_non_empty_string_with obj field err = .ok s ↔
      obj.get field = some (.string s) ∧ s ≠ "" := by
  rw [← Value.as_str_eq_some_bind]
  unfold require_non_empty_string_with
  cases (obj.get field).bind Value.as_str with
  | none => simp
  | some t =>
    dsimp only
    by_cases ht : t = ""
    · rw [if_neg (by simpa using ht)]
      simp [ht]
    · rw [if_pos ht]
      simp only [Except.ok.injEq, Option.some.injEq]
      exact ⟨fun h => ⟨h, h ▸ ht⟩, fun h => h.1⟩

theorem is_blank_empty : is_blank "" = true := by decide

/-- A string that is not blank is not empty either, so the second check subsumes the first. -/
theorem require_non_empty_string_eq_ok {obj : Map} {field s : String} :
    require_non_empty_string obj field = .ok s ↔
      obj.get field = some (.string s) ∧ is_blank s = false := by
  unfold require_non_empty_string
  simp only [bind_eq_ok, require_non_empty_string_with_eq_ok, reject_if_eq_ok,
    Except.ok.injEq, exists_const]
  constructor
  · rintro ⟨t, ⟨hget, -⟩, hblank, rfl⟩
    exact ⟨hget, by simpa using hblank⟩
  · rintro ⟨hget, hblank⟩
    refine ⟨s, ⟨hget, ?_⟩, by simpa using hblank, rfl⟩
    rintro rfl
    rw [is_blank_empty] at hblank
    exact absurd hblank (by decide)

theorem optional_string_eq_some {obj : Map} {field s : String} :
    optional_string obj field = some s ↔ obj.get field = some (.string s) ∧ s ≠ "" := by
  unfold optional_string
  split
  · next t ht =>
    rw [ht]
    by_cases h0 : t = ""
    · rw [if_neg (by simpa using h0)]
      simp [h0]
    · rw [if_pos h0]
      simp only [Option.some.injEq, Value.string.injEq]
      exact ⟨fun h => ⟨h, h ▸ h0⟩, fun h => h.1⟩
  · -- a value of another type, or no value: neither side holds
    next hno =>
    simp only [reduceCtorEq, false_iff, not_and]
    exact fun h => absurd h (hno s)

theorem optional_string_ne_empty (obj : Map) (field : String) :
    optional_string obj field ≠ some "" := by
  intro h
  exact (optional_string_eq_some.1 h).2 rfl

/-- An accepted number is an integer of the `i64` range. The second branch of the source
is never the one that answers: what fits an `i64` has been returned by the first. -/
theorem optional_number_eq_some {obj : Map} {field : String} {i : Int64} :
    optional_number obj field = some i ↔ ∃ v, obj.get field = some v ∧ v.as_i64 = some i := by
  unfold optional_number
  cases obj.get field with
  | none => simp
  | some v =>
    rcases v with _ | _ | (n | i | _) | _ | _ | _ <;>
      simp [Value.is_null, Value.as_i64, Value.as_u64, Number.as_i64, Number.as_u64]
    -- the number fits an `i64` or it does not, and both branches ask the same
    cases i64_try_from_u64 n <;> simp

/-! ## The block header -/

theorem require_positive_int_eq_ok {obj : Map} {field : String} {u : UInt64} :
    require_positive_int obj field = .ok u ↔
      obj.get field = some (.number (.posInt u)) ∧ 0 < u := by
  simp [require_positive_int, Option.filter_eq_some_iff]

theorem require_non_neg_int_eq_ok {obj : Map} {field : String} {w : UInt32} :
    require_non_neg_int obj field = .ok w ↔
      obj.get field = some (.number (.posInt w.toUInt64)) := by
  simp only [require_non_neg_int, bind_eq_ok, ok_or_eq_ok, Value.as_u64_eq_some]
  constructor
  · rintro ⟨v, hv, u, rfl, hw⟩
    simp only [u32_try_from_u64, Option.ite_none_right_eq_some, Option.some.injEq] at hw
    -- below `2^32` nothing is lost in the narrow type
    obtain ⟨hlt, rfl⟩ := hw
    rw [hv]
    congr 3
    rw [← UInt64.toNat_inj, UInt32.toNat_toUInt64, UInt64.toNat_toUInt32]
    exact (Nat.mod_eq_of_lt hlt).symm
  · intro h
    have hlt : w.toUInt64.toNat < 2 ^ 32 := by
      rw [UInt32.toNat_toUInt64]
      exact w.toNat_lt
    refine ⟨_, h, _, rfl, ?_⟩
    rw [u32_try_from_u64, if_pos hlt, Option.some.injEq, UInt32.toUInt32_toUInt64]

theorem optional_bounded_string_eq_ok {obj : Map} {field : String} {max_len : ℕ}
    {o : Option String} : optional_bounded_string obj field max_len = .ok o ↔
      (obj.get field).bind Value.as_str = o ∧ ∀ s, o = some s → len s ≤ max_len := by
  unfold optional_bounded_string
  cases (obj.get field).bind Value.as_str with
  | none =>
    simp only [Except.ok.injEq]
    constructor
    · rintro rfl
      simp
    · exact fun h => h.1
  | some s =>
    simp only [bind_eq_ok, reject_if_eq_ok, not_lt, Except.ok.injEq, gt_iff_lt, exists_const]
    constructor
    · rintro ⟨hle, rfl⟩
      simpa using hle
    · rintro ⟨rfl, hle⟩
      exact ⟨hle s rfl, rfl⟩

/-- The members of a header object, one for one. -/
structure SpellsHeader (obj : Map) (header : TronBlockHeader) : Prop where
  h : obj.get "h" = some (.string header.h)
  n : obj.get "n" = some (.number (.posInt header.n))
  t : obj.get "t" = some (.number (.posInt header.t))
  v : obj.get "v" = some (.number (.posInt header.v.toUInt64))
  p : (obj.get "p").bind Value.as_str = header.p
  r : (obj.get "r").bind Value.as_str = header.r
  w : (obj.get "w").bind Value.as_str = header.w

/-- A header that passed its checks. -/
structure ValidHeader (header : TronBlockHeader) : Prop where
  /-- sixty-four hexadecimal digits -/
  h : ∃ bs, bs.length = 32 ∧ Hex.decode (bytes header.h) = some bs
  n : 0 < header.n
  t : 0 < header.t
  p : ∀ s, header.p = some s → len s ≤ MAX_INFO_FIELD_LEN
  r : ∀ s, header.r = some s → len s ≤ MAX_INFO_FIELD_LEN
  w : ∀ s, header.w = some s → len s ≤ MAX_INFO_FIELD_LEN

/-- An optional header and the member it is read from. -/
def SpellsOptHeader (raw : Option Value) (o : Option TronBlockHeader) : Prop :=
  match o with
  | none => raw = none ∨ raw = some .null
  | some header => ∃ obj, raw = some (.object obj) ∧ SpellsHeader obj header

theorem block_id_iff {h : String} :
    (h ≠ "" ∧ len h = 64 ∧ is_hex h = true) ↔
      ∃ bs, bs.length = 32 ∧ Hex.decode (bytes h) = some bs := by
  constructor
  · rintro ⟨-, hlen, hhex⟩
    rw [← length_bytes] at hlen
    obtain ⟨bs, hbs⟩ := Hex.decode_of_hexdigits (k := 32) hlen (is_hex_iff.1 hhex).2
    have := Hex.length_of_decode hbs
    exact ⟨bs, by omega, hbs⟩
  · rintro ⟨bs, h32, hbs⟩
    have hlen : len h = 64 := by rw [← length_bytes, Hex.length_of_decode hbs, h32]
    have hne : h ≠ "" := by
      rintro rfl
      exact absurd hlen (by decide)
    exact ⟨hne, hlen, is_hex_iff.2 ⟨hne, Hex.hexdigits_of_decode hbs⟩⟩

theorem optional_block_header_eq_ok {raw : Option Value} {o : Option TronBlockHeader} :
    optional_block_header raw = .ok o ↔
      SpellsOptHeader raw o ∧ ∀ header, o = some header → ValidHeader header := by
  unfold optional_block_header
  cases raw with
  | none => cases o <;> simp [SpellsOptHeader]
  | some v =>
    dsimp only
    -- as for a number, `null` is no header
    by_cases hnull : v.is_null = true
    · rw [if_pos hnull]
      rw [Value.is_null_eq_true] at hnull
      subst hnull
      cases o <;> simp [SpellsOptHeader]
    · rw [if_neg hnull]
      rw [Value.is_null_eq_true] at hnull
      simp only [bind_eq_ok, ok_or_eq_ok, Value.as_object_eq_some, reject_if_eq_ok, exists_const,
        require_non_empty_string_with_eq_ok, require_positive_int_eq_ok,
        require_non_neg_int_eq_ok, optional_bounded_string_eq_ok, not_not, Except.ok.injEq]
      constructor
      · rintro ⟨obj, rfl, h, ⟨hh, hne⟩, n, ⟨hn, hn0⟩, t, ⟨ht, ht0⟩, v, hv, hlen, hhex,
          p, ⟨hp, hpl⟩, r, ⟨hr, hrl⟩, w, ⟨hw, hwl⟩, rfl⟩
        refine ⟨⟨obj, rfl, hh, hn, ht, hv, hp, hr, hw⟩, ?_⟩
        rintro header ⟨⟩
        exact ⟨block_id_iff.1 ⟨hne, hlen, hhex⟩, hn0, ht0, hpl, hrl, hwl⟩
      · rintro ⟨hs, hvalid⟩
        cases o with
        | none => simp [SpellsOptHeader, hnull] at hs
        | some header =>
          obtain ⟨obj, hobj, hs⟩ := hs
          have hv := hvalid header rfl
          obtain ⟨hne, hlen, hhex⟩ := block_id_iff.2 hv.h
          exact ⟨obj, Option.some.inj hobj, header.h, ⟨hs.h, hne⟩, header.n, ⟨hs.n, hv.n⟩,
            header.t, ⟨hs.t, hv.t⟩, header.v, hs.v, hlen, hhex, header.p, ⟨hs.p, hv.p⟩,
            header.r, ⟨hs.r, hv.r⟩, header.w, ⟨hs.w, hv.w⟩, rfl⟩

/-! ## Fees -/

/-- The amounts of a fee, in the order in which they are read. -/
def fee_amounts : List String :=
  ["gasLimit", "baseFeePerGas", "maxPriorityFeePerGas", "maxFeePerGas", "gasPrice", "el"]

/-- The mode `TRON` and the chain Tron go together. -/
def FeeMode.Of (mode : FeeMode) (chain : Chain) : Prop := mode = .Tron ↔ chain = .Tron

/-- The fields a mode requires. -/
def RequiredFields (fee : FeeParams) : Prop :=
  match fee.mode with
  | .Eip1559 => fee.gas_limit ≠ none ∧ fee.max_fee_per_gas ≠ none ∧
      fee.max_priority_fee_per_gas ≠ none
  | .Legacy => fee.gas_limit ≠ none ∧ effective_gas_price fee ≠ none
  | .Tron => fee.rp ≠ none

/-- The fee object says what the record has. -/
structure SpellsFee (obj : Map) (fee : FeeParams) : Prop where
  mode : obj.get "mode" = some (.string fee.mode.as_str)
  gas_limit : SpellsOptInt (obj.get "gasLimit") fee.gas_limit
  base_fee_per_gas : SpellsOptInt (obj.get "baseFeePerGas") fee.base_fee_per_gas
  max_priority_fee_per_gas :
    SpellsOptInt (obj.get "maxPriorityFeePerGas") fee.max_priority_fee_per_gas
  max_fee_per_gas : SpellsOptInt (obj.get "maxFeePerGas") fee.max_fee_per_gas
  gas_price : SpellsOptInt (obj.get "gasPrice") fee.gas_price
  el : SpellsOptInt (obj.get "el") fee.el
  rp : SpellsOptHeader (obj.get "rp") fee.rp

/-- A fee that passed its checks. -/
structure ValidFee (chain : Chain) (fee : FeeParams) : Prop where
  mode : fee.mode.Of chain
  required : RequiredFields fee
  gas_limit : OptDecimal fee.gas_limit
  base_fee_per_gas : OptDecimal fee.base_fee_per_gas
  max_priority_fee_per_gas : OptDecimal fee.max_priority_fee_per_gas
  max_fee_per_gas : OptDecimal fee.max_fee_per_gas
  gas_price : OptDecimal fee.gas_price
  el : OptDecimal fee.el
  rp : ∀ header, fee.rp = some header → ValidHeader header

theorem check_mode_of_chain_eq_ok {chain : Chain} {mode : FeeMode} {u : Unit} :
    check_mode_of_chain chain mode = .ok u ↔ mode.Of chain := by
  cases chain <;> cases mode <;> simp [check_mode_of_chain, FeeMode.Of]

theorem check_mode_fields_eq_ok {fee : FeeParams} {u : Unit} :
    check_mode_fields fee = .ok u ↔ RequiredFields fee := by
  unfold check_mode_fields RequiredFields
  cases fee.mode with
  | Eip1559 => simp [Option.ne_none_iff_isSome]
  -- the price may come from either of two fields
  | Legacy =>
    cases hprice : fee.gas_price <;> cases hmax : fee.max_fee_per_gas <;>
      simp [effective_gas_price, hprice, hmax, Option.ne_none_iff_isSome]
  | Tron => simp

theorem validate_fee_eq_ok {raw : Option Value} {chain : Chain} {fee : FeeParams} :
    validate_fee raw chain = .ok fee ↔
      (∃ obj, raw = some (.object obj) ∧ SpellsFee obj fee) ∧ ValidFee chain fee := by
  unfold validate_fee
  simp only [bind_eq_ok, ok_or_eq_ok, Value.as_object_eq_some_bind, require_fee_mode_eq_ok,
    check_mode_of_chain_eq_ok, optional_int_string_eq_ok, optional_block_header_eq_ok,
    check_mode_fields_eq_ok, exists_const, Except.ok.injEq]
  -- every reader is an `iff`, so the two sides list the same facts in two orders
  constructor
  · rintro ⟨obj, hobj, mode, hmode, hof, gas_limit, ⟨h1, v1⟩, base_fee, ⟨h2, v2⟩, priority,
      ⟨h3, v3⟩, max_fee, ⟨h4, v4⟩, gas_price, ⟨h5, v5⟩, el, ⟨h6, v6⟩, rp, ⟨h7, v7⟩, hreq, rfl⟩
    exact ⟨⟨obj, hobj, hmode, h1, h2, h3, h4, h5, h6, h7⟩, hof, hreq, v1, v2, v3, v4, v5, v6, v7⟩
  · rintro ⟨⟨obj, hobj, hs⟩, hv⟩
    exact ⟨obj, hobj, _, hs.mode, hv.mode, _, ⟨hs.gas_limit, hv.gas_limit⟩, _,
      ⟨hs.base_fee_per_gas, hv.base_fee_per_gas⟩, _,
      ⟨hs.max_priority_fee_per_gas, hv.max_priority_fee_per_gas⟩, _,
      ⟨hs.max_fee_per_gas, hv.max_fee_per_gas⟩, _, ⟨hs.gas_price, hv.gas_price⟩, _,
      ⟨hs.el, hv.el⟩, _, ⟨hs.rp, hv.rp⟩, hv.required, rfl⟩

/-! ## The transaction -/

/-- A valid address of the chain. -/
def IsAddress (cr : Crates) (chain : Chain) (address : String) : Prop :=
  match chain with
  | .Ethereum => ∃ bs, SpellsEvm address bs
  | .Tron => ∃ bs, SpellsTron cr address bs

/-- The payload says what the transaction has. Nothing is checked here. -/
structure Spells (obj : Map) (p : PreparedTransaction) : Prop where
  chain : obj.get "chain" = some (.string p.chain.wire_name)
  chain_id : optional_number obj "chainId" = p.chain_id
  «from» : obj.get "from" = some (.string p.«from»)
  «to» : obj.get "to" = some (.string p.«to»)
  value_wei : ∃ v, obj.get "valueWei" = some v ∧ SpellsInt v p.value_wei
  data : optional_string obj "data" = p.data
  tx_type : obj.get "txType" = some (.string p.tx_type.wire_name)
  token_contract : optional_string obj "tokenContract" = p.token_contract
  nonce : SpellsOptInt (obj.get "nonce") p.nonce
  fee : ∃ fee, obj.get "fee" = some (.object fee) ∧ SpellsFee fee p.fee

/-- The rules of an EVM transaction beyond those of every transaction. -/
structure ValidEvm (p : PreparedTransaction) : Prop where
  chain_id : ∃ id, p.chain_id = some id ∧ 1 ≤ id.toInt
  nonce : ∃ n : ℕ, p.nonce = some n.repr ∧ n ≤ MAX_SAFE_JS_INT
  native : p.tx_type = .TransferNative → non_empty_calldata p.data = none
  token : p.tx_type = .TransferToken → ∃ data recipient amount token,
    p.data = some data ∧ SpellsTransfer data recipient amount ∧
      p.token_contract = some token ∧ eq_ignore_ascii_case p.«to» token = true ∧ p.value_wei = "0"

/-- A transaction that passed its checks. Where it was read from does not matter. -/
structure Valid (cr : Crates) (p : PreparedTransaction) : Prop where
  «from» : IsAddress cr p.chain p.«from»
  «to» : IsAddress cr p.chain p.«to»
  value_wei : IsDecimal p.value_wei
  data : p.data ≠ some ""
  token_contract : ∀ token, p.token_contract = some token → IsAddress cr p.chain token
  token : p.tx_type = .TransferToken → p.token_contract ≠ none
  nonce : OptDecimal p.nonce
  fee : ValidFee p.chain p.fee
  evm : p.chain = .Ethereum → ValidEvm p

theorem SpellsEvm.not_blank {address : String} {bs : List UInt8} (h : SpellsEvm address bs) :
    is_blank address = false := by
  obtain ⟨-, ds, hds, -⟩ := h
  rw [bytes_0x] at hds
  exact is_blank_of_head hds (by decide) (by decide)

theorem validate_tron_address_eq_ok {cr : Crates} (hcr : HexLaws cr) {address field : String}
    {u : Unit} : validate_tron_address cr address field = .ok u ↔
      ∃ bs, SpellsTron cr address bs := by
  simp [validate_tron_address, tron_address_to_bytes_eq_ok hcr]

/-- An address of either chain starts with a visible character. -/
theorem IsAddress.not_blank {cr : Crates} (hcr : HexLaws cr) {chain : Chain} {address : String}
    (h : IsAddress cr chain address) : is_blank address = false := by
  cases chain with
  | Ethereum =>
    obtain ⟨bs, hbs⟩ := h
    exact hbs.not_blank
  | Tron =>
    obtain ⟨bs, hbs⟩ := h
    exact tron_address_not_blank ((tron_address_to_bytes_eq_ok hcr).2 hbs)

theorem check_token_contract_eq_ok {check : String → String → Run Unit}
    {token_contract : Option String} {u : Unit} :
    check_token_contract check token_contract = .ok u ↔
      ∀ token, token_contract = some token → check token "tokenContract" = .ok () := by
  cases token_contract <;> simp [check_token_contract]

/-- The checks `validate` makes chain by chain, in one statement. -/
theorem validate_chain_fields_eq_ok {cr : Crates} (hcr : HexLaws cr) {chain : Chain}
    {chain_id : Option Int64} {nonce token_contract : Option String} {from_ to_ : String}
    {u : Unit} (hnonce : OptDecimal nonce) :
    validate_chain_fields cr chain chain_id nonce from_ to_ token_contract = .ok u ↔
      IsAddress cr chain from_ ∧ IsAddress cr chain to_ ∧
        (∀ token, token_contract = some token → IsAddress cr chain token) ∧
        (chain = .Ethereum → (∃ id, chain_id = some id ∧ 1 ≤ id.toInt) ∧
          ∃ n : ℕ, nonce = some n.repr ∧ n ≤ MAX_SAFE_JS_INT) := by
  cases chain with
  | Tron =>
    simp [validate_chain_fields, validate_tron_fields, validate_tron_address_eq_ok hcr,
      check_token_contract_eq_ok, IsAddress]
  | Ethereum =>
    simp only [validate_chain_fields, validate_evm_fields, bind_eq_ok, reject_if_eq_ok,
      exists_const, not_not, ok_or_eq_ok, validate_evm_address_eq_ok, check_token_contract_eq_ok,
      IsAddress, forall_const]
    constructor
    · rintro ⟨hid, nonce', rfl, hn, hfrom, hto, htoken⟩
      refine ⟨hfrom, hto, htoken, ?_, ?_⟩
      · simpa [Option.any_eq_true] using hid
      · -- the nonce is canonical, so its parser answers by its value alone
        obtain ⟨n, -, rfl⟩ := hnonce nonce' rfl
        rw [u64_from_str_repr] at hn
        split at hn
        · next hlt =>
          rw [Option.any_some, decide_eq_true_eq, toNat_ofNat_u64 hlt] at hn
          exact ⟨n, rfl, hn⟩
        · simp at hn
    · rintro ⟨hfrom, hto, htoken, ⟨id, rfl, hid⟩, n, rfl, hn⟩
      -- `2^53 - 1` is far below the width of the parser
      have hlt : n < 2 ^ 64 := lt_of_le_of_lt hn (by decide)
      refine ⟨by simpa using hid, n.repr, rfl, ?_, hfrom, hto, htoken⟩
      rw [u64_from_str_repr, if_pos hlt, Option.any_some, decide_eq_true_eq, toNat_ofNat_u64 hlt]
      exact hn

theorem check_native_calldata_eq_ok {tx_type : TxType} {chain : Chain} {data : Option String}
    {u : Unit} : check_native_calldata tx_type chain data = .ok u ↔
      (tx_type = .TransferNative → chain = .Ethereum → non_empty_calldata data = none) := by
  unfold check_native_calldata
  cases tx_type <;> cases chain <;> simp
  cases non_empty_calldata data <;> simp

theorem check_token_transfer_eq_ok {tx_type : TxType} {chain : Chain}
    {data token_contract : Option String} {to_ value_wei : String} {u : Unit} :
    check_token_transfer tx_type chain data to_ token_contract value_wei = .ok u ↔
      (tx_type = .TransferToken → ∃ token, token_contract = some token ∧
        (chain = .Ethereum → (∃ d recipient amount, data = some d ∧
          SpellsTransfer d recipient amount) ∧ eq_ignore_ascii_case to_ token = true ∧
            value_wei = "0")) := by
  unfold check_token_transfer
  cases tx_type <;> cases chain <;> simp [validate_evm_token_transfer_eq_ok]

/-- **What `validate` does.** It returns `p` exactly when the input is an object that
spells `p`, and `p` is valid. -/
theorem validate_eq_ok {cr : Crates} (hcr : HexLaws cr) {input : Value}
    {p : PreparedTransaction} :
    validate cr input = .ok p ↔ (∃ obj, input = .object obj ∧ Spells obj p) ∧ Valid cr p := by
  unfold validate
  simp only [bind_eq_ok, ok_or_eq_ok, Value.as_object_eq_some, require_chain_eq_ok,
    require_tx_type_eq_ok, require_non_empty_string_eq_ok, require_int_string_eq_ok,
    optional_int_string_eq_ok, validate_fee_eq_ok, check_native_calldata_eq_ok,
    check_token_transfer_eq_ok, Except.ok.injEq, exists_const]
  -- the readers give `Spells`, and the checks behind them `Valid`
  constructor
  · rintro ⟨obj, rfl, chain, hchain, tx_type, htx, from_, ⟨hfrom, -⟩, to_, ⟨hto, -⟩, value_wei,
      ⟨hvalue, vvalue⟩, nonce, ⟨hnonce, vnonce⟩, fee, ⟨hfee, vfee⟩, _, hchecks, hnative, htoken,
      rfl⟩
    obtain ⟨afrom, ato, atoken, hevm⟩ := (validate_chain_fields_eq_ok hcr vnonce).1 hchecks
    refine ⟨⟨obj, rfl, hchain, rfl, hfrom, hto, hvalue, rfl, htx, rfl, hnonce, hfee⟩, afrom, ato,
      vvalue, optional_string_ne_empty _ _, atoken, ?_, vnonce, vfee, ?_⟩
    · intro htx'
      obtain ⟨token, ht, -⟩ := htoken htx'
      dsimp only
      rw [ht]
      simp
    · intro hc
      refine ⟨(hevm hc).1, (hevm hc).2, fun htx' => hnative htx' hc, ?_⟩
      intro htx'
      obtain ⟨token, ht, hrest⟩ := htoken htx'
      obtain ⟨⟨d, recipient, amount, hd, hs⟩, heq, hzero⟩ := hrest hc
      exact ⟨d, recipient, amount, token, hd, hs, ht, heq, hzero⟩
  · rintro ⟨⟨obj, rfl, hs⟩, hv⟩
    refine ⟨obj, rfl, p.chain, hs.chain, p.tx_type, hs.tx_type, p.«from»,
      ⟨hs.«from», hv.«from».not_blank hcr⟩, p.«to», ⟨hs.«to», hv.«to».not_blank hcr⟩, p.value_wei,
      ⟨hs.value_wei, hv.value_wei⟩, p.nonce, ⟨hs.nonce, hv.nonce⟩, p.fee, ⟨hs.fee, hv.fee⟩, ?_⟩
    rw [hs.chain_id, hs.data, hs.token_contract]
    refine ⟨(), (validate_chain_fields_eq_ok hcr hv.nonce).2 ⟨hv.«from», hv.«to», hv.token_contract,
      fun hc => ⟨(hv.evm hc).chain_id, (hv.evm hc).nonce⟩⟩, fun htx hc => (hv.evm hc).native htx,
      ?_, rfl⟩
    intro htx
    obtain ⟨token, ht⟩ := Option.ne_none_iff_exists'.1 (hv.token htx)
    refine ⟨token, ht, fun hc => ?_⟩
    obtain ⟨d, recipient, amount, token', hd, hsp, ht', heq, hzero⟩ := (hv.evm hc).token htx
    -- `Valid` names the token contract twice, and they are the same
    obtain rfl : token = token' := Option.some.inj (ht.symm.trans ht')
    exact ⟨⟨d, recipient, amount, hd, hsp⟩, heq, hzero⟩

end TxCompiler
