/-
**The canonical payload language.** `Canonical cr v` writes out which JSON values are
payloads, member by member and without the validator: what each may be, and what the chain,
the intent and the fee mode require of it. `validate_accepts_canonical` says that this
conjunction is exactly what the validator accepts, and that an accepted transaction carries
every value it was given: strings letter by letter, integers as their decimals.

The proof goes through `validate_eq_ok`. From a transaction that spells the object the
conjuncts are read off; in the other direction the transaction is put together from the
members, one optional integer at a time (`optInt_spelled`).
-/
import TxCompiler.Reference
import TxCompiler.Validated

set_option autoImplicit false

namespace TxCompiler

open Rust Json

/-! ## Members -/

/-- A canonical decimal string of at most 78 digits, or a JSON integer of 64 bits. -/
def Denotes (v : Value) (n : ℕ) : Prop :=
  (v = .string n.repr ∧ n < 10 ^ 78) ∨ ∃ u : UInt64, v = .number (.posInt u) ∧ u.toNat = n

section Members

variable (obj : Map) (field : String)

/-- `null` and nothing are one. -/
def Absent : Prop := obj.get field = none ∨ obj.get field = some .null

/-- A member that denotes an integer, as a number or as its decimal. -/
def HasInt : Prop := ∃ v n, obj.get field = some v ∧ Denotes v n

/-- A member that denotes an integer if it is there. -/
def OptInt : Prop := Absent obj field ∨ HasInt obj field

/-- A JSON integer within bounds; no string counts. -/
def HasNumber (lo hi : ℕ) : Prop :=
  ∃ u : UInt64, obj.get field = some (.number (.posInt u)) ∧ lo ≤ u.toNat ∧ u.toNat ≤ hi

end Members

/-! ## The language -/

/-- A block header: a block id, three numbers and three short texts. -/
structure CanonicalHeader (obj : Map) : Prop where
  h : ∃ h, obj.get "h" = some (.string h) ∧ len h = 64 ∧ ∀ b ∈ bytes h, is_ascii_hexdigit b = true
  n : HasNumber obj "n" 1 (2 ^ 64 - 1)
  t : HasNumber obj "t" 1 (2 ^ 64 - 1)
  v : HasNumber obj "v" 0 (2 ^ 32 - 1)
  info : ∀ field ∈ ["p", "r", "w"], ∀ s, obj.get field = some (.string s) → len s ≤ 128

/-- The mode, and the members it requires. -/
def CanonicalMode (chain : Chain) (obj : Map) : Prop :=
  match chain with
  | .Ethereum =>
    (obj.get "mode" = some (.string "EIP1559") ∧ HasInt obj "gasLimit" ∧
      HasInt obj "maxFeePerGas" ∧ HasInt obj "maxPriorityFeePerGas") ∨
    (obj.get "mode" = some (.string "LEGACY") ∧ HasInt obj "gasLimit" ∧
      (HasInt obj "gasPrice" ∨ HasInt obj "maxFeePerGas"))
  | .Tron => obj.get "mode" = some (.string "TRON") ∧ ¬ Absent obj "rp"

/-- A fee object. Members of other modes are allowed, if they denote integers. -/
structure CanonicalFee (chain : Chain) (obj : Map) : Prop where
  mode : CanonicalMode chain obj
  ints : ∀ field ∈ ["gasLimit", "baseFeePerGas", "maxPriorityFeePerGas", "maxFeePerGas",
    "gasPrice", "el"], OptInt obj field
  rp : Absent obj "rp" ∨ ∃ header, obj.get "rp" = some (.object header) ∧ CanonicalHeader header

/-- What Ethereum asks for: a chain id, a nonce that JavaScript can hold, and the calldata of the
intent. -/
structure CanonicalEvm (tx_type : TxType) (obj : Map) : Prop where
  chain_id : HasNumber obj "chainId" 1 (2 ^ 63 - 1)
  nonce : ∃ v n, obj.get "nonce" = some v ∧ Denotes v n ∧ n ≤ 2 ^ 53 - 1
  native : tx_type = .TransferNative →
    ∀ data, obj.get "data" = some (.string data) → data = "" ∨ data = "0x"
  token : tx_type = .TransferToken → ∃ data recipient amount to_ token v,
    obj.get "data" = some (.string data) ∧ SpellsTransfer data recipient amount ∧
      obj.get "to" = some (.string to_) ∧ obj.get "tokenContract" = some (.string token) ∧
        eq_ignore_ascii_case to_ token = true ∧ obj.get "valueWei" = some v ∧ Denotes v 0

/-- The members of a payload for this chain and this intent. -/
structure CanonicalPayload (cr : Crates) (chain : Chain) (tx_type : TxType) (obj : Map) : Prop where
  «from» : ∃ s, obj.get "from" = some (.string s) ∧ IsAddress cr chain s
  «to» : ∃ s, obj.get "to" = some (.string s) ∧ IsAddress cr chain s
  value_wei : HasInt obj "valueWei"
  nonce : OptInt obj "nonce"
  fee : ∃ fee, obj.get "fee" = some (.object fee) ∧ CanonicalFee chain fee
  token_contract : ∀ s, obj.get "tokenContract" = some (.string s) → s ≠ "" → IsAddress cr chain s
  token : tx_type = .TransferToken → ∃ s, obj.get "tokenContract" = some (.string s) ∧ s ≠ ""
  evm : chain = .Ethereum → CanonicalEvm tx_type obj

/-- The grammar of payloads, stated on the JSON. -/
def Canonical (cr : Crates) (v : Value) : Prop :=
  ∃ (obj : Map) (chain : Chain) (tx_type : TxType), v = .object obj ∧
    obj.get "chain" = some (.string chain.wire_name) ∧
      obj.get "txType" = some (.string tx_type.wire_name) ∧ CanonicalPayload cr chain tx_type obj

/-! ## What is carried -/

/-- A string is carried exactly when it is given and not empty. -/
def CarriesText (obj : Map) (field : String) (o : Option String) : Prop :=
  ∀ s, o = some s ↔ obj.get field = some (.string s) ∧ s ≠ ""

/-- An integer is carried as its decimal. -/
def CarriesInt (obj : Map) (field : String) (o : Option String) : Prop :=
  ∀ s, o = some s ↔ ∃ v n, obj.get field = some v ∧ Denotes v n ∧ s = n.repr

/-- Field by field, the fee has what the object says. -/
structure CarriesFee (obj : Map) (fee : FeeParams) : Prop where
  mode : obj.get "mode" = some (.string fee.mode.as_str)
  gas_limit : CarriesInt obj "gasLimit" fee.gas_limit
  base_fee_per_gas : CarriesInt obj "baseFeePerGas" fee.base_fee_per_gas
  max_priority_fee_per_gas :
    CarriesInt obj "maxPriorityFeePerGas" fee.max_priority_fee_per_gas
  max_fee_per_gas : CarriesInt obj "maxFeePerGas" fee.max_fee_per_gas
  gas_price : CarriesInt obj "gasPrice" fee.gas_price
  el : CarriesInt obj "el" fee.el
  rp : ∀ header, fee.rp = some header ↔
    ∃ member, obj.get "rp" = some (.object member) ∧ SpellsHeader member header

/-- Field by field, the transaction has what the payload says, and nothing else. -/
structure Carries (obj : Map) (p : PreparedTransaction) : Prop where
  chain : obj.get "chain" = some (.string p.chain.wire_name)
  chain_id : ∀ id, p.chain_id = some id ↔
    ∃ v, obj.get "chainId" = some v ∧ v.as_i64 = some id
  «from» : obj.get "from" = some (.string p.«from»)
  «to» : obj.get "to" = some (.string p.«to»)
  value_wei : CarriesInt obj "valueWei" (some p.value_wei)
  data : CarriesText obj "data" p.data
  tx_type : obj.get "txType" = some (.string p.tx_type.wire_name)
  token_contract : CarriesText obj "tokenContract" p.token_contract
  nonce : CarriesInt obj "nonce" p.nonce
  fee : ∃ fee, obj.get "fee" = some (.object fee) ∧ CarriesFee fee p.fee

/-! ## Integers -/

section Integers

variable {obj : Map} {field : String}

theorem denotes_iff {v : Value} {s : String} :
    SpellsInt v s ∧ IsDecimal s ↔ ∃ n, Denotes v n ∧ s = n.repr := by
  -- a string denotes its own decimal, a number the one it prints as
  constructor
  · rintro ⟨rfl | ⟨u, rfl, rfl⟩, n, hn, hs⟩
    · exact ⟨n, .inl ⟨by rw [hs], hn⟩, hs⟩
    · exact ⟨u.toNat, .inr ⟨u, rfl, rfl⟩, rfl⟩
  · rintro ⟨n, ⟨rfl, hn⟩ | ⟨u, rfl, rfl⟩, rfl⟩
    · exact ⟨.inl rfl, n, hn, rfl⟩
    · exact ⟨.inr ⟨u, rfl, rfl⟩, isDecimal_u64 u⟩

/-- A member denotes one number. -/
theorem Denotes.unique {v : Value} {m n : ℕ} (hm : Denotes v m) (hn : Denotes v n) : m = n := by
  rcases hm with ⟨rfl, -⟩ | ⟨u, rfl, rfl⟩ <;> rcases hn with ⟨h, -⟩ | ⟨w, h, rfl⟩
  · -- two strings
    exact repr_inj (Value.string.inj h)
  · simp at h
  · simp at h
  · simp only [Value.number.injEq, Number.posInt.injEq] at h
    rw [h]

theorem hasInt_iff : HasInt obj field ↔
    ∃ s, (∃ v, obj.get field = some v ∧ SpellsInt v s) ∧ IsDecimal s := by
  constructor
  · rintro ⟨v, n, hv, hn⟩
    obtain ⟨hs, hd⟩ := denotes_iff.2 ⟨n, hn, rfl⟩
    exact ⟨n.repr, ⟨v, hv, hs⟩, hd⟩
  · rintro ⟨s, ⟨v, hv, hs⟩, hd⟩
    obtain ⟨n, hn, -⟩ := denotes_iff.1 ⟨hs, hd⟩
    exact ⟨v, n, hv, hn⟩

theorem not_hasInt_of_absent (h : Absent obj field) : ¬ HasInt obj field := by
  rintro ⟨v, n, hv, hn⟩
  rcases h with h | h
  · simp [h] at hv
  · rw [h] at hv
    obtain rfl := Option.some.inj hv
    rcases hn with ⟨h', -⟩ | ⟨u, h', -⟩ <;> simp at h'

variable {o : Option String}

theorem carriesInt_of_spells (hs : SpellsOptInt (obj.get field) o) (hd : OptDecimal o) :
    CarriesInt obj field o := by
  intro s
  constructor
  · rintro rfl
    obtain ⟨v, hv, hsp⟩ := hs
    obtain ⟨n, hn, rfl⟩ := denotes_iff.1 ⟨hsp, hd s rfl⟩
    exact ⟨v, n, hv, hn, rfl⟩
  · rintro ⟨v, n, hv, hn, rfl⟩
    cases o with
    | none => exact absurd ⟨v, n, hv, hn⟩ (not_hasInt_of_absent hs)
    | some s =>
      obtain ⟨v', hv', hsp⟩ := hs
      -- the object has one member of that name, and the member denotes one number
      obtain rfl : v = v' := Option.some.inj (hv.symm.trans hv')
      obtain ⟨m, hm, rfl⟩ := denotes_iff.1 ⟨hsp, hd s rfl⟩
      rw [hn.unique hm]

theorem hasInt_of_spells (hs : SpellsOptInt (obj.get field) o) (hd : OptDecimal o) :
    o ≠ none ↔ HasInt obj field := by
  rw [Option.ne_none_iff_exists']
  constructor
  · rintro ⟨s, hsome⟩
    obtain ⟨v, n, hv, hn, -⟩ := (carriesInt_of_spells hs hd s).1 hsome
    exact ⟨v, n, hv, hn⟩
  · rintro ⟨v, n, hv, hn⟩
    exact ⟨n.repr, (carriesInt_of_spells hs hd _).2 ⟨v, n, hv, hn, rfl⟩⟩

theorem optInt_of_spells (hs : SpellsOptInt (obj.get field) o) (hd : OptDecimal o) :
    OptInt obj field := by
  cases o with
  | none => exact .inl hs
  | some s => exact .inr ((hasInt_of_spells hs hd).1 (by simp))

/-- The optional integer a member spells. -/
theorem optInt_spelled (h : OptInt obj field) :
    ∃ o, SpellsOptInt (obj.get field) o ∧ OptDecimal o := by
  rcases h with h | h
  · exact ⟨none, h, fun s hs => by simp at hs⟩
  · obtain ⟨s, hs, hd⟩ := hasInt_iff.1 h
    refine ⟨some s, hs, ?_⟩
    rintro s' ⟨⟩
    exact hd

end Integers

/-! ## The block header -/

theorem canonicalHeader_of_spells {obj : Map} {header : TronBlockHeader}
    (hs : SpellsHeader obj header) (hv : ValidHeader header) : CanonicalHeader obj where
  h := by
    obtain ⟨-, hlen, hhex⟩ := block_id_iff.2 hv.h
    exact ⟨header.h, hs.h, hlen, (is_hex_iff.1 hhex).2⟩
  n := ⟨header.n, hs.n, UInt64.lt_iff_toNat_lt.1 hv.n, Nat.le_sub_one_of_lt header.n.toNat_lt⟩
  t := ⟨header.t, hs.t, UInt64.lt_iff_toNat_lt.1 hv.t, Nat.le_sub_one_of_lt header.t.toNat_lt⟩
  v := by
    refine ⟨_, hs.v, Nat.zero_le _, ?_⟩
    rw [UInt32.toNat_toUInt64]
    exact Nat.le_sub_one_of_lt header.v.toNat_lt
  info := by
    have hread : ∀ {field : String} {o : Option String} {s : String},
        (obj.get field).bind Value.as_str = o → (∀ s, o = some s → len s ≤ MAX_INFO_FIELD_LEN) →
          obj.get field = some (.string s) → len s ≤ 128 := by
      intro field o s ho hle hget
      exact hle s (by rw [← ho, Value.as_str_eq_some_bind, hget])
    intro field hmem s hget
    simp only [List.mem_cons, List.not_mem_nil, or_false] at hmem
    rcases hmem with rfl | rfl | rfl
    · exact hread hs.p hv.p hget
    · exact hread hs.r hv.r hget
    · exact hread hs.w hv.w hget

theorem header_spelled {obj : Map} (h : CanonicalHeader obj) :
    ∃ header, SpellsHeader obj header ∧ ValidHeader header := by
  obtain ⟨hash, hhash, hlen, hdigits⟩ := h.h
  obtain ⟨n, hn, hn1, -⟩ := h.n
  obtain ⟨t, ht, ht1, -⟩ := h.t
  obtain ⟨v, hv, -, hv32⟩ := h.v
  have hne : hash ≠ "" := by
    rintro rfl
    exact absurd hlen (by decide)
  -- in range, the version survives the narrow type
  have hvnum : v.toUInt32.toUInt64 = v := by
    rw [← UInt64.toNat_inj, UInt32.toNat_toUInt64, UInt64.toNat_toUInt32]
    exact Nat.mod_eq_of_lt (by omega)
  -- a member of another type is dropped, so only strings are bounded
  have hinfo : ∀ field ∈ ["p", "r", "w"], ∀ s,
      (obj.get field).bind Value.as_str = some s → len s ≤ MAX_INFO_FIELD_LEN :=
    fun field hmem s hs => h.info field hmem s (Value.as_str_eq_some_bind.1 hs)
  refine ⟨{
    h := hash
    n
    t
    p := (obj.get "p").bind Value.as_str
    r := (obj.get "r").bind Value.as_str
    w := (obj.get "w").bind Value.as_str
    v := v.toUInt32 }, ⟨hhash, hn, ht, ?_, rfl, rfl, rfl⟩, ?_, ?_, ?_, ?_, ?_, ?_⟩
  · dsimp only
    rw [hvnum]
    exact hv
  · exact block_id_iff.1 ⟨hne, hlen, is_hex_iff.2 ⟨hne, hdigits⟩⟩
  · exact UInt64.lt_iff_toNat_lt.2 hn1
  · exact UInt64.lt_iff_toNat_lt.2 ht1
  · exact hinfo "p" (by simp)
  · exact hinfo "r" (by simp)
  · exact hinfo "w" (by simp)

/-- A header is spelled by one object in one way. -/
theorem SpellsHeader.unique {obj : Map} {header header' : TronBlockHeader}
    (h : SpellsHeader obj header) (h' : SpellsHeader obj header') : header = header' := by
  have hh := h.h.symm.trans h'.h
  have hn := h.n.symm.trans h'.n
  have ht := h.t.symm.trans h'.t
  have hv := h.v.symm.trans h'.v
  have hp := h.p.symm.trans h'.p
  have hr := h.r.symm.trans h'.r
  have hw := h.w.symm.trans h'.w
  cases header
  cases header'
  simp only [Option.some.injEq, Value.string.injEq, Value.number.injEq, Number.posInt.injEq]
    at hh hn ht hv
  -- the version is compared at the width it was written at
  have hv' := congrArg UInt64.toUInt32 hv
  simp only [UInt32.toUInt32_toUInt64] at hv'
  simp only [TronBlockHeader.mk.injEq]
  exact ⟨hh, hn, ht, hp, hr, hw, hv'⟩

/-! ## Fees -/

section Fees

variable {chain : Chain} {obj : Map} {fee : FeeParams}

theorem carriesHeader_of_spells {raw : Option Value} {o : Option TronBlockHeader}
    (h : SpellsOptHeader raw o) (header : TronBlockHeader) : o = some header ↔
      ∃ member, raw = some (.object member) ∧ SpellsHeader member header := by
  constructor
  · rintro rfl
    exact h
  · rintro ⟨member, rfl, hs⟩
    cases o with
    | none => rcases h with h | h <;> simp at h
    | some header' =>
      obtain ⟨member', hm, hs'⟩ := h
      obtain rfl : member = member' := by simpa using hm
      rw [hs.unique hs']

theorem carriesFee_of_spells (hs : SpellsFee obj fee) (hv : ValidFee chain fee) :
    CarriesFee obj fee where
  mode := hs.mode
  gas_limit := carriesInt_of_spells hs.gas_limit hv.gas_limit
  base_fee_per_gas := carriesInt_of_spells hs.base_fee_per_gas hv.base_fee_per_gas
  max_priority_fee_per_gas :=
    carriesInt_of_spells hs.max_priority_fee_per_gas hv.max_priority_fee_per_gas
  max_fee_per_gas := carriesInt_of_spells hs.max_fee_per_gas hv.max_fee_per_gas
  gas_price := carriesInt_of_spells hs.gas_price hv.gas_price
  el := carriesInt_of_spells hs.el hv.el
  rp := carriesHeader_of_spells hs.rp

/-- The effective gas price is there as soon as one of its two sources is. -/
theorem effective_gas_price_ne_none :
    effective_gas_price fee ≠ none ↔ fee.gas_price ≠ none ∨ fee.max_fee_per_gas ≠ none := by
  unfold effective_gas_price
  cases fee.gas_price <;> simp

/-- The mode of the JSON text against the mode of the fee it spells. -/
theorem canonicalMode_iff (hs : SpellsFee obj fee) (hgas : OptDecimal fee.gas_limit)
    (hpriority : OptDecimal fee.max_priority_fee_per_gas) (hmax : OptDecimal fee.max_fee_per_gas)
    (hprice : OptDecimal fee.gas_price) :
    CanonicalMode chain obj ↔ fee.mode.Of chain ∧ RequiredFields fee := by
  have hmode := hs.mode
  -- the validator reads the header whatever the mode, and Tron requires it
  have habsent : fee.rp ≠ none ↔ ¬ Absent obj "rp" := by
    have hrp := hs.rp
    cases hh : fee.rp with
    | none =>
      rw [hh] at hrp
      exact iff_of_false (by simp) (not_not.2 hrp)
    | some header =>
      rw [hh] at hrp
      obtain ⟨member, hm, -⟩ := hrp
      simp [Absent, hm]
  unfold CanonicalMode RequiredFields FeeMode.Of
  rw [hmode, ← hasInt_of_spells hs.gas_limit hgas, ← hasInt_of_spells hs.max_fee_per_gas hmax,
    ← hasInt_of_spells hs.max_priority_fee_per_gas hpriority,
    ← hasInt_of_spells hs.gas_price hprice, ← effective_gas_price_ne_none, ← habsent]
  -- with the members replaced by the fields, both sides are the same table
  cases chain <;> cases fee.mode <;> simp [FeeMode.as_str]

theorem canonicalFee_of_spells (hs : SpellsFee obj fee) (hv : ValidFee chain fee) :
    CanonicalFee chain obj where
  mode := (canonicalMode_iff hs hv.gas_limit hv.max_priority_fee_per_gas hv.max_fee_per_gas
    hv.gas_price).2 ⟨hv.mode, hv.required⟩
  ints := by
    intro field hmem
    simp only [List.mem_cons, List.not_mem_nil, or_false] at hmem
    rcases hmem with rfl | rfl | rfl | rfl | rfl | rfl
    · exact optInt_of_spells hs.gas_limit hv.gas_limit
    · exact optInt_of_spells hs.base_fee_per_gas hv.base_fee_per_gas
    · exact optInt_of_spells hs.max_priority_fee_per_gas hv.max_priority_fee_per_gas
    · exact optInt_of_spells hs.max_fee_per_gas hv.max_fee_per_gas
    · exact optInt_of_spells hs.gas_price hv.gas_price
    · exact optInt_of_spells hs.el hv.el
  rp := by
    have hrp := hs.rp
    cases hh : fee.rp with
    | none =>
      rw [hh] at hrp
      exact .inl hrp
    | some header =>
      rw [hh] at hrp
      obtain ⟨member, hm, hsp⟩ := hrp
      exact .inr ⟨member, hm, canonicalHeader_of_spells hsp (hv.rp header hh)⟩

/-- The mode a canonical fee names. -/
theorem mode_spelled (h : CanonicalMode chain obj) :
    ∃ mode : FeeMode, obj.get "mode" = some (.string mode.as_str) := by
  cases chain with
  | Tron => exact ⟨.Tron, h.1⟩
  | Ethereum =>
    rcases h with h | h
    · exact ⟨.Eip1559, h.1⟩
    · exact ⟨.Legacy, h.1⟩

theorem header_member_spelled
    (h : Absent obj "rp" ∨
      ∃ header, obj.get "rp" = some (.object header) ∧ CanonicalHeader header) :
    ∃ rp, SpellsOptHeader (obj.get "rp") rp ∧ ∀ header, rp = some header → ValidHeader header := by
  rcases h with h | ⟨member, hm, hcanonical⟩
  · exact ⟨none, h, fun header hh => by simp at hh⟩
  · obtain ⟨header, hs, hv⟩ := header_spelled hcanonical
    refine ⟨some header, ⟨member, hm, hs⟩, ?_⟩
    rintro header' ⟨⟩
    exact hv

theorem fee_spelled (h : CanonicalFee chain obj) :
    ∃ fee, SpellsFee obj fee ∧ ValidFee chain fee := by
  obtain ⟨mode, hmode⟩ := mode_spelled h.mode
  obtain ⟨gas_limit, s1, v1⟩ := optInt_spelled (h.ints "gasLimit" (by simp))
  obtain ⟨base_fee, s2, v2⟩ := optInt_spelled (h.ints "baseFeePerGas" (by simp))
  obtain ⟨priority, s3, v3⟩ := optInt_spelled (h.ints "maxPriorityFeePerGas" (by simp))
  obtain ⟨max_fee, s4, v4⟩ := optInt_spelled (h.ints "maxFeePerGas" (by simp))
  obtain ⟨gas_price, s5, v5⟩ := optInt_spelled (h.ints "gasPrice" (by simp))
  obtain ⟨el, s6, v6⟩ := optInt_spelled (h.ints "el" (by simp))
  obtain ⟨rp, s7, v7⟩ := header_member_spelled h.rp
  -- the fee put together from what its members spell
  have hs : SpellsFee obj ⟨mode, gas_limit, base_fee, priority, max_fee, gas_price, el, rp⟩ :=
    ⟨hmode, s1, s2, s3, s4, s5, s6, s7⟩
  obtain ⟨hof, hrequired⟩ := (canonicalMode_iff hs v1 v3 v4 v5).1 h.mode
  exact ⟨_, hs, hof, hrequired, v1, v2, v3, v4, v5, v6, v7⟩

end Fees

/-! ## The payload -/

section Payload

variable {cr : Crates} {obj : Map} {p : PreparedTransaction}

/-- A positive number of the `i64` range is a non-negative JSON integer. -/
theorem chain_id_iff : HasNumber obj "chainId" 1 (2 ^ 63 - 1) ↔
    ∃ id, optional_number obj "chainId" = some id ∧ 1 ≤ id.toInt := by
  simp only [optional_number_eq_some]
  constructor
  · rintro ⟨u, hu, h1, h63⟩
    have hlt : u.toNat < 2 ^ 63 := by omega
    refine ⟨Int64.ofNat u.toNat, ⟨_, hu, ?_⟩, ?_⟩
    · show i64_try_from_u64 u = _
      rw [i64_try_from_u64, if_pos hlt]
    · rw [Int64.toInt_ofNat_of_lt hlt]
      omega
  · rintro ⟨id, ⟨v, hv, hid⟩, hpos⟩
    -- of the six kinds of value only a number is read, and of the numbers only integers
    rcases v with _ | _ | (u | ⟨i, hneg⟩ | _) | _ | _ | _ <;>
      simp only [Value.as_i64, Number.as_i64, reduceCtorEq, Option.some.injEq] at hid
    · rw [i64_try_from_u64] at hid
      split at hid
      · next hlt =>
        obtain rfl := Option.some.inj hid
        rw [Int64.toInt_ofNat_of_lt hlt] at hpos
        exact ⟨u, hv, by omega, by omega⟩
      · simp at hid
    · -- a negative one is read, but it is not positive
      have h0 : (0 : Int64).toInt = 0 := by decide
      rw [hid, Int64.lt_iff_toInt_lt] at hneg
      omega

theorem native_calldata_iff : non_empty_calldata (optional_string obj "data") = none ↔
    ∀ data, obj.get "data" = some (.string data) → data = "" ∨ data = "0x" := by
  rw [← Option.not_isSome_iff_eq_none, Option.isSome_iff_exists]
  simp only [non_empty_calldata_eq_some, optional_string_eq_some, not_exists]
  constructor
  · intro h data hdata
    by_contra hne
    push Not at hne
    exact h data ⟨⟨hdata, hne.1⟩, hne⟩
  · rintro h data ⟨⟨hdata, -⟩, hne, hne'⟩
    rcases h data hdata with h | h
    · exact hne h
    · exact hne' h

theorem carriesText_of_spells {field : String} {o : Option String}
    (h : optional_string obj field = o) : CarriesText obj field o := by
  intro s
  rw [← h, optional_string_eq_some]

theorem carries_of_spells (hs : Spells obj p) (hv : Valid cr p) : Carries obj p where
  chain := hs.chain
  chain_id := by
    intro id
    rw [← hs.chain_id, optional_number_eq_some]
  «from» := hs.«from»
  «to» := hs.«to»
  value_wei := by
    refine carriesInt_of_spells (o := some p.value_wei) hs.value_wei ?_
    rintro s ⟨⟩
    exact hv.value_wei
  data := carriesText_of_spells hs.data
  tx_type := hs.tx_type
  token_contract := carriesText_of_spells hs.token_contract
  nonce := carriesInt_of_spells hs.nonce hv.nonce
  fee := by
    obtain ⟨fee, hfee, hsp⟩ := hs.fee
    exact ⟨fee, hfee, carriesFee_of_spells hsp hv.fee⟩

theorem canonicalEvm_of_spells (hs : Spells obj p) (hv : Valid cr p) (he : ValidEvm p) :
    CanonicalEvm p.tx_type obj where
  chain_id := by
    rw [chain_id_iff, hs.chain_id]
    exact he.chain_id
  nonce := by
    obtain ⟨n, hn, hle⟩ := he.nonce
    obtain ⟨v, m, hv', hm, heq⟩ := (carriesInt_of_spells hs.nonce hv.nonce _).1 hn
    rw [repr_inj heq] at hle
    exact ⟨v, m, hv', hm, hle⟩
  native := by
    intro htx
    rw [← native_calldata_iff, hs.data]
    exact he.native htx
  token := by
    intro htx
    obtain ⟨data, recipient, amount, token, hdata, hsp, htoken, heq, hzero⟩ := he.token htx
    have hc := carries_of_spells hs hv
    obtain ⟨v, n, hget, hn, hrepr⟩ := (hc.value_wei p.value_wei).1 rfl
    rw [hzero, ← zero_repr] at hrepr
    rw [← repr_inj hrepr] at hn
    exact ⟨data, recipient, amount, p.«to», token, v, ((hc.data data).1 hdata).1, hsp, hs.«to»,
      ((hc.token_contract token).1 htoken).1, heq, hget, hn⟩

theorem canonicalPayload_of_spells (hs : Spells obj p) (hv : Valid cr p) :
    CanonicalPayload cr p.chain p.tx_type obj where
  «from» := ⟨p.«from», hs.«from», hv.«from»⟩
  «to» := ⟨p.«to», hs.«to», hv.«to»⟩
  value_wei := hasInt_iff.2 ⟨p.value_wei, hs.value_wei, hv.value_wei⟩
  nonce := optInt_of_spells hs.nonce hv.nonce
  fee := by
    obtain ⟨fee, hfee, hsp⟩ := hs.fee
    exact ⟨fee, hfee, canonicalFee_of_spells hsp hv.fee⟩
  token_contract := fun s hget hne =>
    hv.token_contract s ((carriesText_of_spells hs.token_contract s).2 ⟨hget, hne⟩)
  token := by
    intro htx
    obtain ⟨s, hs'⟩ := Option.ne_none_iff_exists'.1 (hv.token htx)
    exact ⟨s, (carriesText_of_spells hs.token_contract s).1 hs'⟩
  evm := fun hc => canonicalEvm_of_spells hs hv (hv.evm hc)

/-- The EVM rules of a transaction that spells a canonical object. -/
theorem validEvm_of_canonical {tx_type : TxType} (h : CanonicalPayload cr .Ethereum tx_type obj)
    (htx : p.tx_type = tx_type) (hs : Spells obj p) (hvalue : IsDecimal p.value_wei)
    (hnonce : OptDecimal p.nonce) : ValidEvm p where
  chain_id := by
    rw [← hs.chain_id]
    exact chain_id_iff.1 (h.evm rfl).chain_id
  nonce := by
    obtain ⟨v, n, hget, hden, hle⟩ := (h.evm rfl).nonce
    exact ⟨n, (carriesInt_of_spells hs.nonce hnonce _).2 ⟨v, n, hget, hden, rfl⟩, hle⟩
  native := by
    intro hnative
    rw [← hs.data]
    exact native_calldata_iff.2 ((h.evm rfl).native (htx ▸ hnative))
  token := by
    intro htoken
    obtain ⟨data, recipient, amount, to_, token, v, hdata, hsp, hto, htok, heq, hget, hzero⟩ :=
      (h.evm rfl).token (htx ▸ htoken)
    obtain ⟨token', htok', hne⟩ := h.token (htx ▸ htoken)
    -- the object names its token, its recipient and its value once
    obtain rfl : token = token' := by simpa [htok] using htok'
    have hto' : p.«to» = to_ := by simpa [hto, eq_comm] using hs.«to»
    obtain ⟨w, hw, hsw⟩ := hs.value_wei
    obtain rfl : v = w := by simpa [hget] using hw
    obtain ⟨n, hn, hrepr⟩ := denotes_iff.1 ⟨hsw, hvalue⟩
    refine ⟨data, recipient, amount, token, ?_, hsp, ?_, ?_, ?_⟩
    · exact (carriesText_of_spells hs.data data).2 ⟨hdata, hsp.ne_empty.1⟩
    · exact (carriesText_of_spells hs.token_contract token).2 ⟨htok, hne⟩
    · rw [hto']
      exact heq
    · rw [hrepr, hn.unique hzero, zero_repr]

theorem payload_spelled {chain : Chain} {tx_type : TxType}
    (hchain : obj.get "chain" = some (.string chain.wire_name))
    (htx : obj.get "txType" = some (.string tx_type.wire_name))
    (h : CanonicalPayload cr chain tx_type obj) : ∃ p, Spells obj p ∧ Valid cr p := by
  obtain ⟨from_, hfrom, afrom⟩ := h.«from»
  obtain ⟨to_, hto, ato⟩ := h.«to»
  obtain ⟨value_wei, hvalue, dvalue⟩ := hasInt_iff.1 h.value_wei
  obtain ⟨nonce, hnonce, dnonce⟩ := optInt_spelled h.nonce
  obtain ⟨fee_obj, hfee, hcanonical⟩ := h.fee
  obtain ⟨fee, sfee, vfee⟩ := fee_spelled hcanonical
  -- the transaction put together from the members
  have hs : Spells obj {
      chain
      chain_id := optional_number obj "chainId"
      «from» := from_
      «to» := to_
      value_wei
      data := optional_string obj "data"
      tx_type
      token_contract := optional_string obj "tokenContract"
      nonce
      fee } :=
    ⟨hchain, rfl, hfrom, hto, hvalue, rfl, htx, rfl, hnonce, fee_obj, hfee, sfee⟩
  refine ⟨_, hs, afrom, ato, dvalue, optional_string_ne_empty _ _, ?_, ?_, dnonce, vfee, ?_⟩
  · intro token ht
    obtain ⟨hget, hne⟩ := optional_string_eq_some.1 ht
    exact h.token_contract token hget hne
  · intro htoken
    obtain ⟨token, hget, hne⟩ := h.token htoken
    rw [Option.ne_none_iff_exists']
    exact ⟨token, optional_string_eq_some.2 ⟨hget, hne⟩⟩
  · rintro rfl
    exact validEvm_of_canonical h rfl hs dvalue dnonce

/-- **The accepted payloads are the canonical ones**, and none of their values is lost. -/
theorem validate_accepts_canonical (hhex : HexLaws cr) (v : Value) :
    ((∃ p, validate cr v = .ok p) ↔ Canonical cr v) ∧
      ∀ p, validate cr v = .ok p → ∃ obj, v = .object obj ∧ Carries obj p := by
  constructor
  · constructor
    · rintro ⟨p, h⟩
      obtain ⟨⟨obj, rfl, hs⟩, hv⟩ := (validate_eq_ok hhex).1 h
      exact ⟨obj, p.chain, p.tx_type, rfl, hs.chain, hs.tx_type, canonicalPayload_of_spells hs hv⟩
    · rintro ⟨obj, chain, tx_type, rfl, hchain, htx, h⟩
      obtain ⟨p, hs, hv⟩ := payload_spelled hchain htx h
      exact ⟨p, (validate_eq_ok hhex).2 ⟨⟨obj, rfl, hs⟩, hv⟩⟩
  · intro p h
    obtain ⟨⟨obj, rfl, hs⟩, hv⟩ := (validate_eq_ok hhex).1 h
    exact ⟨obj, rfl, carries_of_spells hs hv⟩

theorem evm_token_payload_canonical :
    Canonical reference (evm_token_payload sample_calldata (.string "1649")) :=
  (validate_accepts_canonical reference_hex _).1.1 ⟨_, validate_evm_token⟩

end Payload

end TxCompiler
