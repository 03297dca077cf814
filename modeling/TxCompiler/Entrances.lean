/-
**Two ways into a `PreparedTransaction`, and one transaction.**

A payload can be validated, or deserialised by the derived code; `compile` takes what comes out of
either. The two readers are different programs. One takes integers as numbers, looks at ten names
and ignores the rest, and treats a text of the wrong type as absent; the other takes structs as
arrays and enumerations as objects, and refuses a field of the wrong type. Where both of them
read a payload they have to read the same: a difference is a transaction that is checked in one
form and signed in another.

`deserialised_agrees` is that they do, up to the empty texts that the validator drops, and that
nothing of the difference reaches a signature: the two transactions are compiled by one run. The
other way around, a transaction that was never validated can be validated after the fact, by
serialising it: `revalidate` says that this is an exact check of the fields it has.
-/
import TxCompiler.Answer
import TxCompiler.Language
import TxCompiler.Layout

set_option autoImplicit false

namespace TxCompiler

open Rust Json Serde

/-! ## A field, read twice -/

section Fields

variable {obj : Map} {name : String} {index : ℕ}

theorem text_agrees {s s' : String} (h : obj.get name = some (.string s))
    (h' : required (.members obj) index name read_string = some s') : s = s' := by
  rw [required, Source.field, h, Option.bind_some] at h'
  exact Option.some.inj h'

/-- The validator takes an enumeration by its name only, and that is one of the spellings the
derived code takes. -/
theorem variant_agrees {α : Type} {variant : String → Option α} {s : String} {a b : α}
    (h : obj.get name = some (.string s)) (hs : variant s = some a)
    (h' : required (.members obj) index name (read_variant variant) = some b) : a = b := by
  rw [required, Source.field, h, Option.bind_some] at h'
  exact Option.some.inj (hs.symm.trans h')

theorem amount_agrees {s s' : String} (h : ∃ v, obj.get name = some v ∧ SpellsInt v s)
    (h' : required (.members obj) index name read_string = some s') : s = s' := by
  obtain ⟨v, hv, hs⟩ := h
  rw [required, Source.field, hv, Option.bind_some] at h'
  -- a number is no text, so the payload has the decimal itself
  rcases hs with rfl | ⟨u, rfl, -⟩
  · exact Option.some.inj h'
  · simp [read_string] at h'

theorem read_option_string_eq_some {v : Value} {o : Option String} :
    read_option read_string v = some o ↔
      (v = .null ∧ o = none) ∨ ∃ s, v = .string s ∧ o = some s := by
  cases v <;> simp [read_option, Value.is_null, read_string, eq_comm]

/-- What the derived code takes for an optional text. -/
theorem optional_text_eq_some {o : Option String} :
    optional (.members obj) index name read_string = some o ↔
      (Absent obj name ∧ o = none) ∨ ∃ s, obj.get name = some (.string s) ∧ o = some s := by
  unfold Serde.optional Source.field Absent
  dsimp only
  cases hget : obj.get name with
  | none => simp [eq_comm]
  | some v => simp [read_option_string_eq_some]

theorem opt_amount_agrees {o o' : Option String} (h : SpellsOptInt (obj.get name) o)
    (h' : optional (.members obj) index name read_string = some o') : o = o' := by
  rcases optional_text_eq_some.1 h' with ⟨habsent, rfl⟩ | ⟨s, hs, rfl⟩
  · cases o with
    | none => rfl
    | some s =>
      obtain ⟨v, hv, hspells⟩ := h
      rcases habsent with hno | hnull
      · simp [hno] at hv
      · obtain rfl : v = .null := Option.some.inj (hv.symm.trans hnull)
        rcases hspells with h0 | ⟨u, h0, -⟩ <;> simp at h0
  · cases o with
    | none => rcases h with h | h <;> simp [hs] at h
    | some t =>
      obtain ⟨v, hv, hspells⟩ := h
      obtain rfl : v = .string s := Option.some.inj (hv.symm.trans hs)
      rcases hspells with h0 | ⟨u, h0, -⟩
      · rw [Value.string.injEq] at h0
        rw [h0]
      · simp at h0

/-- A text that is only informational may be of any type for the validator. -/
theorem info_agrees {o o' : Option String} (h : (obj.get name).bind Value.as_str = o)
    (h' : optional (.members obj) index name read_string = some o') : o = o' := by
  rcases optional_text_eq_some.1 h' with ⟨hno | hnull, rfl⟩ | ⟨s, hs, rfl⟩
  · rw [← h, hno]
    rfl
  · rw [← h, hnull]
    rfl
  · rw [← h, hs]
    rfl

theorem opt_text_agrees {o : Option String}
    (h : optional (.members obj) index name read_string = some o) :
    optional_string obj name = o.filter (· ≠ "") := by
  unfold optional_string
  rcases optional_text_eq_some.1 h with ⟨hno | hnull, rfl⟩ | ⟨s, hs, rfl⟩
  · rw [hno]
    rfl
  · rw [hnull]
    rfl
  · rw [hs]
    by_cases h0 : s = "" <;> simp [Option.filter, h0]

theorem number_agrees {o : Option Int64}
    (h : optional (.members obj) index name read_i64 = some o) : optional_number obj name = o := by
  unfold Serde.optional Source.field at h
  unfold optional_number
  dsimp only at h
  cases hget : obj.get name with
  | none =>
    rw [hget] at h
    exact Option.some.inj h
  | some v =>
    rw [hget] at h
    dsimp only at h ⊢
    unfold read_option at h
    by_cases hnull : v.is_null = true
    · rw [if_pos hnull, Option.some.injEq] at h
      rw [if_pos hnull, h]
    · rw [if_neg hnull, Option.map_eq_some_iff] at h
      obtain ⟨id, hid, rfl⟩ := h
      rw [if_neg hnull, show v.as_i64 = some id from hid]

end Fields

/-! ## A payload, read twice -/

theorem header_agrees {obj : Map} {header header' : TronBlockHeader}
    (h : SpellsHeader obj header)
    (h' : TronBlockHeader.from_value (.object obj) = some header') : header = header' := by
  unfold TronBlockHeader.from_value at h'
  simp only [source, Option.bind_eq_bind, Option.bind_some, Option.bind_eq_some_iff,
    Option.some.injEq] at h'
  obtain ⟨bh, hh, n, hn, t, ht, bp, hp, br, hr, bw, hw, v, hv, rfl⟩ := h'
  simp only [required, Source.field, h.n, h.t, h.v, Option.bind_some, read_u64, read_u32,
    Value.as_u64, Number.as_u64, Option.some.injEq] at hn ht hv
  have hv' : some header.v = some v := (read_u32_from header.v).symm.trans hv
  rw [← text_agrees h.h hh, ← info_agrees h.p hp, ← info_agrees h.r hr, ← info_agrees h.w hw, ← hn,
    ← ht, ← Option.some.inj hv']

/-- A block header is an object for the validator, and may be an array for the derived code. -/
theorem opt_header_agrees {obj : Map} {name : String} {index : ℕ} {o o' : Option TronBlockHeader}
    (h : SpellsOptHeader (obj.get name) o)
    (h' : Serde.optional (.members obj) index name TronBlockHeader.from_value = some o') :
    o = o' := by
  unfold Serde.optional Source.field at h'
  dsimp only at h'
  cases o with
  | none =>
    rcases h with hno | hnull
    · rw [hno] at h'
      exact Option.some.inj h'
    · rw [hnull] at h'
      exact Option.some.inj h'
  | some header =>
    obtain ⟨member, hm, hspells⟩ := h
    rw [hm] at h'
    obtain ⟨header', hread, rfl⟩ := Option.map_eq_some_iff.1 h'
    rw [header_agrees hspells hread]

theorem fee_agrees {obj : Map} {fee fee' : FeeParams} (h : SpellsFee obj fee)
    (h' : FeeParams.from_value (.object obj) = some fee') : fee = fee' := by
  unfold FeeParams.from_value at h'
  simp only [source, Option.bind_eq_bind, Option.bind_some, Option.bind_eq_some_iff,
    Option.some.injEq] at h'
  obtain ⟨mode, hmode, _, h1, _, h2, _, h3, _, h4, _, h5, _, h6, _, h7, rfl⟩ := h'
  rw [← variant_agrees h.mode (read_mode fee.mode) hmode, ← opt_amount_agrees h.gas_limit h1,
    ← opt_amount_agrees h.base_fee_per_gas h2, ← opt_amount_agrees h.max_priority_fee_per_gas h3,
    ← opt_amount_agrees h.max_fee_per_gas h4, ← opt_amount_agrees h.gas_price h5,
    ← opt_amount_agrees h.el h6, ← opt_header_agrees h.rp h7]

/-- The validator has no empty calldata and no empty token contract. -/
def PreparedTransaction.drop_empty (q : PreparedTransaction) : PreparedTransaction :=
  { q with
    data := q.data.filter (· ≠ "")
    token_contract := q.token_contract.filter (· ≠ "") }

theorem payload_agrees {obj : Map} {p q : PreparedTransaction} (h : Spells obj p)
    (h' : PreparedTransaction.from_value (.object obj) = some q) : p = q.drop_empty := by
  unfold PreparedTransaction.from_value at h'
  simp only [source, Option.bind_eq_bind, Option.bind_some, Option.bind_eq_some_iff,
    Option.some.injEq] at h'
  obtain ⟨chain, hchain, _, hid, _, hfrom, _, hto, _, hvalue, _, hdata, tx_type, htx, _, htoken, _,
    hnonce, fee, hfee, rfl⟩ := h'
  obtain ⟨member, hmember, hspells⟩ := h.fee
  rw [required, Source.field, hmember, Option.bind_some] at hfee
  unfold PreparedTransaction.drop_empty
  dsimp only
  rw [← variant_agrees h.chain (read_chain p.chain) hchain, ← number_agrees hid, h.chain_id,
    ← text_agrees h.«from» hfrom, ← text_agrees h.«to» hto, ← amount_agrees h.value_wei hvalue,
    ← opt_text_agrees hdata, h.data, ← variant_agrees h.tx_type (read_tx_type p.tx_type) htx,
    ← opt_text_agrees htoken, h.token_contract, ← opt_amount_agrees h.nonce hnonce,
    ← fee_agrees hspells hfee]

/-! ## Nothing of the difference is signed or shown -/

section DropEmpty

variable {cr : Crates} (q : PreparedTransaction)

theorem filter_eq (o : Option String) :
    o.filter (· ≠ "") = o ∨ (o = some "" ∧ o.filter (· ≠ "") = none) := by
  cases o with
  | none => exact .inl rfl
  | some s =>
    by_cases h : s = ""
    · exact .inr ⟨by rw [h], by simp [Option.filter, h]⟩
    · exact .inl (by simp [Option.filter, h])

theorem decode_calldata_drop_empty (cr : Crates) (data : Option String) :
    decode_calldata cr (data.filter (· ≠ "")) = decode_calldata cr data := by
  rcases filter_eq data with h | ⟨hdata, h⟩
  · rw [h]
  · rw [h, hdata]
    rfl

theorem compile_evm_drop_empty : compile_evm cr q.drop_empty = compile_evm cr q := by
  have hcommon : derive_common cr q.drop_empty = derive_common cr q := by
    unfold derive_common
    simp only [PreparedTransaction.drop_empty, decode_calldata_drop_empty]
  unfold compile_evm
  rw [hcommon]
  rfl

/-- The token contract is read by the token transfers of Tron alone. -/
theorem build_contract_drop_empty
    (h : q.tx_type = .TransferToken → q.token_contract ≠ some "") :
    build_contract cr q.drop_empty = build_contract cr q := by
  unfold build_contract
  cases htx : q.tx_type with
  | TransferNative =>
    simp only [show q.drop_empty.tx_type = .TransferNative from htx]
    rfl
  | TransferToken =>
    have htoken : q.drop_empty.token_contract = q.token_contract :=
      (filter_eq q.token_contract).resolve_right fun hempty => h htx hempty.1
    simp only [show q.drop_empty.tx_type = .TransferToken from htx, htoken]
    rfl

/-- The two transactions are compiled by the same run, errors included, unless an empty text is the
token contract of a Tron token transfer. -/
theorem compile_drop_empty
    (h : q.chain = .Tron → q.tx_type = .TransferToken → q.token_contract ≠ some "")
    (options : CompileOptions) : compile cr q.drop_empty options = compile cr q options := by
  unfold compile
  cases hc : q.chain with
  | Ethereum =>
    simp only [show q.drop_empty.chain = .Ethereum from hc]
    exact compile_evm_drop_empty q
  | Tron =>
    simp only [show q.drop_empty.chain = .Tron from hc]
    unfold compile_tron
    rw [build_contract_drop_empty q (h hc)]
    rfl

/-- A Tron token transfer needs a token contract that decodes. -/
theorem token_of_compile {p : PreparedTransaction} {options : CompileOptions}
    {res : CompilationResult} (hc : p.chain = .Tron) (htx : p.tx_type = .TransferToken)
    (hres : compile cr p options = .ok res) :
    ∃ token bs, p.token_contract = some token ∧ tron_address_to_bytes cr token = .ok bs := by
  unfold compile at hres
  rw [hc] at hres
  obtain ⟨header, -, hres⟩ := bind_eq_ok.1 hres
  obtain ⟨ref, -, hres⟩ := bind_eq_ok.1 hres
  obtain ⟨contract, hcontract, -⟩ := bind_eq_ok.1 hres
  unfold build_contract at hcontract
  rw [htx] at hcontract
  obtain ⟨owner, -, hcontract⟩ := bind_eq_ok.1 hcontract
  obtain ⟨token, htoken, hcontract⟩ := bind_eq_ok.1 hcontract
  obtain ⟨bs, hbs, -⟩ := bind_eq_ok.1 hcontract
  exact ⟨token, bs, ok_or_eq_ok.1 htoken, hbs⟩

/-- Where the runs differ, neither returns: the one misses the token contract, and the other cannot
decode it. -/
theorem compile_drop_empty_iff (options : CompileOptions) (res : CompilationResult) :
    compile cr q.drop_empty options = .ok res ↔ compile cr q options = .ok res := by
  by_cases h : q.chain = .Tron ∧ q.tx_type = .TransferToken ∧ q.token_contract = some ""
  · obtain ⟨hc, htx, htoken⟩ := h
    refine iff_of_false (fun hres => ?_) fun hres => ?_
    · obtain ⟨token, -, hsome, -⟩ := @token_of_compile cr q.drop_empty _ _ hc htx hres
      simp [PreparedTransaction.drop_empty, htoken, Option.filter] at hsome
    · obtain ⟨token, bs, hsome, hbs⟩ := token_of_compile hc htx hres
      obtain rfl : "" = token := Option.some.inj (htoken.symm.trans hsome)
      -- an accepted address is not blank
      have hblank := tron_address_not_blank hbs
      rw [is_blank_empty] at hblank
      exact absurd hblank (by decide)
  · rw [compile_drop_empty q fun hc htx htoken => h ⟨hc, htx, htoken⟩]

/-- A valid transaction has its token contract where it needs one. -/
theorem token_ne_empty_of_valid (hv : Valid cr q.drop_empty) (htx : q.tx_type = .TransferToken) :
    q.token_contract ≠ some "" := by
  intro htoken
  apply hv.token htx
  simp [PreparedTransaction.drop_empty, htoken, Option.filter]

/-- A transfer cannot be decoded from no digits. -/
theorem review_transfer_drop_empty :
    (review_transfer cr q.drop_empty).toOption = (review_transfer cr q).toOption := by
  unfold review_transfer
  simp only [PreparedTransaction.drop_empty]
  cases q.tx_type with
  | TransferNative => rfl
  | TransferToken =>
    cases q.chain with
    | Tron => rfl
    | Ethereum =>
      dsimp only
      rcases filter_eq q.data with h | ⟨hdata, h⟩
      · rw [h]
      · rw [h, hdata]
        rfl

theorem review_drop_empty :
    (review cr q.drop_empty).toOption = (review cr q).toOption.map fun r =>
      { r with token_contract := q.drop_empty.token_contract } := by
  unfold review
  rw [toOption_bind, toOption_bind, review_transfer_drop_empty, Option.map_bind]
  rfl

end DropEmpty

/-! ## The two entrances -/

section Entrances

variable {cr : Crates} {v : Value} {p q : PreparedTransaction}

/-- **One payload, one transaction.** Where the validator and the derived code both read a payload,
they read the same up to empty texts, and the two are compiled by the same run. A review differs in
a token contract that was the empty text, and in nothing else. -/
theorem deserialised_agrees (hhex : HexLaws cr) (h : validate cr v = .ok p)
    (h' : PreparedTransaction.from_value v = some q) :
    p = q.drop_empty ∧ (∀ options, compile cr p options = compile cr q options) ∧
      ∀ r, review cr p = .ok r ↔ ∃ r', review cr q = .ok r' ∧
        r = { r' with token_contract := p.token_contract } := by
  obtain ⟨⟨obj, rfl, hs⟩, hv⟩ := (validate_eq_ok hhex).1 h
  obtain rfl := payload_agrees hs h'
  refine ⟨rfl, compile_drop_empty q fun _ => token_ne_empty_of_valid q hv, ?_⟩
  intro r
  rw [← toOption_eq_some, review_drop_empty, Option.map_eq_some_iff]
  constructor
  · rintro ⟨r', hr', rfl⟩
    exact ⟨r', toOption_eq_some.1 hr', rfl⟩
  · rintro ⟨r', hr', rfl⟩
    exact ⟨r', toOption_eq_some.2 hr', rfl⟩

/-- An empty token contract is kept by one reader and dropped by the other. -/
theorem tron_native_deserialised :
    ∃ p q, validate reference (tron_native_payload "5000000" (.string "")) = .ok p ∧
      PreparedTransaction.from_value (tron_native_payload "5000000" (.string "")) = some q ∧
      p ≠ q ∧ ∀ options, compile reference p options = compile reference q options := by
  have hvalid : validate reference (tron_native_payload "5000000" (.string ""))
      = .ok (tron_native "5000000" none) := eq_ok_of_toOption (by decide)
  have hread : PreparedTransaction.from_value (tron_native_payload "5000000" (.string ""))
      = some (tron_native "5000000" (some "")) := by decide
  obtain ⟨-, hcompile, -⟩ := deserialised_agrees reference_hex hvalid hread
  exact ⟨_, _, hvalid, hread, by decide, hcompile⟩

/-- The written members of a transaction spell it, without its empty texts. -/
theorem spells_drop_empty (q : PreparedTransaction) : Spells q.members q.drop_empty := by
  obtain ⟨gchain, gid, gfrom, gto, gvalue, gdata, gtx, gtoken, gnonce, gfee⟩ := transaction_get q
  exact ⟨gchain, optional_number_of_null gid, gfrom, gto, ⟨_, gvalue, .inl rfl⟩,
    opt_text_agrees (null_text_of_get 5 gdata), gtx, opt_text_agrees (null_text_of_get 7 gtoken),
    spellsOptInt_of_null gnonce, _, gfee, fee_spells q.fee⟩

/-- **Validation after the fact.** A transaction of any origin can be serialised and validated; this
accepts it exactly when its fields are valid, and what comes back is the transaction itself,
without its empty texts. The two are compiled by the same run, errors included; and where nothing
was validated they are still compiled to the same results. -/
theorem revalidate (hhex : HexLaws cr) (q p : PreparedTransaction) :
    (validate cr q.to_value = .ok p ↔ p = q.drop_empty ∧ Valid cr p) ∧
      (validate cr q.to_value = .ok p →
        ∀ options, compile cr p options = compile cr q options) ∧
      (p = q.drop_empty → ∀ options res,
        compile cr p options = .ok res ↔ compile cr q options = .ok res) := by
  have hiff : validate cr q.to_value = .ok p ↔ p = q.drop_empty ∧ Valid cr p := by
    constructor
    · intro h
      obtain ⟨⟨obj, hobj, hs⟩, hv⟩ := (validate_eq_ok hhex).1 h
      obtain rfl : q.members = obj := Value.object.inj hobj
      exact ⟨payload_agrees hs (transaction_from_to q), hv⟩
    · rintro ⟨rfl, hv⟩
      exact (validate_eq_ok hhex).2 ⟨⟨_, rfl, spells_drop_empty q⟩, hv⟩
  refine ⟨hiff, fun h => ?_, ?_⟩
  · obtain ⟨rfl, hv⟩ := hiff.1 h
    exact compile_drop_empty q fun _ => token_ne_empty_of_valid q hv
  · rintro rfl
    exact compile_drop_empty_iff q

theorem tron_native_revalidated :
    validate reference (tron_native "5000000" (some "")).to_value
        = .ok (tron_native "5000000" none) ∧
      ∀ options, compile reference (tron_native "5000000" none) options
        = compile reference (tron_native "5000000" (some "")) options := by
  obtain ⟨-, hv⟩ := (validate_eq_ok reference_hex).1 validate_tron_native
  obtain ⟨hiff, hruns, -⟩ :=
    revalidate reference_hex (tron_native "5000000" (some "")) (tron_native "5000000" none)
  have hvalid := hiff.2 ⟨by decide, hv⟩
  exact ⟨hvalid, hruns hvalid⟩

end Entrances

end TxCompiler
