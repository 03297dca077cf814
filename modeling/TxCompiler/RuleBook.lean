/-
**The error code of a rejected payload.**

Of an error only its code is promised to callers; text and details may change. `payload_rules` lists
what `validate` requires, in the order in which it is required, each with the code of its error, and
`validate_follows` says that `validate` answers by the first rule that is violated: it accepts when
there is none. The rules are stated on the JSON of the payload, in the words of its grammar, and not
by the tests of the code. Five of these make up one rule for calldata, for instance, and the sixth,
of the address inside it, has no rule: it cannot fail behind the others.
-/
import TxCompiler.Discipline
import TxCompiler.Layout
import TxCompiler.Safety
import TxCompiler.Verdict

set_option autoImplicit false

namespace TxCompiler

open Rust Json

/-! ## The rules -/

section Rules

variable (cr : Crates) (chain : Chain) (tx_type : TxType) (obj : Map)

/-- A text that is there and is not blank. -/
def HasText (field : String) : Prop := ∃ s, obj.get field = some (.string s) ∧ is_blank s = false

/-- A text that is given is an address of the chain. -/
def IsAddressAt (field : String) : Prop :=
  ∀ s, obj.get field = some (.string s) → s ≠ "" → IsAddress cr chain s

/-- The chain a payload names. The rules behind it are those of that chain. -/
def named_chain : Option Chain := ((obj.get "chain").bind Value.as_str).bind Chain.from_name

/-- The intent it names. -/
def named_tx_type : Option TxType := ((obj.get "txType").bind Value.as_str).bind TxType.from_name

/-- What a Tron fee can lack is its block header. -/
def missing_fee_code : TxCompilerErrorCode :=
  match chain with
  | .Ethereum => .MissingFeeParams
  | .Tron => .InvalidBlockHeader

/-- The rules of the fee: a mode, a mode of the chain, six amounts, the block header, and the
members of the mode, in this order. -/
def fee_rules (fee : Map) : Rules TxCompilerErrorCode :=
  [(∃ mode : FeeMode, fee.get "mode" = some (.string mode.as_str), .UnsupportedFeeMode),
    (∃ mode : FeeMode, fee.get "mode" = some (.string mode.as_str) ∧ mode.Of chain,
      .UnsupportedFeeMode)] ++
  fee_amounts.map (fun field => (OptInt fee field, .InvalidAmount)) ++
  [(Absent fee "rp" ∨ ∃ header, fee.get "rp" = some (.object header) ∧ CanonicalHeader header,
      .InvalidBlockHeader),
    (CanonicalMode chain fee, missing_fee_code chain)]

/-- A payload without a fee object breaks one rule, and no rule of the fee. -/
def fee_member_rules : Rules TxCompilerErrorCode :=
  (∃ fee, obj.get "fee" = some (.object fee), .MissingFeeParams) ::
    match (obj.get "fee").bind Value.as_object with
    | some fee => fee_rules chain fee
    | none => []

/-- The addresses in the order in which they are checked; an empty token contract is none. -/
def address_rules : Rules TxCompilerErrorCode :=
  ["from", "to", "tokenContract"].map fun field => (IsAddressAt cr chain obj field, .InvalidAddress)

/-- The nonce has two rules, with one code: it is there, and it is safe for JavaScript. -/
def evm_rules : Rules TxCompilerErrorCode :=
  [(HasNumber obj "chainId" 1 (2 ^ 63 - 1), .InvalidPayload), (HasInt obj "nonce", .InvalidPayload),
    (∃ v n, obj.get "nonce" = some v ∧ Denotes v n ∧ n ≤ 2 ^ 53 - 1, .InvalidPayload)]

/-- The rules of the chain. -/
def chain_rules : Rules TxCompilerErrorCode :=
  match chain with
  | .Ethereum => evm_rules obj ++ address_rules cr .Ethereum obj
  | .Tron => address_rules cr .Tron obj

/-- The rules of a token call: calldata that is given and spells a transfer, sent to the token
contract, without a payment. -/
def evm_token_rules : Rules TxCompilerErrorCode :=
  [(∃ data, obj.get "data" = some (.string data) ∧ data ≠ "" ∧ data ≠ "0x", .InvalidPayload),
    (∃ data recipient amount, obj.get "data" = some (.string data) ∧
      SpellsTransfer data recipient amount, .InvalidCalldata),
    (∃ to_ token, obj.get "to" = some (.string to_) ∧
      obj.get "tokenContract" = some (.string token) ∧ eq_ignore_ascii_case to_ token = true,
      .InvalidPayload),
    (∃ v, obj.get "valueWei" = some v ∧ Denotes v 0, .InvalidPayload)]

/-- The rules of the intent on its chain. -/
def transfer_rules : Rules TxCompilerErrorCode :=
  match tx_type, chain with
  | .TransferNative, .Tron => []
  | .TransferNative, .Ethereum =>
    [(∀ data, obj.get "data" = some (.string data) → data = "" ∨ data = "0x", .InvalidPayload)]
  | .TransferToken, .Tron => [(GivenText obj "tokenContract", .InvalidPayload)]
  | .TransferToken, .Ethereum => (GivenText obj "tokenContract", .InvalidPayload) ::
      evm_token_rules obj

/-- The rules of an object that names its chain and its intent. -/
def member_rules : Rules TxCompilerErrorCode :=
  [(HasText obj "from", .InvalidPayload), (HasText obj "to", .InvalidPayload),
    (HasInt obj "valueWei", .InvalidAmount), (OptInt obj "nonce", .InvalidAmount)] ++
  (fee_member_rules chain obj ++ (chain_rules cr chain obj ++ transfer_rules chain tx_type obj))

/-- Chain and intent come first, since the rules of the other members depend on them. -/
def object_rules : Rules TxCompilerErrorCode :=
  [(named_chain obj ≠ none, .UnsupportedChain), (named_tx_type obj ≠ none, .UnsupportedTxType)] ++
    match named_chain obj, named_tx_type obj with
    | some chain, some tx_type => member_rules cr chain tx_type obj
    | _, _ => []

end Rules

/-- **The rule book of `validate`.** -/
def payload_rules (cr : Crates) (v : Value) : Rules TxCompilerErrorCode :=
  (v.as_object ≠ none, .InvalidPayload) ::
    match v.as_object with
    | some obj => object_rules cr obj
    | none => []

/-! ## The readers -/

/-- The errors with a code, by the two constructors the source builds them with. -/
inductive TxCompilerError.Has (code : TxCompilerErrorCode) : TxCompilerError → Prop
  | new (message : String) : Has code (.new code message)
  | with_details (message : String) (details : Map) : Has code (.with_details code message details)

theorem TxCompilerError.Has.code_eq {code : TxCompilerErrorCode} {e : TxCompilerError}
    (h : Has code e) : e.code = code := by
  cases h <;> rfl

/-- A run that answers an error code by a decision list. -/
abbrev Codes {α : Type} (m : Run α) (rules : Rules TxCompilerErrorCode) : Prop :=
  Follows TxCompilerError.Has m rules

section Readers

variable {obj : Map} {field : String}

theorem chain_from_name_iff {s : String} {chain : Chain} :
    Chain.from_name s = some chain ↔ s = chain.wire_name := by
  constructor
  · intro h
    unfold Chain.from_name at h
    split at h
    · obtain rfl := Option.some.inj h
      rfl
    · obtain rfl := Option.some.inj h
      rfl
    · exact absurd h (by simp)
  · rintro rfl
    cases chain <;> rfl

theorem tx_type_from_name_iff {s : String} {tx_type : TxType} :
    TxType.from_name s = some tx_type ↔ s = tx_type.wire_name := by
  constructor
  · intro h
    unfold TxType.from_name at h
    split at h
    · obtain rfl := Option.some.inj h
      rfl
    · obtain rfl := Option.some.inj h
      rfl
    · exact absurd h (by simp)
  · rintro rfl
    cases tx_type <;> rfl

theorem named_chain_eq_some {chain : Chain} :
    named_chain obj = some chain ↔ obj.get "chain" = some (.string chain.wire_name) := by
  unfold named_chain
  simp only [Option.bind_eq_some_iff, chain_from_name_iff, Value.as_str_eq_some]
  constructor
  · rintro ⟨_, ⟨v, hv, rfl⟩, rfl⟩
    exact hv
  · intro h
    exact ⟨_, ⟨_, h, rfl⟩, rfl⟩

theorem named_tx_type_eq_some {tx_type : TxType} :
    named_tx_type obj = some tx_type ↔ obj.get "txType" = some (.string tx_type.wire_name) := by
  unfold named_tx_type
  simp only [Option.bind_eq_some_iff, tx_type_from_name_iff, Value.as_str_eq_some]
  constructor
  · rintro ⟨_, ⟨v, hv, rfl⟩, rfl⟩
    exact hv
  · intro h
    exact ⟨_, ⟨_, h, rfl⟩, rfl⟩

theorem require_chain_codes :
    Codes (require_chain obj) [(named_chain obj ≠ none, .UnsupportedChain)] := by
  refine Follows.single ?_ ?_ (require_chain_safe obj)
  · simp only [require_chain_eq_ok, Option.ne_none_iff_exists', named_chain_eq_some]
  · unfold require_chain
    split
    · exact Errs.ok
    · exact Errs.ok
    · exact Errs.fail (.new ..)

theorem require_tx_type_codes :
    Codes (require_tx_type obj) [(named_tx_type obj ≠ none, .UnsupportedTxType)] := by
  refine Follows.single ?_ ?_ (require_tx_type_safe obj)
  · simp only [require_tx_type_eq_ok, Option.ne_none_iff_exists', named_tx_type_eq_some]
  · unfold require_tx_type
    split
    · exact Errs.ok
    · exact Errs.ok
    · exact Errs.fail (.new ..)

theorem require_non_empty_string_codes :
    Codes (require_non_empty_string obj field) [(HasText obj field, .InvalidPayload)] := by
  refine Follows.single ?_ ?_ (require_non_empty_string_safe obj field)
  · simp only [require_non_empty_string_eq_ok, HasText]
  · refine Errs.bind ?_ fun _ => Errs.bind (Errs.reject_if (.new ..)) fun _ => Errs.ok
    unfold require_non_empty_string_with
    split
    · split
      · exact Errs.ok
      · exact Errs.fail (.new ..)
    · exact Errs.fail (.new ..)

theorem require_int_string_codes :
    Codes (require_int_string obj field) [(HasInt obj field, .InvalidAmount)] := by
  refine Follows.single ?_ (Errs.ok_or (.with_details ..)) (require_int_string_safe obj field)
  simp only [require_int_string_eq_ok, hasInt_iff]

theorem optional_int_string_codes :
    Codes (optional_int_string obj field) [(OptInt obj field, .InvalidAmount)] := by
  refine Follows.single ?_ ?_ (optional_int_string_safe obj field)
  · simp only [optional_int_string_eq_ok]
    constructor
    · rintro ⟨o, hs, hd⟩
      exact optInt_of_spells hs hd
    · exact optInt_spelled
  · unfold optional_int_string
    split
    · exact Errs.ok
    · split
      · exact Errs.ok
      · exact Errs.bind (Errs.ok_or (.with_details ..)) fun _ => Errs.ok

theorem optional_block_header_codes :
    Codes (optional_block_header (obj.get field)) [(Absent obj field ∨
      ∃ header, obj.get field = some (.object header) ∧ CanonicalHeader header,
      .InvalidBlockHeader)] := by
  refine Follows.single ?_ ?_ (optional_block_header_safe _)
  · simp only [optional_block_header_eq_ok]
    constructor
    · rintro ⟨_ | header, hs, hv⟩
      · exact .inl hs
      · obtain ⟨member, hm, hspells⟩ := hs
        exact .inr ⟨member, hm, canonicalHeader_of_spells hspells (hv header rfl)⟩
    · rintro (h | ⟨member, hm, hcanonical⟩)
      · exact ⟨none, h, fun header h0 => by simp at h0⟩
      · obtain ⟨header, hspells, hv⟩ := header_spelled hcanonical
        refine ⟨some header, ⟨member, hm, hspells⟩, ?_⟩
        rintro _ ⟨⟩
        exact hv
  · -- every check of a header has the code of the header
    have hbounded : ∀ (obj : Map) (name : String),
        Errs (optional_bounded_string obj name MAX_INFO_FIELD_LEN)
          (TxCompilerError.Has .InvalidBlockHeader) := by
      intro obj name
      unfold optional_bounded_string
      split
      · exact Errs.ok
      · exact Errs.bind (Errs.reject_if (.with_details ..)) fun _ => Errs.ok
    have htext : ∀ (obj : Map) (name text : String), Errs (require_non_empty_string_with obj name
        (.new .InvalidBlockHeader text)) (TxCompilerError.Has .InvalidBlockHeader) := by
      intro obj name text
      unfold require_non_empty_string_with
      split
      · split
        · exact Errs.ok
        · exact Errs.fail (.new ..)
      · exact Errs.fail (.new ..)
    unfold optional_block_header
    split
    · exact Errs.ok
    · split
      · exact Errs.ok
      · exact Errs.bind (Errs.ok_or (.new ..)) fun obj => Errs.bind (htext _ _ _) fun _ =>
          Errs.bind (Errs.bind (Errs.ok_or (.new ..)) fun _ => Errs.ok_or (.new ..)) fun _ =>
          Errs.bind (Errs.bind (Errs.ok_or (.new ..)) fun _ => Errs.ok_or (.new ..)) fun _ =>
          Errs.bind (Errs.bind (Errs.ok_or (.new ..)) fun _ =>
            Errs.bind (Errs.ok_or (.new ..)) fun _ => Errs.ok_or (.new ..)) fun _ =>
          Errs.bind (Errs.reject_if (.new ..)) fun _ =>
          Errs.bind (Errs.reject_if (.new ..)) fun _ =>
          Errs.bind (hbounded _ _) fun _ => Errs.bind (hbounded _ _) fun _ =>
          Errs.bind (hbounded _ _) fun _ => Errs.ok

end Readers

/-! ## The fee -/

section Fee

variable {chain : Chain} {fee : Map} {raw : Option Value}

theorem require_fee_mode_codes : Codes (require_fee_mode fee)
    [(∃ mode : FeeMode, fee.get "mode" = some (.string mode.as_str), .UnsupportedFeeMode)] := by
  refine Follows.single ?_ ?_ (require_fee_mode_safe fee)
  · simp only [require_fee_mode_eq_ok]
  · unfold require_fee_mode
    split
    · exact Errs.ok
    · exact Errs.ok
    · exact Errs.ok
    · exact Errs.fail (.new ..)

theorem check_mode_of_chain_codes {mode : FeeMode}
    (hmode : fee.get "mode" = some (.string mode.as_str)) :
    Codes (check_mode_of_chain chain mode) [(∃ mode : FeeMode,
      fee.get "mode" = some (.string mode.as_str) ∧ mode.Of chain, .UnsupportedFeeMode)] := by
  refine Follows.single ?_ ?_ (check_mode_of_chain_safe chain mode)
  · simp only [check_mode_of_chain_eq_ok, exists_const]
    constructor
    · intro hof
      exact ⟨mode, hmode, hof⟩
    · rintro ⟨mode', hmode', hof⟩
      have heq := hmode.symm.trans hmode'
      rw [Option.some.injEq, Value.string.injEq] at heq
      rw [mode_as_str_inj heq]
      exact hof
  · unfold check_mode_of_chain
    split
    · exact Errs.fail (.new ..)
    · exact Errs.fail (.new ..)
    · exact Errs.fail (.new ..)
    · exact Errs.ok

/-- Which of two codes a missing field has depends on the chain, as the mode does by then. -/
theorem check_mode_fields_codes {params : FeeParams} (hof : params.mode.Of chain)
    (hiff : CanonicalMode chain fee ↔ params.mode.Of chain ∧ RequiredFields params) :
    Codes (check_mode_fields params) [(CanonicalMode chain fee, missing_fee_code chain)] := by
  refine Follows.single ?_ ?_ (check_mode_fields_safe params)
  · simp only [check_mode_fields_eq_ok, exists_const, hiff, hof, true_and]
  · unfold check_mode_fields
    cases chain with
    | Ethereum =>
      cases hm : params.mode with
      | Eip1559 => exact Errs.bind (Errs.reject_if (.new ..)) fun _ => Errs.reject_if (.new ..)
      | Legacy => exact Errs.bind (Errs.reject_if (.new ..)) fun _ => Errs.reject_if (.new ..)
      | Tron => exact absurd (hof.1 hm) (by simp)
    | Tron =>
      rw [hof.2 rfl]
      exact Errs.reject_if (.new ..)

/-- The members of a fee are read in the order of its rules; what they are read as is needed only by
the last rule, of the members of the mode. -/
theorem validate_fee_codes : Codes (validate_fee raw chain)
    ((∃ fee, raw = some (.object fee), .MissingFeeParams) ::
      match raw.bind Value.as_object with
      | some fee => fee_rules chain fee
      | none => []) := by
  refine Follows.cons (Follows.ok_or ?_ (.new ..)) fun fee hfee => ?_
  · simp only [Value.as_object_eq_some_bind]
  rw [ok_or_eq_ok] at hfee
  rw [hfee]
  dsimp only
  refine Follows.cons require_fee_mode_codes fun mode hmode => ?_
  rw [require_fee_mode_eq_ok] at hmode
  refine Follows.cons (check_mode_of_chain_codes hmode) fun _ hof => ?_
  rw [check_mode_of_chain_eq_ok] at hof
  refine Follows.cons optional_int_string_codes fun gas_limit h1 => ?_
  refine Follows.cons optional_int_string_codes fun base_fee h2 => ?_
  refine Follows.cons optional_int_string_codes fun max_priority_fee h3 => ?_
  refine Follows.cons optional_int_string_codes fun max_fee h4 => ?_
  refine Follows.cons optional_int_string_codes fun gas_price h5 => ?_
  refine Follows.cons optional_int_string_codes fun el h6 => ?_
  refine Follows.cons optional_block_header_codes fun rp h7 => ?_
  rw [optional_int_string_eq_ok] at h1 h2 h3 h4 h5 h6
  rw [optional_block_header_eq_ok] at h7
  refine Follows.cons (check_mode_fields_codes hof ?_) fun _ _ => Follows.ok
  exact canonicalMode_iff ⟨hmode, h1.1, h2.1, h3.1, h4.1, h5.1, h6.1, h7.1⟩ h1.2 h3.2 h4.2 h5.2

end Fee

/-! ## The addresses -/

section Addresses

variable {cr : Crates} {chain : Chain} {obj : Map} {field : String}

theorem isAddressAt_iff {s : String} (h : obj.get field = some (.string s)) (hne : s ≠ "") :
    IsAddressAt cr chain obj field ↔ IsAddress cr chain s := by
  constructor
  · intro hall
    exact hall s h hne
  · intro haddr s' hs' _
    rw [h, Option.some.injEq, Value.string.injEq] at hs'
    rw [← hs']
    exact haddr

theorem validate_evm_address_codes {s : String} (h : obj.get field = some (.string s))
    (hne : s ≠ "") (label : String) : Codes (validate_evm_address s label)
      [(IsAddressAt cr .Ethereum obj field, .InvalidAddress)] := by
  refine Follows.single ?_ ?_ (validate_evm_address_safe s label)
  · simp only [validate_evm_address_eq_ok, exists_const, isAddressAt_iff h hne, IsAddress]
  · exact Errs.bind (Errs.reject_if (.with_details ..)) fun _ =>
      Errs.bind (Errs.reject_if (.with_details ..)) fun _ =>
      Errs.bind Errs.str_slice fun _ => Errs.reject_if (.with_details ..)

theorem validate_tron_address_codes (hhex : HexLaws cr) {s : String}
    (h : obj.get field = some (.string s)) (hne : s ≠ "") (label : String) :
    Codes (validate_tron_address cr s label)
      [(IsAddressAt cr .Tron obj field, .InvalidAddress)] := by
  refine Follows.single ?_ ?_ (validate_tron_address_safe cr s label)
  · simp only [validate_tron_address_eq_ok hhex, exists_const, isAddressAt_iff h hne, IsAddress]
  · exact Errs.bind (Errs.map_err fun _ => .with_details ..) fun _ => Errs.ok

/-- A token contract that is absent is no address that is invalid. -/
theorem check_token_contract_codes {check : String → String → Run Unit}
    (hcheck : ∀ s, obj.get "tokenContract" = some (.string s) → s ≠ "" →
      Codes (check s "tokenContract") [(IsAddressAt cr chain obj "tokenContract",
        .InvalidAddress)]) :
    Codes (check_token_contract check (optional_string obj "tokenContract"))
      [(IsAddressAt cr chain obj "tokenContract", .InvalidAddress)] := by
  unfold check_token_contract
  cases htoken : optional_string obj "tokenContract" with
  | some s =>
    obtain ⟨hs, hne⟩ := optional_string_eq_some.1 htoken
    exact hcheck s hs hne
  | none =>
    refine Follows.pass ?_ Follows.ok
    intro s hs hne
    have hsome := optional_string_eq_some.2 ⟨hs, hne⟩
    simp [htoken] at hsome

variable {from_ to_ : String}

theorem tron_fields_codes (hhex : HexLaws cr) (hfrom : obj.get "from" = some (.string from_))
    (hne : from_ ≠ "") (hto : obj.get "to" = some (.string to_)) (hne' : to_ ≠ "") :
    Codes (validate_tron_fields cr from_ to_ (optional_string obj "tokenContract"))
      (address_rules cr .Tron obj) :=
  Follows.cons (validate_tron_address_codes hhex hfrom hne _) fun _ _ =>
  Follows.cons (validate_tron_address_codes hhex hto hne' _) fun _ _ =>
  check_token_contract_codes fun _ hs hne => validate_tron_address_codes hhex hs hne _

/-- The bound on the nonce, by the number it denotes. -/
theorem nonce_bound_iff {nonce : String} (hs : SpellsOptInt (obj.get "nonce") (some nonce))
    (hd : OptDecimal (some nonce)) :
    ((u64_from_str nonce).any fun n => n.toNat ≤ MAX_SAFE_JS_INT) = true ↔
      ∃ v n, obj.get "nonce" = some v ∧ Denotes v n ∧ n ≤ 2 ^ 53 - 1 := by
  obtain ⟨v, n, hv, hn, rfl⟩ := (carriesInt_of_spells hs hd nonce).1 rfl
  rw [u64_from_str_repr]
  constructor
  · intro h
    split at h
    · next hlt =>
      rw [Option.any_some, decide_eq_true_eq, toNat_ofNat_u64 hlt] at h
      exact ⟨v, n, hv, hn, h⟩
    · simp at h
  · rintro ⟨v', n', hv', hn', hle⟩
    obtain rfl : v = v' := Option.some.inj (hv.symm.trans hv')
    obtain rfl := hn.unique hn'
    -- `2^53 - 1` is far below the width of the parser
    have hlt : n < 2 ^ 64 := lt_of_le_of_lt hle (by norm_num)
    rw [if_pos hlt, Option.any_some, decide_eq_true_eq, toNat_ofNat_u64 hlt]
    exact hle

theorem evm_fields_codes {nonce : Option String} (hs : SpellsOptInt (obj.get "nonce") nonce)
    (hd : OptDecimal nonce) (hfrom : obj.get "from" = some (.string from_)) (hne : from_ ≠ "")
    (hto : obj.get "to" = some (.string to_)) (hne' : to_ ≠ "") :
    Codes (validate_evm_fields (optional_number obj "chainId") nonce from_ to_
      (optional_string obj "tokenContract")) (evm_rules obj ++ address_rules cr .Ethereum obj) := by
  refine Follows.cons (Follows.reject_if ?_ (.with_details ..)) fun _ _ => ?_
  · rw [not_not, Option.any_eq_true, chain_id_iff]
    simp only [decide_eq_true_eq]
  refine Follows.cons (Follows.ok_or ?_ (.new ..)) fun n hn => ?_
  · rw [← Option.ne_none_iff_exists']
    exact hasInt_of_spells hs hd
  rw [ok_or_eq_ok] at hn
  subst hn
  refine Follows.cons (Follows.reject_if ?_ (.with_details ..)) fun _ _ => ?_
  · rw [not_not, nonce_bound_iff hs hd]
  exact Follows.cons (validate_evm_address_codes hfrom hne _) fun _ _ =>
    Follows.cons (validate_evm_address_codes hto hne' _) fun _ _ =>
    check_token_contract_codes fun _ hs hne => validate_evm_address_codes hs hne _

end Addresses

/-! ## The transfer -/

section Transfer

variable {cr : Crates} {obj : Map} {to_ token value_wei : String}

/-- The checks of the calldata fail together, and the address behind the padding never alone. -/
theorem calldata_codes {data : String} (hdata : obj.get "data" = some (.string data))
    (to_ token value_wei : String) {rules : Rules TxCompilerErrorCode}
    (hne : data ≠ "" ∧ data ≠ "0x")
    (hrest : Codes (do
      reject_if (¬ eq_ignore_ascii_case to_ token) (.with_details .InvalidPayload
        "EVM TRANSFER_TOKEN: to must equal tokenContract"
        [("to", .string to_), ("tokenContract", .string token)])
      reject_if (value_wei ≠ "0") (.with_details .InvalidPayload
        "EVM TRANSFER_TOKEN: valueWei must be 0" [("valueWei", .string value_wei)])) rules) :
    Codes (validate_evm_token_transfer (some data) to_ token value_wei)
      ((∃ data recipient amount, obj.get "data" = some (.string data) ∧
        SpellsTransfer data recipient amount, .InvalidCalldata) :: rules) := by
  have hsome : non_empty_calldata (some data) = some data :=
    non_empty_calldata_eq_some.2 ⟨rfl, hne⟩
  unfold validate_evm_token_transfer
  rw [hsome, ok_or_some, ok_bind]
  dsimp only
  by_cases hspells : ∃ recipient amount, SpellsTransfer data recipient amount
  · obtain ⟨recipient, amount, hs⟩ := hspells
    obtain ⟨hhex, hlen, selector, word, pad, tail, -, h1, h2, h3, h4, -, hsel, hzero, htail, -⟩ :=
      spellsTransfer_slices hs
    have haddr : validate_evm_address ("0x" ++ tail) "data.recipient" = .ok () :=
      validate_evm_address_eq_ok.2 ⟨recipient, hs.1, bytes tail, by rw [bytes_append], htail⟩
    refine Follows.pass ⟨data, recipient, amount, hdata, hs⟩ ?_
    simp only [reject_if_of_not (not_not.2 hhex), reject_if_of_not (not_not.2 hlen), ok_bind, h1,
      h2, h3, h4, reject_if_of_not (not_not.2 hsel), reject_if_of_not (not_not.2 hzero), haddr]
    exact hrest
  · have hno : ¬ ∃ data recipient amount, obj.get "data" = some (.string data) ∧
        SpellsTransfer data recipient amount := by
      rintro ⟨data', recipient, amount, hdata', hs⟩
      rw [hdata, Option.some.injEq, Value.string.injEq] at hdata'
      rw [← hdata'] at hs
      exact hspells ⟨recipient, amount, hs⟩
    by_cases hhex : is_hex (strip_0x data) = true
    · by_cases hlen : len (strip_0x data) = ERC20_TRANSFER_CALLDATA_HEX_LEN
      · obtain ⟨selector, word, pad, tail, -, h1, h2, h3, h4, -⟩ := calldata_slices hhex hlen
        rw [reject_if_of_not (not_not.2 hhex), ok_bind, reject_if_of_not (not_not.2 hlen), ok_bind,
          h1, ok_bind]
        by_cases hsel : to_ascii_lowercase selector = ERC20_TRANSFER_SELECTOR_HEX
        · rw [reject_if_of_not (not_not.2 hsel), ok_bind, h2, ok_bind, h3, ok_bind]
          by_cases hzero : (bytes pad).all (· == 0x30) = true
          · -- the four checks are the spelling
            obtain ⟨recipient, amount, hs⟩ := spellsTransfer_of_checks hhex hlen h1 h2 h3 hsel hzero
            exact absurd ⟨recipient, amount, hs⟩ hspells
          · rw [reject_if_of hzero]
            exact Follows.stop hno (.new ..)
        · rw [reject_if_of hsel]
          exact Follows.stop hno (.new ..)
      · rw [reject_if_of_not (not_not.2 hhex), ok_bind, reject_if_of hlen]
        exact Follows.stop hno (.with_details ..)
    · rw [reject_if_of hhex]
      exact Follows.stop hno (.new ..)

theorem zero_value_iff (hs : ∃ v, obj.get "valueWei" = some v ∧ SpellsInt v value_wei)
    (hd : IsDecimal value_wei) :
    value_wei = "0" ↔ ∃ v, obj.get "valueWei" = some v ∧ Denotes v 0 := by
  obtain ⟨v, hv, hspells⟩ := hs
  obtain ⟨n, hn, rfl⟩ := denotes_iff.1 ⟨hspells, hd⟩
  rw [← zero_repr]
  constructor
  · intro h
    obtain rfl := repr_inj h
    exact ⟨v, hv, hn⟩
  · rintro ⟨v', hv', hzero⟩
    obtain rfl : v = v' := Option.some.inj (hv.symm.trans hv')
    rw [hn.unique hzero]

/-- Without calldata the rules behind the first are not reached, whatever they say. -/
theorem evm_token_codes (hto : obj.get "to" = some (.string to_))
    (htoken : obj.get "tokenContract" = some (.string token))
    (hs : ∃ v, obj.get "valueWei" = some v ∧ SpellsInt v value_wei) (hd : IsDecimal value_wei) :
    Codes (validate_evm_token_transfer (optional_string obj "data") to_ token value_wei)
      (evm_token_rules obj) := by
  have hiff : (∃ d, non_empty_calldata (optional_string obj "data") = some d) ↔
      ∃ data, obj.get "data" = some (.string data) ∧ data ≠ "" ∧ data ≠ "0x" := by
    simp only [non_empty_calldata_eq_some, optional_string_eq_some]
    constructor
    · rintro ⟨d, ⟨hd, -⟩, hne⟩
      exact ⟨d, hd, hne⟩
    · rintro ⟨d, hd, hne⟩
      exact ⟨d, ⟨hd, hne.1⟩, hne⟩
  by_cases hgiven : ∃ data, obj.get "data" = some (.string data) ∧ data ≠ "" ∧ data ≠ "0x"
  · obtain ⟨data, hdata, hne⟩ := hgiven
    rw [optional_string_eq_some.2 ⟨hdata, hne.1⟩]
    refine Follows.pass ⟨data, hdata, hne⟩ (calldata_codes hdata to_ token value_wei hne ?_)
    refine Follows.cons (Follows.reject_if ?_ (.with_details ..)) fun _ _ =>
      Follows.reject_if ?_ (.with_details ..)
    · rw [not_not]
      constructor
      · intro heq
        exact ⟨to_, token, hto, htoken, heq⟩
      · rintro ⟨to', token', hto', htoken', heq⟩
        rw [hto, Option.some.injEq, Value.string.injEq] at hto'
        rw [htoken, Option.some.injEq, Value.string.injEq] at htoken'
        rw [hto', htoken']
        exact heq
    · rw [not_not, zero_value_iff hs hd]
  · have hnone : non_empty_calldata (optional_string obj "data") = none := by
      rw [← hiff] at hgiven
      exact Option.eq_none_iff_forall_ne_some.2 fun d hd => hgiven ⟨d, hd⟩
    unfold validate_evm_token_transfer
    rw [hnone]
    exact Follows.stop hgiven (.new ..)

theorem check_native_calldata_codes :
    Codes (check_native_calldata .TransferNative .Ethereum (optional_string obj "data"))
      [(∀ data, obj.get "data" = some (.string data) → data = "" ∨ data = "0x",
        .InvalidPayload)] := by
  refine Follows.single ?_ ?_ (check_native_calldata_safe ..)
  · simp only [check_native_calldata_eq_ok, exists_const, native_calldata_iff, forall_const]
  · unfold check_native_calldata
    split
    · split
      · exact Errs.fail (.with_details ..)
      · exact Errs.ok
    · exact Errs.ok

/-- One case a chain and an intent, as in the source. -/
theorem transfer_codes (chain : Chain) (tx_type : TxType)
    (hto : obj.get "to" = some (.string to_))
    (hs : ∃ v, obj.get "valueWei" = some v ∧ SpellsInt v value_wei) (hd : IsDecimal value_wei)
    (p : PreparedTransaction) :
    Codes (do
      check_native_calldata tx_type chain (optional_string obj "data")
      check_token_transfer tx_type chain (optional_string obj "data") to_
        (optional_string obj "tokenContract") value_wei
      .ok p) (transfer_rules chain tx_type obj) := by
  have hgiven : (∃ token, optional_string obj "tokenContract" = some token) ↔
      GivenText obj "tokenContract" := by
    simp only [optional_string_eq_some, GivenText]
  cases tx_type with
  | TransferNative =>
    cases chain with
    | Tron => exact Follows.ok
    | Ethereum => exact Follows.cons check_native_calldata_codes fun _ _ => Follows.ok
  | TransferToken =>
    cases chain with
    | Tron =>
      exact Follows.map (Follows.cons (Follows.ok_or hgiven (.new ..)) fun _ _ => Follows.ok)
    | Ethereum =>
      refine Follows.map (Follows.cons (Follows.ok_or hgiven (.new ..)) fun token htoken => ?_)
      rw [ok_or_eq_ok, optional_string_eq_some] at htoken
      exact evm_token_codes hto htoken.1 hs hd

end Transfer

/-! ## `validate` -/

section Validate

variable {cr : Crates}

theorem validate_chain_fields_codes (hhex : HexLaws cr) {chain : Chain} {obj : Map}
    {nonce : Option String} {from_ to_ : String} (hs : SpellsOptInt (obj.get "nonce") nonce)
    (hd : OptDecimal nonce) (hfrom : obj.get "from" = some (.string from_)) (hne : from_ ≠ "")
    (hto : obj.get "to" = some (.string to_)) (hne' : to_ ≠ "") :
    Codes (validate_chain_fields cr chain (optional_number obj "chainId") nonce from_ to_
      (optional_string obj "tokenContract")) (chain_rules cr chain obj) := by
  cases chain with
  | Ethereum => exact evm_fields_codes hs hd hfrom hne hto hne'
  | Tron => exact tron_fields_codes hhex hfrom hne hto hne'

theorem ne_empty_of_not_blank {s : String} (h : is_blank s = false) : s ≠ "" := by
  rintro rfl
  rw [is_blank_empty] at h
  exact absurd h (by decide)

/-- Each step of `validate` has its rules, and they are the rules of the book. -/
theorem validate_codes (hhex : HexLaws cr) (v : Value) :
    Codes (validate cr v) (payload_rules cr v) := by
  refine Follows.cons (Follows.ok_or Option.ne_none_iff_exists'.symm (.new ..)) fun obj hobj => ?_
  rw [ok_or_eq_ok] at hobj
  rw [hobj]
  refine Follows.cons require_chain_codes fun chain hchain => ?_
  refine Follows.cons require_tx_type_codes fun tx_type htx => ?_
  rw [require_chain_eq_ok, ← named_chain_eq_some] at hchain
  rw [require_tx_type_eq_ok, ← named_tx_type_eq_some] at htx
  rw [hchain, htx]
  refine Follows.cons require_non_empty_string_codes fun from_ hfrom => ?_
  refine Follows.cons require_non_empty_string_codes fun to_ hto => ?_
  refine Follows.cons require_int_string_codes fun value_wei hvalue => ?_
  refine Follows.cons optional_int_string_codes fun nonce hnonce => ?_
  rw [require_non_empty_string_eq_ok] at hfrom hto
  rw [require_int_string_eq_ok] at hvalue
  rw [optional_int_string_eq_ok] at hnonce
  show Codes _ (fee_member_rules chain obj ++
    (chain_rules cr chain obj ++ transfer_rules chain tx_type obj))
  refine Follows.bind validate_fee_codes fun fee _ => ?_
  refine Follows.bind (validate_chain_fields_codes hhex hnonce.1 hnonce.2 hfrom.1
    (ne_empty_of_not_blank hfrom.2) hto.1 (ne_empty_of_not_blank hto.2)) fun _ _ => ?_
  exact transfer_codes chain tx_type hto.1 hvalue.1 hvalue.2 _

/-- **The code of an error is the code of the first rule that is violated**, and there is an error
exactly when there is such a rule. -/
theorem validate_follows (hhex : HexLaws cr) (v : Value) :
    ((∃ p, validate cr v = .ok p) ↔ (payload_rules cr v).Holds) ∧
      ∀ code, (∃ e, validate cr v = .error (.err e) ∧ e.code = code) ↔
        (payload_rules cr v).Reports code := by
  have h := validate_codes hhex v
  exact ⟨h.returns_iff, h.reports_iff fun _ _ he => he.code_eq⟩

/-- Sender and recipient are read, and the amount behind them is not. -/
theorem tron_native_no_amount :
    ∃ e, validate reference (tron_native_payload "" .null) = .error (.err e) ∧
      e.code = .InvalidAmount := by
  obtain ⟨-, hreports⟩ := validate_follows reference_hex (tron_native_payload "" .null)
  rw [hreports]
  have htext : ∀ s : String, is_blank s = false → ∃ s' : String,
      some (Value.string s) = some (.string s') ∧ is_blank s' = false := fun s h => ⟨s, rfl, h⟩
  refine Or.inr ⟨by decide, Or.inr ⟨by decide, Or.inr ⟨by decide, Or.inr ⟨htext _ (by decide),
    Or.inr ⟨htext _ (by decide), Or.inl ⟨?_, rfl⟩⟩⟩⟩⟩⟩
  rintro ⟨_, n, ⟨⟩, ⟨h, -⟩ | ⟨u, h, -⟩⟩
  · exact Nat.repr_ne_empty (Value.string.inj h).symm
  · simp at h

end Validate

end TxCompiler
