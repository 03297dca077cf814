/-
**The error codes of `compile` and `review`**, on transactions of any origin.

`compile_rules` is the rule book of `compile`: every field that is signed has to be there and has to
be readable, in the order in which the fields are read, and the code of an error is that of the
first one that is not (`compile_follows`). What is readable is said by the grammars of addresses,
calldata and hexadecimal. The checks the source marks as enforced by `validate` are rules like the
others, since nothing enforces them here. The steps that have no rule are those that cannot fail:
the second length check of a Tron address, the narrowing of the block number, the copies and the
encoders.

`review` reads the calldata of an EVM token transfer and nothing else, so it has one code. No list
has `CompilationFailed`, the code for steps that fail unexpectedly (`never_compilation_failed`).
-/
import TxCompiler.Reading
import TxCompiler.RuleBook
import TxCompiler.TransferCalldata

set_option autoImplicit false

namespace TxCompiler

open Rust Json

/-! ## The rules -/

section Rules

variable (cr : Crates) (p : PreparedTransaction)

/-- A field that has to be there, and what it has to be read as. -/
def field_rules {α : Type} (o : Option String) (missing invalid : TxCompilerErrorCode)
    (read : String → Option α) : Rules TxCompilerErrorCode :=
  [(o ≠ none, missing), (o.bind read ≠ none, invalid)]

/-- The fields both envelopes share. The sign of the chain id is looked at twice: it has to convert
to an unsigned number, and that must not be zero. -/
def common_rules : Rules TxCompilerErrorCode :=
  [(p.chain_id ≠ none, .MissingFeeParams),
    (∃ id, p.chain_id = some id ∧ 0 ≤ id.toInt, .InvalidPayload),
    (∃ id, p.chain_id = some id ∧ 0 < id.toInt, .InvalidPayload),
    (cr.address_from_str p.«to» ≠ none, .InvalidAddress),
    (cr.u256_from_str_radix p.value_wei 10 ≠ none, .InvalidAmount)] ++
  (field_rules p.nonce .InvalidPayload .InvalidAmount u64_from_str ++
  (field_rules p.fee.gas_limit .MissingFeeParams .InvalidAmount u64_from_str ++
    [(∃ input, SpellsCalldata p.data input, .InvalidCalldata)]))

/-- The fees of the mode; the price of a legacy transaction may stand under either name. -/
def envelope_rules : Rules TxCompilerErrorCode :=
  match p.fee.mode with
  | .Eip1559 => field_rules p.fee.max_fee_per_gas .MissingFeeParams .InvalidAmount u128_from_str ++
      field_rules p.fee.max_priority_fee_per_gas .MissingFeeParams .InvalidAmount u128_from_str
  | .Legacy =>
    field_rules (effective_gas_price p.fee) .MissingFeeParams .InvalidAmount u128_from_str
  | .Tron => [(False, .UnsupportedFeeMode)]

/-- Thirty-two bytes in hexadecimal. -/
def IsBlockId (h : String) : Prop := ∃ bs, bs.length = 32 ∧ Hex.decode (bytes h) = some bs

/-- The addresses of a Tron transfer in the order in which they are decoded, and its amount. -/
def contract_rules : Rules TxCompilerErrorCode :=
  (IsAddress cr .Tron p.«from», .InvalidAddress) ::
    match p.tx_type with
    | .TransferNative => [(IsAddress cr .Tron p.«to», .InvalidAddress),
        (u64_from_str p.value_wei ≠ none, .InvalidAmount)]
    | .TransferToken => [(p.token_contract ≠ none, .InvalidPayload),
        (∃ token, p.token_contract = some token ∧ IsAddress cr .Tron token, .InvalidAddress),
        (IsAddress cr .Tron p.«to», .InvalidAddress),
        (cr.u256_from_str_radix p.value_wei 10 ≠ none, .InvalidAmount)]

/-- The rules of a Tron transaction that is compiled at clock `t`. -/
def tron_rules (t : UInt64) : Rules TxCompilerErrorCode :=
  [(p.fee.rp ≠ none, .InvalidBlockHeader),
    (∃ header, p.fee.rp = some header ∧ IsBlockId header.h, .InvalidBlockHeader)] ++
  (contract_rules cr p ++ [(∀ s, p.fee.el = some s → u64_from_str s ≠ none, .InvalidAmount),
    (t.toNat + 36000000 < 2 ^ 64, .InvalidPayload)])

/-- **The rule book of `compile`.** -/
def compile_rules (t : UInt64) : Rules TxCompilerErrorCode :=
  match p.chain with
  | .Ethereum => common_rules cr p ++ envelope_rules p
  | .Tron => tron_rules cr p t

end Rules

/-! ## Ethereum -/

section Ethereum

variable {cr : Crates} {p : PreparedTransaction}

theorem ok_or_codes {α : Type} {o : Option α} {e : TxCompilerError} {code : TxCompilerErrorCode}
    (h : TxCompilerError.Has code e) : Codes (ok_or o e) [(o ≠ none, code)] :=
  Follows.ok_or Option.ne_none_iff_exists'.symm h

/-- A field is read behind the check that it is there. -/
theorem read_codes {α β : Type} {o : Option α} {a : α} {read : α → Option β} {e : TxCompilerError}
    {code : TxCompilerErrorCode} (ho : o = some a) (h : TxCompilerError.Has code e) :
    Codes (ok_or (read a) e) [(o.bind read ≠ none, code)] := by
  rw [ho, Option.bind_some]
  exact ok_or_codes h

theorem decode_calldata_codes (hhex : HexLaws cr) (data : Option String) :
    Codes (decode_calldata cr data)
      [(∃ input, SpellsCalldata data input, .InvalidCalldata)] := by
  refine Follows.single ?_ ?_ (decode_calldata_safe cr data)
  · simp only [decode_calldata_eq_ok hhex]
  · unfold decode_calldata
    split
    · split
      · exact Errs.ok_or (.new ..)
      · exact Errs.ok
    · exact Errs.ok

theorem chain_id_convert_codes {id : Int64} (hid : p.chain_id = some id) {e : TxCompilerError}
    (h : TxCompilerError.Has .InvalidPayload e) : Codes (ok_or (u64_try_from_i64 id) e)
      [(∃ id, p.chain_id = some id ∧ 0 ≤ id.toInt, .InvalidPayload)] := by
  refine Follows.ok_or ?_ h
  simp only [hid, Option.some.injEq, exists_eq_left', u64_try_from_i64_eq_some]
  constructor
  · rintro ⟨n, hn⟩
    omega
  · intro hnonneg
    obtain ⟨n, -, hn, -⟩ := u64_try_from_i64_of_nonneg hnonneg
    exact ⟨n, hn⟩

theorem chain_id_positive_codes {id : Int64} {n : UInt64} (hid : p.chain_id = some id)
    (hn : u64_try_from_i64 id = some n) {e : TxCompilerError}
    (h : TxCompilerError.Has .InvalidPayload e) : Codes (reject_if (n = 0) e)
      [(∃ id, p.chain_id = some id ∧ 0 < id.toInt, .InvalidPayload)] := by
  refine Follows.reject_if ?_ h
  rw [u64_try_from_i64_eq_some] at hn
  simp only [hid, Option.some.injEq, exists_eq_left']
  rw [← UInt64.toNat_inj, UInt64.toNat_zero]
  omega

theorem derive_common_codes (hhex : HexLaws cr) :
    Codes (derive_common cr p) (common_rules cr p) := by
  refine Follows.cons (ok_or_codes (.new ..)) fun id hid => ?_
  rw [ok_or_eq_ok] at hid
  refine Follows.cons (chain_id_convert_codes hid (.new ..)) fun n hn => ?_
  rw [ok_or_eq_ok] at hn
  refine Follows.cons (chain_id_positive_codes hid hn (.new ..)) fun _ _ => ?_
  refine Follows.cons (ok_or_codes (.with_details ..)) fun _ _ => ?_
  refine Follows.cons (ok_or_codes (.with_details ..)) fun _ _ => ?_
  refine Follows.cons (ok_or_codes (.new ..)) fun nonce hnonce => ?_
  refine Follows.cons (read_codes (ok_or_eq_ok.1 hnonce) (.with_details ..)) fun _ _ => ?_
  refine Follows.cons (ok_or_codes (.new ..)) fun gas_limit hgas => ?_
  refine Follows.cons (read_codes (ok_or_eq_ok.1 hgas) (.with_details ..)) fun _ _ => ?_
  exact Follows.map (decode_calldata_codes hhex p.data)

theorem encode_envelope_codes (common : EvmCommon) :
    Codes (encode_envelope cr p common) (envelope_rules p) := by
  unfold encode_envelope envelope_rules
  cases p.fee.mode with
  | Eip1559 =>
    refine Follows.map ?_
    refine Follows.cons (ok_or_codes (.new ..)) fun max_fee hmax => ?_
    refine Follows.cons (read_codes (ok_or_eq_ok.1 hmax) (.with_details ..)) fun _ _ => ?_
    refine Follows.cons (ok_or_codes (.new ..)) fun max_priority hmax => ?_
    exact Follows.map (read_codes (ok_or_eq_ok.1 hmax) (.with_details ..))
  | Legacy =>
    refine Follows.map ?_
    refine Follows.cons (ok_or_codes (.new ..)) fun gas_price hprice => ?_
    exact Follows.map (read_codes (ok_or_eq_ok.1 hprice) (.with_details ..))
  | Tron => exact Follows.stop not_false (.new ..)

end Ethereum

/-! ## Tron -/

section Tron

variable {cr : Crates} {p : PreparedTransaction}

theorem enforce_shape_errs (bs : List UInt8) (address : String) :
    Errs (enforce_shape bs address) (TxCompilerError.Has .InvalidAddress) := by
  unfold enforce_shape
  split
  · exact Errs.fail (.with_details ..)
  · exact Errs.bind Errs.index fun _ => Errs.reject_if (.with_details ..)

theorem tron_address_codes (hhex : HexLaws cr) (address : String) :
    Codes (tron_address_to_bytes cr address) [(IsAddress cr .Tron address, .InvalidAddress)] := by
  refine Follows.single ?_ ?_ (tron_address_to_bytes_spec cr address).safe
  · simp only [tron_address_to_bytes_eq_ok hhex, IsAddress]
  · unfold tron_address_to_bytes
    -- the shape is decided without an error, and both shapes end alike
    rcases strip_hex_prefix_eq address with ⟨-, h⟩ | ⟨-, h⟩
    · rw [h, ok_bind]
      exact Errs.bind (Errs.ok_or (.with_details ..)) fun _ =>
        Errs.bind (enforce_shape_errs _ _) fun _ => Errs.ok
    · rw [h, ok_bind]
      dsimp only
      split
      · exact Errs.bind (Errs.ok_or (.with_details ..)) fun _ =>
          Errs.bind (enforce_shape_errs _ _) fun _ => Errs.ok
      · exact Errs.fail (.with_details ..)

theorem derive_block_ref_codes (hhex : HexLaws cr) {header : TronBlockHeader}
    (hrp : p.fee.rp = some header) : Codes (derive_block_ref cr header)
      [(∃ header, p.fee.rp = some header ∧ IsBlockId header.h, .InvalidBlockHeader)] := by
  rw [hrp]
  simp only [Option.some.injEq, exists_eq_left']
  by_cases hid : IsBlockId header.h
  · obtain ⟨bs, h32, hdec⟩ := hid
    obtain ⟨ref, href, -⟩ := derive_block_ref_eq hhex hdec h32
    rw [href]
    exact Follows.pass ⟨bs, h32, hdec⟩ Follows.ok
  · unfold derive_block_ref
    by_cases hlen : len header.h = 64
    · have hdec : Hex.decode (bytes header.h) = none := by
        rw [Option.eq_none_iff_forall_ne_some]
        intro bs hdec
        have hcount := Hex.length_of_decode hdec
        rw [length_bytes, hlen] at hcount
        exact hid ⟨bs, by omega, hdec⟩
      rw [reject_if_of_not (not_not.2 hlen), ok_bind, hhex.decode, hdec]
      exact Follows.stop hid (.new ..)
    · rw [reject_if_of hlen]
      exact Follows.stop hid (.new ..)

/-- An address that is refused, in front of whatever rules. -/
theorem tron_address_stops (hhex : HexLaws cr) {α : Type} {address : String}
    {e : Fault TxCompilerError} (h : tron_address_to_bytes cr address = .error e)
    {rules : Rules TxCompilerErrorCode} :
    Codes (.error e : Run α) ((IsAddress cr .Tron address, .InvalidAddress) :: rules) := by
  have hcodes := tron_address_codes hhex address
  rw [h] at hcodes
  cases e with
  | panic why => exact hcodes
  | err e =>
    obtain ⟨code, ⟨hno, rfl⟩ | ⟨-, h⟩, he⟩ := hcodes
    · exact Follows.stop hno he
    · exact h.elim

/-- Behind addresses that decode, the amount is the only thing left to fail: neither the second
length check of the recipient nor the encoders do. -/
theorem build_contract_codes (hhex : HexLaws cr) :
    Codes (build_contract cr p) (contract_rules cr p) := by
  unfold contract_rules
  refine Follows.cons (tron_address_codes hhex _) fun owner hfrom => ?_
  cases htx : p.tx_type with
  | TransferNative =>
    refine Follows.cons (tron_address_codes hhex _) fun to_bytes hto => ?_
    have heq := build_contract_native htx hfrom hto
    unfold build_contract at heq
    rw [hfrom, ok_bind, htx] at heq
    dsimp only at heq
    rw [hto, ok_bind] at heq
    rw [heq]
    exact Follows.map (ok_or_codes (.with_details ..))
  | TransferToken =>
    refine Follows.cons (ok_or_codes (.new ..)) fun token htc => ?_
    rw [ok_or_eq_ok] at htc
    have haddress : Codes (tron_address_to_bytes cr token)
        [(∃ token, p.token_contract = some token ∧ IsAddress cr .Tron token,
          .InvalidAddress)] := by
      rw [htc]
      simp only [Option.some.injEq, exists_eq_left']
      exact tron_address_codes hhex token
    refine Follows.cons haddress fun token_bytes htoken => ?_
    cases hto : tron_address_to_bytes cr p.«to» with
    | error e =>
      unfold build_trc20_transfer_data
      rw [hto]
      exact tron_address_stops hhex hto
    | ok to_bytes =>
      have heq := build_contract_token htx hfrom htc htoken hto
      unfold build_contract at heq
      rw [hfrom, ok_bind, htx] at heq
      dsimp only at heq
      rw [htc, ok_or_some, ok_bind, htoken, ok_bind] at heq
      rw [heq]
      exact Follows.pass ⟨to_bytes, (tron_address_to_bytes_eq_ok hhex).1 hto⟩
        (Follows.map (ok_or_codes (.with_details ..)))

theorem parse_fee_limit_codes (el : Option String) : Codes (parse_fee_limit el)
    [(∀ s, el = some s → u64_from_str s ≠ none, .InvalidAmount)] := by
  cases el with
  | none => exact Follows.pass (by simp) Follows.ok
  | some s =>
    refine Follows.map (Follows.ok_or ?_ (.with_details ..))
    simp [Option.ne_none_iff_exists']

theorem compile_tron_codes (hhex : HexLaws cr) (options : CompileOptions) :
    Codes (compile_tron cr p options) (tron_rules cr p (clock_of cr options)) := by
  refine Follows.cons (ok_or_codes (.new ..)) fun header hrp => ?_
  rw [ok_or_eq_ok] at hrp
  refine Follows.cons (derive_block_ref_codes hhex hrp) fun ref _ => ?_
  show Codes _ (contract_rules cr p ++
    [(∀ s, p.fee.el = some s → u64_from_str s ≠ none, .InvalidAmount),
      ((clock_of cr options).toNat + 36000000 < 2 ^ 64, .InvalidPayload)])
  refine Follows.bind (build_contract_codes hhex) fun contract hcontract => ?_
  have hlen := (build_contract_safe cr p).of_eq_ok hcontract
  refine Follows.cons (parse_fee_limit_codes _) fun fee_limit _ => ?_
  -- of the window only its length is needed
  have hwindow := window_toNat
  dsimp only
  generalize EXPIRATION_MS = window at hwindow ⊢
  refine Follows.cons (Follows.ok_or ?_ (.new ..)) fun expiration _ => ?_
  · rw [checked_add, hwindow, ← Option.ne_none_iff_exists']
    unfold clock_of
    by_cases htime : (options.now.getD (current_time_ms cr)).toNat + 36000000 < 2 ^ 64
    · rw [if_pos htime]
      exact iff_of_true (by simp) htime
    · rw [if_neg htime]
      exact iff_of_false (fun h => h rfl) htime
  · -- the record is as short as its contract
    rw [encode_raw_data_eq hlen, ok_bind]
    exact Follows.ok

end Tron

/-! ## The operations -/

section Operations

variable {cr : Crates} {p : PreparedTransaction}

theorem compile_codes (hhex : HexLaws cr) (options : CompileOptions) :
    Codes (compile cr p options) (compile_rules cr p (clock_of cr options)) := by
  unfold compile compile_rules
  cases p.chain with
  | Ethereum =>
    exact Follows.bind (derive_common_codes hhex) fun common _ =>
      Follows.map (encode_envelope_codes common)
  | Tron => exact compile_tron_codes hhex options

/-- **The code of a compilation error is the code of the first field that cannot be read.** -/
theorem compile_follows (hhex : HexLaws cr) (p : PreparedTransaction) (options : CompileOptions) :
    ((∃ res, compile cr p options = .ok res) ↔
        (compile_rules cr p (clock_of cr options)).Holds) ∧
      ∀ code, (∃ e, compile cr p options = .error (.err e) ∧ e.code = code) ↔
        (compile_rules cr p (clock_of cr options)).Reports code := by
  have h := @compile_codes cr p hhex options
  exact ⟨h.returns_iff, h.reports_iff fun _ _ he => he.code_eq⟩

/-- The addresses of this transaction are read, and then its amount cannot be. -/
theorem tron_native_unreadable :
    ∃ e, compile reference (tron_native "five" none) ⟨none⟩ = .error (.err e) ∧
      e.code = .InvalidAmount := by
  obtain ⟨-, hreports⟩ := compile_follows reference_hex (tron_native "five" none) ⟨none⟩
  rw [hreports]
  -- everything but the amount is that of an accepted transaction
  obtain ⟨-, hv⟩ := (validate_eq_ok reference_hex).1 validate_tron_native
  have hheader : IsBlockId sample_header.h := (hv.fee.rp sample_header rfl).h
  exact .inr ⟨by decide, .inr ⟨⟨sample_header, rfl, hheader⟩, .inr ⟨hv.from, .inr ⟨hv.to,
    .inl ⟨by decide, rfl⟩⟩⟩⟩⟩

/-- The one thing a review can fail on. -/
def ReviewableData (p : PreparedTransaction) : Prop :=
  p.tx_type = .TransferToken → p.chain = .Ethereum →
    ∃ data recipient amount, p.data = some data ∧ SpellsTransfer data recipient amount

theorem decode_erc20_errs (data : String) :
    Errs (decode_erc20_transfer_data cr data) (TxCompilerError.Has .InvalidCalldata) :=
  Errs.bind (Errs.reject_if (.new ..)) fun _ =>
  Errs.bind (Errs.reject_if (.with_details ..)) fun _ =>
  Errs.bind Errs.str_slice fun _ => Errs.bind (Errs.reject_if (.with_details ..)) fun _ =>
  Errs.bind Errs.str_slice fun _ => Errs.bind Errs.str_slice fun _ =>
  Errs.bind (Errs.reject_if (.new ..)) fun _ => Errs.bind Errs.str_slice fun _ =>
  Errs.bind Errs.str_slice fun _ => Errs.bind (Errs.ok_or (.new ..)) fun _ => Errs.ok

theorem review_errs : Errs (review cr p) (TxCompilerError.Has .InvalidCalldata) := by
  refine Errs.bind ?_ fun _ => Errs.ok
  unfold review_transfer
  split
  · exact Errs.ok
  · exact Errs.ok
  · exact Errs.bind (Errs.ok_or (.new ..)) fun data => decode_erc20_errs data

theorem review_iff (hu256 : U256Laws cr) : (∃ r, review cr p = .ok r) ↔ ReviewableData p := by
  unfold ReviewableData
  by_cases hother : p.tx_type = .TransferNative ∨ p.chain = .Tron
  · refine iff_of_true ⟨_, review_envelope cr hother⟩ fun htx hc => ?_
    rcases hother with h | h
    · exact absurd (h.symm.trans htx) (by decide)
    · exact absurd (h.symm.trans hc) (by decide)
  · obtain ⟨htx, hc⟩ : p.tx_type = .TransferToken ∧ p.chain = .Ethereum := by
      cases htx : p.tx_type <;> cases hc : p.chain <;> simp_all
    constructor
    · rintro ⟨r, hr⟩ - -
      obtain ⟨x, htransfer, -⟩ := bind_eq_ok.1 hr
      unfold review_transfer at htransfer
      rw [htx, hc] at htransfer
      obtain ⟨data, hdata, hdecode⟩ := bind_eq_ok.1 htransfer
      obtain ⟨recipient, amount, hs⟩ := spellsTransfer_of_review hdecode
      exact ⟨data, recipient, amount, ok_or_eq_ok.1 hdata, hs⟩
    · intro h
      obtain ⟨data, recipient, amount, hdata, hs⟩ := h htx hc
      obtain ⟨shown, -, hr⟩ := review_evm_token hu256 htx hc hdata hs
      exact ⟨_, hr⟩

theorem payload_rules_codes (v : Value) :
    ∀ rule ∈ payload_rules cr v, rule.2 ≠ .CompilationFailed := by
  have hfee : ∀ chain obj, ∀ rule ∈ fee_member_rules chain obj, rule.2 ≠ .CompilationFailed := by
    intro chain obj
    unfold fee_member_rules
    cases (obj.get "fee").bind Value.as_object with
    | none => simp
    | some fee => cases chain <;> simp [fee_rules, fee_amounts, missing_fee_code]
  have hchain : ∀ chain obj, ∀ rule ∈ chain_rules cr chain obj, rule.2 ≠ .CompilationFailed := by
    intro chain obj
    cases chain <;> simp [chain_rules, evm_rules, address_rules]
  have htransfer : ∀ chain tx_type obj, ∀ rule ∈ transfer_rules chain tx_type obj,
      rule.2 ≠ .CompilationFailed := by
    intro chain tx_type obj
    cases chain <;> cases tx_type <;> simp [transfer_rules, evm_token_rules]
  have hobject : ∀ obj, ∀ rule ∈ object_rules cr obj, rule.2 ≠ .CompilationFailed := by
    intro obj
    unfold object_rules
    cases named_chain obj with
    | none => simp
    | some chain =>
      cases named_tx_type obj with
      | none => simp
      | some tx_type =>
        simp only [member_rules, List.forall_mem_append, List.forall_mem_cons]
        exact ⟨by simp, by simp, hfee _ _, hchain _ _, htransfer _ _ _⟩
  unfold payload_rules
  cases v.as_object with
  | none => simp
  | some obj =>
    rw [List.forall_mem_cons]
    exact ⟨by simp, hobject obj⟩

theorem compile_rules_codes (t : UInt64) :
    ∀ rule ∈ compile_rules cr p t, rule.2 ≠ .CompilationFailed := by
  unfold compile_rules
  cases p.chain with
  | Ethereum =>
    unfold envelope_rules
    cases p.fee.mode <;> simp [common_rules, field_rules]
  | Tron =>
    unfold tron_rules contract_rules
    cases p.tx_type <;> simp

/-- A code that no rule has is the code of no error. -/
theorem code_ne_of_codes {α : Type} {m : Run α} {rules : Rules TxCompilerErrorCode}
    {code : TxCompilerErrorCode} (h : Codes m rules) (hrules : ∀ rule ∈ rules, rule.2 ≠ code)
    {e : TxCompilerError} (he : m = .error (.err e)) : e.code ≠ code := by
  obtain ⟨d, hd, hkind⟩ := h.reports he
  obtain ⟨rule, hmem, -, rfl⟩ := Rules.mem_of_reports hd
  rw [hkind.code_eq]
  exact hrules rule hmem

/-- **The code of unexpected failures is never used**, by any of the three operations on any input;
and `review` has a single code, which it uses for calldata that spells no transfer. -/
theorem never_compilation_failed (hhex : HexLaws cr) (hu256 : U256Laws cr) :
    (∀ v e, validate cr v = .error (.err e) → e.code ≠ .CompilationFailed) ∧
      ∀ p, ((∃ r, review cr p = .ok r) ↔ ReviewableData p) ∧
        (∀ e, review cr p = .error (.err e) → e.code = .InvalidCalldata) ∧
        ∀ options e, compile cr p options = .error (.err e) → e.code ≠ .CompilationFailed := by
  refine ⟨?_, fun p => ⟨review_iff hu256, ?_, ?_⟩⟩
  · intro v e he
    exact code_ne_of_codes (validate_codes hhex v) (payload_rules_codes v) he
  · intro e he
    exact (review_errs e he).code_eq
  · intro options e he
    exact code_ne_of_codes (compile_codes hhex options) (compile_rules_codes _) he

theorem evm_token_not_reviewed :
    ∃ e, review reference (evm_token "0x") = .error (.err e) ∧ e.code = .InvalidCalldata := by
  obtain ⟨hiff, hcode, -⟩ :=
    (never_compilation_failed reference_hex reference_u256).2 (evm_token "0x")
  rcases (review_safe reference (evm_token "0x")).ok_or_err with hr | ⟨e, he⟩
  · obtain ⟨data, recipient, amount, hdata, hs⟩ := hiff.1 hr rfl rfl
    obtain rfl : "0x" = data := Option.some.inj hdata
    exact absurd rfl hs.ne_empty.2
  · exact ⟨e, he, hcode e he⟩

end Operations

end TxCompiler
