/-
**No panic on untrusted input.** `validate` on every JSON value, and `compile` and
`review` on every `PreparedTransaction` whatever, return `Ok` or `Err`.

Nothing here assumes a validated transaction: the fields of `p` are arbitrary strings
and integers, so each slice, index, copy and `expect` has to be covered by a check of
the same function, or by what its callee promises. One `Post` or `Safe` lemma a
function, in the order of the calls; a function without a partial operation is safe
because its steps are.

The one fact taken from outside is `HexLaws`: that sixty-four characters decode to
thirty-two bytes is what the debug assertion and the slice of `derive_block_ref` rest on.
-/
import TxCompiler.Reference
import TxCompiler.Validated

set_option autoImplicit false

namespace TxCompiler

open Rust Json

/-! ## `validate` -/

/-- The three enumerations only compare texts. -/
theorem require_chain_safe (obj : Map) : Safe (require_chain obj) := by
  unfold require_chain
  split <;> simp

theorem require_tx_type_safe (obj : Map) : Safe (require_tx_type obj) := by
  unfold require_tx_type
  split <;> simp

theorem require_fee_mode_safe (obj : Map) : Safe (require_fee_mode obj) := by
  unfold require_fee_mode
  split <;> simp

/-- The error of the caller is an error, whatever it is. -/
theorem require_non_empty_string_with_safe (obj : Map) (field : String) (err : TxCompilerError) :
    Safe (require_non_empty_string_with obj field err) := by
  unfold require_non_empty_string_with
  split
  · split <;> simp
  · simp

theorem require_non_empty_string_safe (obj : Map) (field : String) :
    Safe (require_non_empty_string obj field) :=
  Safe.bind (require_non_empty_string_with_safe ..) fun _ =>
  Safe.bind Safe.reject_if fun _ => Safe.ok

/-- Filtering a text keeps it or drops it; no digit is converted here. -/
theorem require_int_string_safe (obj : Map) (field : String) :
    Safe (require_int_string obj field) := Safe.ok_or

theorem optional_int_string_safe (obj : Map) (field : String) :
    Safe (optional_int_string obj field) := by
  unfold optional_int_string
  split
  · exact Safe.ok
  · split
    · exact Safe.ok
    · exact Safe.bind Safe.ok_or fun _ => Safe.ok

theorem require_positive_int_safe (obj : Map) (field : String) :
    Safe (require_positive_int obj field) := Safe.bind Safe.ok_or fun _ => Safe.ok_or

/-- The narrowing to `u32` is a `try_from`, whose failure is the same error. -/
theorem require_non_neg_int_safe (obj : Map) (field : String) :
    Safe (require_non_neg_int obj field) :=
  Safe.bind Safe.ok_or fun _ => Safe.bind Safe.ok_or fun _ => Safe.ok_or

/-- The length is compared and nothing is cut. -/
theorem optional_bounded_string_safe (obj : Map) (field : String) (max_len : ℕ) :
    Safe (optional_bounded_string obj field max_len) := by
  unfold optional_bounded_string
  split
  · exact Safe.ok
  · exact Safe.bind Safe.reject_if fun _ => Safe.ok

/-- The header reads its members one by one, and takes no slice of the block id. -/
theorem optional_block_header_safe (raw : Option Value) : Safe (optional_block_header raw) := by
  unfold optional_block_header
  split
  · exact Safe.ok
  · split
    · exact Safe.ok
    · exact Safe.bind Safe.ok_or fun obj =>
        Safe.bind (require_non_empty_string_with_safe ..) fun _ =>
        Safe.bind (require_positive_int_safe ..) fun _ =>
        Safe.bind (require_positive_int_safe ..) fun _ =>
        Safe.bind (require_non_neg_int_safe ..) fun _ =>
        Safe.bind Safe.reject_if fun _ => Safe.bind Safe.reject_if fun _ =>
        Safe.bind (optional_bounded_string_safe ..) fun _ =>
        Safe.bind (optional_bounded_string_safe ..) fun _ =>
        Safe.bind (optional_bounded_string_safe ..) fun _ => Safe.ok

/-- All six pairs of a chain and a mode have a branch. -/
theorem check_mode_of_chain_safe (chain : Chain) (mode : FeeMode) :
    Safe (check_mode_of_chain chain mode) := by
  cases chain <;> cases mode <;> simp [check_mode_of_chain]

theorem check_mode_fields_safe (fee : FeeParams) : Safe (check_mode_fields fee) := by
  unfold check_mode_fields
  split
  · exact Safe.bind Safe.reject_if fun _ => Safe.reject_if
  · exact Safe.bind Safe.reject_if fun _ => Safe.reject_if
  · exact Safe.reject_if

/-- The readers of the fee, in the order of the source. -/
theorem validate_fee_safe (raw : Option Value) (chain : Chain) : Safe (validate_fee raw chain) :=
  Safe.bind Safe.ok_or fun obj =>
  Safe.bind (require_fee_mode_safe obj) fun _ => Safe.bind (check_mode_of_chain_safe ..) fun _ =>
  Safe.bind (optional_int_string_safe ..) fun _ => Safe.bind (optional_int_string_safe ..) fun _ =>
  Safe.bind (optional_int_string_safe ..) fun _ => Safe.bind (optional_int_string_safe ..) fun _ =>
  Safe.bind (optional_int_string_safe ..) fun _ => Safe.bind (optional_int_string_safe ..) fun _ =>
  Safe.bind (optional_block_header_safe _) fun _ =>
  Safe.bind (check_mode_fields_safe _) fun _ => Safe.ok

/-- The slice is behind the length check and the comparison with `0x`; the length alone
would let `address[2..]` fall inside a character. -/
theorem validate_evm_address_safe (address field : String) :
    Safe (validate_evm_address address field) :=
  Post.bind Post.reject_if fun _ hlen => Post.bind Post.reject_if fun _ hpre => by
    obtain ⟨digits, hslice, -⟩ := evm_address_tail (not_not.1 hlen) (not_not.1 hpre)
    rw [hslice, ok_bind]
    exact Safe.reject_if

/-- The decoder returns or answers an error, and `map_err` only renames the error. -/
theorem validate_tron_address_safe (cr : Crates) (address field : String) :
    Safe (validate_tron_address cr address field) :=
  Safe.bind (Post.map_err (tron_address_to_bytes_spec cr address).safe) fun _ => Safe.ok

theorem check_token_contract_safe {check : String → String → Run Unit}
    (h : ∀ address field, Safe (check address field)) (token_contract : Option String) :
    Safe (check_token_contract check token_contract) := by
  cases token_contract with
  | none => exact Safe.ok
  | some token => exact h token _

/-- On Ethereum the nonce is parsed behind the check that it is there. -/
theorem validate_chain_fields_safe (cr : Crates) (chain : Chain) (chain_id : Option Int64)
    (nonce : Option String) (from_ to_ : String) (token_contract : Option String) :
    Safe (validate_chain_fields cr chain chain_id nonce from_ to_ token_contract) := by
  cases chain with
  | Ethereum =>
    exact Safe.bind Safe.reject_if fun _ => Safe.bind Safe.ok_or fun _ =>
      Safe.bind Safe.reject_if fun _ => Safe.bind (validate_evm_address_safe ..) fun _ =>
      Safe.bind (validate_evm_address_safe ..) fun _ =>
      check_token_contract_safe validate_evm_address_safe _
  | Tron =>
    exact Safe.bind (validate_tron_address_safe ..) fun _ =>
      Safe.bind (validate_tron_address_safe ..) fun _ =>
      check_token_contract_safe (validate_tron_address_safe cr) _

theorem check_native_calldata_safe (tx_type : TxType) (chain : Chain) (data : Option String) :
    Safe (check_native_calldata tx_type chain data) := by
  unfold check_native_calldata
  split
  · split <;> simp
  · simp

/-- The slices of the calldata come after the content check, which makes all of it ASCII. -/
theorem validate_evm_token_transfer_safe (data : Option String)
    (to_ token_contract value_wei : String) :
    Safe (validate_evm_token_transfer data to_ token_contract value_wei) :=
  Safe.bind Safe.ok_or fun d => Post.bind Post.reject_if fun _ hhex =>
    Post.bind Post.reject_if fun _ hlen => by
      obtain ⟨selector, word, pad, tail, amount, h1, h2, h3, h4, -⟩ :=
        calldata_slices (not_not.1 hhex) (not_not.1 hlen)
      simp only [h1, h2, h3, h4, ok_bind]
      exact Safe.bind Safe.reject_if fun _ => Safe.bind Safe.reject_if fun _ =>
        Safe.bind (validate_evm_address_safe ..) fun _ =>
        Safe.bind Safe.reject_if fun _ => Safe.reject_if

/-- Only a token transfer on Ethereum has calldata to slice. -/
theorem check_token_transfer_safe (tx_type : TxType) (chain : Chain) (data : Option String)
    (to_ : String) (token_contract : Option String) (value_wei : String) :
    Safe (check_token_transfer tx_type chain data to_ token_contract value_wei) := by
  unfold check_token_transfer
  split
  · refine Safe.bind Safe.ok_or fun token => ?_
    split
    · exact validate_evm_token_transfer_safe ..
    · exact Safe.ok
  · exact Safe.ok

/-- **`validate` does not panic.** -/
theorem validate_safe (cr : Crates) (input : Value) : Safe (validate cr input) :=
  Safe.bind Safe.ok_or fun obj => Safe.bind (require_chain_safe obj) fun _ =>
  Safe.bind (require_tx_type_safe obj) fun _ =>
  Safe.bind (require_non_empty_string_safe ..) fun _ =>
  Safe.bind (require_non_empty_string_safe ..) fun _ =>
  Safe.bind (require_int_string_safe ..) fun _ => Safe.bind (optional_int_string_safe ..) fun _ =>
  Safe.bind (validate_fee_safe ..) fun _ => Safe.bind (validate_chain_fields_safe ..) fun _ =>
  Safe.bind (check_native_calldata_safe ..) fun _ =>
  Safe.bind (check_token_transfer_safe ..) fun _ => Safe.ok

/-! ## `review` -/

/-- `review` takes the slices of the validator once more, on text nobody may have validated. Its own
content and length checks are what makes them safe. -/
theorem decode_erc20_transfer_data_safe (cr : Crates) (data : String) :
    Safe (decode_erc20_transfer_data cr data) :=
  Post.bind Post.reject_if fun _ hhex => Post.bind Post.reject_if fun _ hlen => by
    obtain ⟨selector, word, pad, tail, amount, h1, h2, h3, h4, h5, -⟩ :=
      calldata_slices (not_not.1 hhex) (not_not.1 hlen)
    simp only [h1, h2, h3, h4, h5, ok_bind]
    exact Safe.bind Safe.reject_if fun _ => Safe.bind Safe.reject_if fun _ =>
      Safe.bind Safe.ok_or fun _ => Safe.ok

/-- The two branches without calldata repeat fields of the transaction. -/
theorem review_transfer_safe (cr : Crates) (prepared : PreparedTransaction) :
    Safe (review_transfer cr prepared) := by
  unfold review_transfer
  split
  · exact Safe.ok
  · exact Safe.ok
  · exact Safe.bind Safe.ok_or fun data => decode_erc20_transfer_data_safe cr data

/-- **`review` does not panic.** -/
theorem review_safe (cr : Crates) (prepared : PreparedTransaction) :
    Safe (review cr prepared) :=
  Safe.bind (review_transfer_safe cr prepared) fun _ => Safe.ok

/-! ## `compile`, on the EVM side -/

theorem parse_address_safe (cr : Crates) (s field : String) : Safe (parse_address cr s field) :=
  Safe.ok_or

/-- Calldata of any length is decoded as a whole; there is nothing to slice. -/
theorem decode_calldata_safe (cr : Crates) (data : Option String) :
    Safe (decode_calldata cr data) := by
  unfold decode_calldata
  split
  · split
    · exact Safe.ok_or
    · exact Safe.ok
  · exact Safe.ok

/-- Every field that validation would have promised is asked for again, so nothing is unwrapped. -/
theorem derive_common_safe (cr : Crates) (prepared : PreparedTransaction) :
    Safe (derive_common cr prepared) :=
  Safe.bind Safe.ok_or fun _ => Safe.bind Safe.ok_or fun _ => Safe.bind Safe.reject_if fun _ =>
  Safe.bind (parse_address_safe ..) fun _ => Safe.bind Safe.ok_or fun _ =>
  Safe.bind Safe.ok_or fun _ => Safe.bind Safe.ok_or fun _ => Safe.bind Safe.ok_or fun _ =>
  Safe.bind Safe.ok_or fun _ => Safe.bind (decode_calldata_safe ..) fun _ => Safe.ok

/-- The fee mode of the other chain is an error, not an unreachable branch. -/
theorem encode_envelope_safe (cr : Crates) (prepared : PreparedTransaction) (common : EvmCommon) :
    Safe (encode_envelope cr prepared common) := by
  unfold encode_envelope
  split
  · exact Safe.bind (Safe.bind Safe.ok_or fun _ => Safe.bind Safe.ok_or fun _ =>
      Safe.bind Safe.ok_or fun _ => Safe.bind Safe.ok_or fun _ => Safe.ok) fun _ => Safe.ok
  · exact Safe.bind (Safe.bind Safe.ok_or fun _ => Safe.bind Safe.ok_or fun _ => Safe.ok)
      fun _ => Safe.ok
  · exact Safe.fail

/-- The encoders of `alloy` are total on the struct they are given. -/
theorem compile_evm_safe (cr : Crates) (prepared : PreparedTransaction) :
    Safe (compile_evm cr prepared) :=
  Safe.bind (derive_common_safe cr prepared) fun _ =>
  Safe.bind (encode_envelope_safe cr prepared _) fun _ => Safe.ok

/-! ## `compile`, on the Tron side -/

/-- Text that does not decode, or of another length, is an error; the rest is
`derive_block_ref_eq`. -/
theorem derive_block_ref_safe {cr : Crates} (hcr : HexLaws cr) (header : TronBlockHeader) :
    Safe (derive_block_ref cr header) := by
  by_cases hlen : len header.h = 64
  · -- decoded to thirty-two bytes, the assertion and the slice hold
    cases hdec : Hex.decode (bytes header.h) with
    | none =>
      unfold derive_block_ref
      rw [reject_if_of_not (not_not.2 hlen), ok_bind, hcr.decode, hdec]
      trivial
    | some bs =>
      have h32 := Hex.length_of_decode hdec
      rw [length_bytes, hlen] at h32
      obtain ⟨ref, h, -⟩ := derive_block_ref_eq hcr hdec (by omega)
      rw [h]
      trivial
  · unfold derive_block_ref
    rw [reject_if_of hlen]
    trivial

/-- What the callers of the address decoder split on. -/
theorem tron_address_outcome (cr : Crates) (address : String) :
    (∃ bs, tron_address_to_bytes cr address = .ok bs) ∨
      ∃ e, tron_address_to_bytes cr address = .error (.err e) :=
  (tron_address_to_bytes_spec cr address).safe.ok_or_err

/-- Every contract the compiler builds is small enough for the record around it. -/
theorem build_contract_safe (cr : Crates) (prepared : PreparedTransaction) :
    Post (build_contract cr prepared) fun x => x.1.length < 2 ^ 62 := by
  -- each address decodes or ends the run with an error, so only the branch where all
  -- of them decode reaches the encoder
  rcases tron_address_outcome cr prepared.«from» with ⟨owner, hfrom⟩ | ⟨e, hfrom⟩
  · rcases tron_address_outcome cr prepared.«to» with ⟨to_, hto⟩ | ⟨e, hto⟩
    · cases htx : prepared.tx_type with
      | TransferNative =>
        rw [build_contract_native htx hfrom hto]
        exact Safe.bind Safe.ok_or fun amount =>
          Contract.length_bytes_lt (transfer_wf hfrom hto amount)
      | TransferToken =>
        cases htoken : prepared.token_contract with
        -- no token contract: an error before anything is encoded
        | none =>
          unfold build_contract
          rw [hfrom, ok_bind, htx]
          dsimp only
          rw [htoken]
          trivial
        | some token =>
          rcases tron_address_outcome cr token with ⟨token_bytes, htb⟩ | ⟨e, htb⟩
          · rw [build_contract_token htx hfrom htoken htb hto]
            exact Safe.bind Safe.ok_or fun amount =>
              Contract.length_bytes_lt (trigger_wf hfrom htb hto amount.toNat)
          · unfold build_contract
            rw [hfrom, ok_bind, htx]
            dsimp only
            rw [htoken, ok_or_some, ok_bind, htb]
            trivial
    · unfold build_contract
      rw [hfrom, ok_bind]
      cases prepared.tx_type with
      | TransferNative =>
        dsimp only
        rw [hto]
        trivial
      | TransferToken =>
        -- the recipient is decoded behind the token, which may fail first
        refine Safe.bind Safe.ok_or fun token => Safe.bind
          (tron_address_to_bytes_spec cr token).safe fun token_bytes => ?_
        unfold build_trc20_transfer_data
        rw [hto]
        trivial
  · unfold build_contract
    rw [hfrom]
    trivial

/-- An absent limit is `None`, and a present one is parsed. -/
theorem parse_fee_limit_safe (el : Option String) : Safe (parse_fee_limit el) := by
  cases el with
  | none => exact Safe.ok
  | some s => exact Safe.bind Safe.ok_or fun _ => Safe.ok

/-- The record is encoded behind a contract of bounded length, so the capacity its buffer reserves
does not overflow. -/
theorem compile_tron_safe {cr : Crates} (hcr : HexLaws cr) (prepared : PreparedTransaction)
    (options : CompileOptions) : Safe (compile_tron cr prepared options) := by
  unfold compile_tron
  refine Safe.bind Safe.ok_or fun header => ?_
  refine Safe.bind (derive_block_ref_safe hcr header) fun ref => ?_
  refine Post.bind (build_contract_safe cr prepared) fun contract hlen => ?_
  refine Safe.bind (parse_fee_limit_safe _) fun fee_limit => ?_
  dsimp only
  -- only that the addition is checked matters, not how long the window is
  generalize EXPIRATION_MS = window
  refine Safe.bind Safe.ok_or fun expiration => ?_
  rw [encode_raw_data_eq hlen, ok_bind]
  exact Safe.ok

/-- **`compile` does not panic.** -/
theorem compile_safe {cr : Crates} (hcr : HexLaws cr) (prepared : PreparedTransaction)
    (options : CompileOptions) : Safe (compile cr prepared options) := by
  unfold compile
  split
  · exact compile_evm_safe cr prepared
  · exact compile_tron_safe hcr prepared options

/-! ## The three operations -/

/-- **No panic on untrusted input**, whatever the value, the transaction and the options. -/
theorem operations_return {cr : Crates} (hcr : HexLaws cr) :
    (∀ input : Value, (∃ p, validate cr input = .ok p) ∨ ∃ e, validate cr input = .error (.err e)) ∧
      ∀ prepared : PreparedTransaction,
        ((∃ r, review cr prepared = .ok r) ∨ ∃ e, review cr prepared = .error (.err e)) ∧
          ∀ options : CompileOptions, (∃ res, compile cr prepared options = .ok res) ∨
            ∃ e, compile cr prepared options = .error (.err e) :=
  ⟨fun input => (validate_safe cr input).ok_or_err, fun prepared =>
    ⟨(review_safe cr prepared).ok_or_err, fun options =>
      (compile_safe hcr prepared options).ok_or_err⟩⟩

/-- A value that is no object, and a transaction no validator has seen: its amount and its
token are one character of two bytes. -/
theorem operations_return_reference :
    ((∃ p, validate reference .null = .ok p) ∨ ∃ e, validate reference .null = .error (.err e)) ∧
      ((∃ r, review reference (tron_native "é" (some "é")) = .ok r) ∨
        ∃ e, review reference (tron_native "é" (some "é")) = .error (.err e)) ∧
          ((∃ res, compile reference (tron_native "é" (some "é")) ⟨none⟩ = .ok res) ∨
            ∃ e, compile reference (tron_native "é" (some "é")) ⟨none⟩ = .error (.err e)) := by
  have h := operations_return reference_hex
  exact ⟨h.1 .null, (h.2 _).1, (h.2 _).2 ⟨none⟩⟩

end TxCompiler
