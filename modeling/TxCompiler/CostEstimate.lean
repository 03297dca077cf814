/-
**The cost a human is shown** for a transaction on Ethereum: the gas limit times the price
per unit of gas, both as `validate` admits them.

`multiply_decimal` parses its operands into 256 bits, and the product saturates there. That
makes the estimate the product cut off at `2 ^ 256 - 1` (`multiply_decimal_eq`), as long as both
operands can be parsed. `validate` does not see to that: it bounds the number of digits at 78,
and `2 ^ 256` has 78 digits. Past that width an operand is answered with `"0"`, which is the
worst case of a transaction only if the other operand is zero. `estimate_iff` is the exact
boundary, and `estimate_vanishes` a payload on the wrong side of it.
-/
import TxCompiler.Range

set_option autoImplicit false

namespace TxCompiler

open Rust Json

/-! ## The product -/

/-- Saturation is the minimum with the largest word. -/
theorem toNat_saturating_mul (a b : U256) :
    (U256.saturating_mul a b).toNat = min (a.toNat * b.toNat) (2 ^ 256 - 1) := by
  unfold U256.saturating_mul
  by_cases h : a.toNat * b.toNat < 2 ^ 256
  · rw [if_pos h, BitVec.toNat_ofNat, Nat.mod_eq_of_lt h, Nat.min_eq_left (by omega)]
  · rw [if_neg h, BitVec.toNat_ofNat, Nat.mod_eq_of_lt (by norm_num), Nat.min_eq_right (by omega)]

section Estimate

variable {cr : Crates} {p : PreparedTransaction}

theorem multiply_decimal_eq (hu256 : U256Laws cr) (gas price : ℕ) :
    multiply_decimal cr gas.repr price.repr
      = if gas < 2 ^ 256 ∧ price < 2 ^ 256 then (min (gas * price) (2 ^ 256 - 1)).repr
        else "0" := by
  unfold multiply_decimal
  rw [hu256.decimal, hu256.decimal]
  by_cases h : gas < 2 ^ 256 ∧ price < 2 ^ 256
  · obtain ⟨hgas, hprice⟩ := h
    rw [if_pos hgas, if_pos hprice, if_pos ⟨hgas, hprice⟩]
    dsimp only
    rw [toNat_saturating_mul, BitVec.toNat_ofNat, BitVec.toNat_ofNat, Nat.mod_eq_of_lt hgas,
      Nat.mod_eq_of_lt hprice]
  · rw [if_neg h]
    -- one of the two parses fails
    by_cases hgas : gas < 2 ^ 256
    · have hprice : ¬ price < 2 ^ 256 := fun hprice => h ⟨hgas, hprice⟩
      rw [if_pos hgas, if_neg hprice]
    · rw [if_neg hgas]

/-! ## The operands -/

-- None of the defaults of the source is reached: the mode requires every field that has one.
theorem fee_review_eip1559 (hf : ValidFee p.chain p.fee) (hmode : p.fee.mode = .Eip1559) :
    build_fee_review cr p.fee = {
      mode := .Eip1559
      estimated_max_cost := some (multiply_decimal cr (opt_value p.fee.gas_limit).repr
        (opt_value p.fee.max_fee_per_gas).repr)
      gas_limit := some (opt_value p.fee.gas_limit).repr
      gas_price := none
      max_fee_per_gas := some (opt_value p.fee.max_fee_per_gas).repr
      max_priority_fee_per_gas := some (opt_value p.fee.max_priority_fee_per_gas).repr
      base_fee_per_gas := p.fee.base_fee_per_gas
      tron_fee_limit := none } := by
  have hreq := hf.required
  rw [RequiredFields, hmode] at hreq
  obtain ⟨h1, h2, h3⟩ := hreq
  have e1 := hf.gas_limit.eq_some_repr h1
  have e2 := hf.max_fee_per_gas.eq_some_repr h2
  have e3 := hf.max_priority_fee_per_gas.eq_some_repr h3
  unfold build_fee_review
  rw [hmode]
  dsimp only
  conv_lhs => rw [e1, e2, e3]
  rw [Option.getD_some, Option.getD_some]

theorem fee_review_legacy (hf : ValidFee p.chain p.fee) (hmode : p.fee.mode = .Legacy) :
    build_fee_review cr p.fee = {
      mode := .Legacy
      estimated_max_cost := some (multiply_decimal cr (opt_value p.fee.gas_limit).repr
        (opt_value (effective_gas_price p.fee)).repr)
      gas_limit := some (opt_value p.fee.gas_limit).repr
      gas_price := some (opt_value (effective_gas_price p.fee)).repr
      max_fee_per_gas := none
      max_priority_fee_per_gas := none
      base_fee_per_gas := none
      tron_fee_limit := none } := by
  have hreq := hf.required
  rw [RequiredFields, hmode] at hreq
  have e1 := hf.gas_limit.eq_some_repr hreq.1
  have e2 := (effective_gas_price_decimal hf).eq_some_repr hreq.2
  unfold build_fee_review
  rw [hmode]
  dsimp only
  rw [show p.fee.gas_price.or p.fee.max_fee_per_gas = effective_gas_price p.fee from rfl]
  conv_lhs => rw [e1, e2]
  rw [Option.getD_some, Option.getD_some]

/-- The most a unit of gas may cost, in the mode of the transaction. -/
def fee_per_gas (fee : FeeParams) : Option String :=
  match fee.mode with
  | .Eip1559 => fee.max_fee_per_gas
  | .Legacy => effective_gas_price fee
  | .Tron => none

/-- The worst case a 256-bit estimate can express. -/
def worst_case (fee : FeeParams) : ℕ :=
  min (opt_value fee.gas_limit * opt_value (fee_per_gas fee)) (2 ^ 256 - 1)

theorem estimated_max_cost_eq (hf : ValidFee p.chain p.fee) (hc : p.chain = .Ethereum) :
    (build_fee_review cr p.fee).estimated_max_cost
      = some (multiply_decimal cr (opt_value p.fee.gas_limit).repr
          (opt_value (fee_per_gas p.fee)).repr) := by
  have hof := hf.mode
  rw [FeeMode.Of, hc] at hof
  unfold fee_per_gas
  cases hmode : p.fee.mode with
  | Eip1559 => rw [fee_review_eip1559 hf hmode]
  | Legacy => rw [fee_review_legacy hf hmode]
  | Tron => simp [hmode] at hof

/-- The review shows the estimate as it was built. -/
theorem shown_cost {r : TransactionReview} (hr : review cr p = .ok r) :
    r.fee.estimated_max_cost = (build_fee_review cr p.fee).estimated_max_cost := by
  obtain ⟨recipient, amount, rfl⟩ := review_eq_ok hr
  rw [review_of]

/-! ## The boundary -/

/-- Past the width the estimate is zero, and the product is zero with one of its operands. -/
theorem estimate_eq_iff (gas price : ℕ) :
    ((if gas < 2 ^ 256 ∧ price < 2 ^ 256 then (min (gas * price) (2 ^ 256 - 1)).repr else "0")
      = (min (gas * price) (2 ^ 256 - 1)).repr) ↔
        (gas < 2 ^ 256 ∧ price < 2 ^ 256) ∨ gas = 0 ∨ price = 0 := by
  by_cases h : gas < 2 ^ 256 ∧ price < 2 ^ 256
  · rw [if_pos h]
    exact iff_of_true rfl (.inl h)
  · rw [if_neg h, or_iff_right h, ← Nat.mul_eq_zero]
    constructor
    · intro heq
      rw [← zero_repr] at heq
      have hmin := repr_inj heq
      omega
    · intro hzero
      rw [hzero, Nat.zero_min, zero_repr]

/-- **When the estimate is right.** The cost shown is the worst case exactly when gas limit and
price fit 256 bits, or one of them is zero. -/
theorem estimate_iff (hhex : HexLaws cr) (hu256 : U256Laws cr) {v : Value}
    (h : validate cr v = .ok p) (hc : p.chain = .Ethereum) :
    (∃ r, review cr p = .ok r ∧ r.fee.estimated_max_cost = some (worst_case p.fee).repr) ↔
      (opt_value p.fee.gas_limit < 2 ^ 256 ∧ opt_value (fee_per_gas p.fee) < 2 ^ 256) ∨
        opt_value p.fee.gas_limit = 0 ∨ opt_value (fee_per_gas p.fee) = 0 := by
  obtain ⟨-, hv⟩ := (validate_eq_ok hhex).1 h
  have hcost := @estimated_max_cost_eq cr p hv.fee hc
  rw [multiply_decimal_eq hu256] at hcost
  rw [← estimate_eq_iff]
  constructor
  · rintro ⟨r, hr, hshown⟩
    rw [shown_cost hr, hcost] at hshown
    exact Option.some.inj hshown
  · intro heq
    obtain ⟨r, hr⟩ := review_of_valid hu256 hv
    refine ⟨r, hr, ?_⟩
    rw [shown_cost hr, hcost, heq, worst_case]

end Estimate

/-- The review of a sample in legacy mode shows `21000` times `5` gwei. -/
theorem evm_native_estimate : ∃ r, review reference evm_native = .ok r ∧
    r.fee.estimated_max_cost = some (105000000000000 : ℕ).repr := by
  have hgas : opt_value evm_native.fee.gas_limit = 21000 := by decide
  have hprice : opt_value (fee_per_gas evm_native.fee) = 5000000000 := by decide
  have hworst : worst_case evm_native.fee = 105000000000000 := by
    rw [worst_case, hgas, hprice]
    norm_num
  have h := (estimate_iff reference_hex reference_u256 validate_evm_native rfl).2
    (.inl ⟨by rw [hgas]; norm_num, by rw [hprice]; norm_num⟩)
  rw [hworst] at h
  exact h

/-- `2 ^ 256`, in 78 digits. -/
def past_width : String :=
  "115792089237316195423570985008687907853269984665640564039457584007913129639936"

/-- At a fee cap of `2 ^ 256` the review shows a cost of nothing. -/
theorem estimate_vanishes : ∃ p r,
    validate reference (evm_capped_payload past_width "1") = .ok p ∧ p.chain = .Ethereum ∧
      review reference p = .ok r ∧ r.fee.estimated_max_cost = some "0" ∧
      worst_case p.fee = 2 ^ 256 - 1 ∧
      r.fee.estimated_max_cost ≠ some (worst_case p.fee).repr := by
  have hvalid : validate reference (evm_capped_payload past_width "1")
      = .ok (evm_capped past_width "1") := eq_ok_of_toOption (by decide +kernel)
  have hgas : opt_value (evm_capped past_width "1").fee.gas_limit = 21000 := by decide
  have hmax : opt_value (fee_per_gas (evm_capped past_width "1").fee) = 2 ^ 256 := by
    decide +kernel
  have hworst : worst_case (evm_capped past_width "1").fee = 2 ^ 256 - 1 := by
    rw [worst_case, hgas, hmax]
    norm_num
  obtain ⟨-, hv⟩ := (validate_eq_ok reference_hex).1 hvalid
  have hcost := @estimated_max_cost_eq reference _ hv.fee rfl
  rw [multiply_decimal_eq reference_u256, hgas, hmax, if_neg (fun h => lt_irrefl _ h.2)] at hcost
  refine ⟨_, _, hvalid, rfl, review_envelope reference (.inl rfl), hcost, hworst, ?_⟩
  show (build_fee_review reference (evm_capped past_width "1").fee).estimated_max_cost ≠ _
  rw [hcost, hworst]
  intro heq
  have hzero : (0 : ℕ) = 2 ^ 256 - 1 := by
    apply repr_inj
    rw [zero_repr]
    exact Option.some.inj heq
  norm_num at hzero

end TxCompiler
