/-
**Accepted amounts are canonical decimals**, and no parser alters one.

`is_non_neg_int` is a scan of bytes: a first digit from `1` to `9`, digits behind it, seventy-
eight in all at most. `is_non_neg_int_iff` has shown that it accepts what printing a number
below `10 ^ 78` gives and nothing else, so from there on an amount is `n.repr` and the question
is what becomes of `n`.

On the way in, `coerce_to_string` takes a JSON number for what it prints as. `integer_of` is
what a value denotes, read off the value and not off that string, and `number_of_literal` how
`serde_json` holds the integer of a literal: from `2 ^ 64` on it is a float, and no float is
let through.

On the way out there are three widths. `ReadsAmounts` is what each of the parsers has to do
with `n.repr`: return `n` when it is below the bound, refuse it otherwise, and return nothing
that prints as something else. The 256-bit parser is not in this repository. It is taken at
one digit at a time (`U256DigitLaws`), and that the whole then comes out exact or refused is
`checked_numeral_eq`.
-/
import TxCompiler.Validated
import TxCompiler.Tron
import TxCompiler.Evm
import TxCompiler.Reference

set_option autoImplicit false

namespace TxCompiler

open Rust Json

/-! ## The way in -/

/-- The integer a JSON value denotes: that of a number held as one, or the number a string of
digits spells. -/
def integer_of : Value → Option ℤ
  | .number (.posInt u) => some u.toNat
  | .number (.negInt i _) => some i.toInt
  | .string s =>
    if bytes s ≠ [] ∧ (bytes s).all is_ascii_digit then some (decimal_value s) else none
  | _ => none

theorem int64_neg {i : ℤ} (hneg : i < 0) (hlo : -2 ^ 63 ≤ i) : Int64.ofInt i < 0 := by
  rw [Int64.lt_iff_toInt_lt, Int64.toInt_ofInt_of_le hlo (by omega)]
  exact hneg

/-- How `serde_json` holds the integer of a literal; outside the two ranges it is a float, with
the bits `round` gives. -/
def number_of_literal (round : ℤ → UInt64) (i : ℤ) : Number :=
  if 0 ≤ i ∧ i < 2 ^ 64 then .posInt (UInt64.ofNat i.toNat)
  else if h : i < 0 ∧ -2 ^ 63 ≤ i then .negInt (Int64.ofInt i) (int64_neg h.1 h.2)
  else .float (round i)

/-- A canonical decimal denotes the number it prints. -/
theorem integer_of_repr (n : ℕ) : integer_of (.string n.repr) = some (n : ℤ) := by
  have hdigits : (bytes n.repr).all is_ascii_digit = true := List.all_eq_true.2 (digits_repr n)
  rw [integer_of, if_pos ⟨bytes_repr_ne_nil n, hdigits⟩, decimal_value_repr]

/-- What is let through prints the number the value denotes. -/
theorem integer_of_accepted {v : Value} {s : String}
    (h : (coerce_to_string v).filter is_non_neg_int = some s) :
    ∃ n : ℕ, integer_of v = some (n : ℤ) ∧ n < 10 ^ 78 ∧ s = n.repr := by
  obtain ⟨hspells, n, hn, rfl⟩ := coerce_to_string_filter.1 h
  rcases hspells with rfl | ⟨u, rfl, hu⟩
  · exact ⟨n, integer_of_repr n, hn, rfl⟩
  · have hnu : n = u.toNat := repr_inj hu
    refine ⟨n, ?_, hn, rfl⟩
    rw [hnu]
    rfl

theorem accepted_string {n : ℕ} (hn : n < 10 ^ 78) :
    (coerce_to_string (.string n.repr)).filter is_non_neg_int = some n.repr :=
  coerce_to_string_filter.2 ⟨.inl rfl, n, hn, rfl⟩

/-- Of the integer literals, those below `2 ^ 64` are let through, as their decimals. -/
theorem accepted_literal (round : ℤ → UInt64) (i : ℤ) :
    (coerce_to_string (.number (number_of_literal round i))).filter is_non_neg_int
      = if 0 ≤ i ∧ i < 2 ^ 64 then some i.toNat.repr else none := by
  unfold number_of_literal
  by_cases hpos : 0 ≤ i ∧ i < 2 ^ 64
  · have hval : (UInt64.ofNat i.toNat).toNat = i.toNat := toNat_ofNat_u64 (by omega)
    rw [if_pos hpos, if_pos hpos]
    apply coerce_to_string_filter.2
    refine ⟨.inr ⟨UInt64.ofNat i.toNat, rfl, ?_⟩, i.toNat, ?_, rfl⟩
    · rw [hval]
    · exact lt_trans (b := 2 ^ 64) (by omega) (by norm_num)
  · rw [if_neg hpos, if_neg hpos]
    by_cases hneg : i < 0 ∧ -2 ^ 63 ≤ i
    · rw [dif_pos hneg]
      rfl
    · rw [dif_neg hneg]
      rfl

/-! ## The way out -/

/-- What a parser makes of a canonical decimal: the number below `bound`, an error from there
on, and no number that prints as something else. -/
structure ReadsAmounts {α : Type} (bound : ℕ) (parse : String → Run α) (value : α → ℕ)
    (error : String → TxCompilerError) : Prop where
  fits : ∀ n < bound, ∃ a, parse n.repr = .ok a ∧ value a = n
  refuses : ∀ n, bound ≤ n → parse n.repr = fail (error n.repr)
  prints : ∀ s a, is_non_neg_int s = true → parse s = .ok a → (value a).repr = s

/-- A parser that is an `ok_or` around a partial function of the number. -/
theorem readsAmounts_ok_or {α : Type} {bound : ℕ} {read : String → Option α} {make : ℕ → α}
    {value : α → ℕ} (error : String → TxCompilerError)
    (hread : ∀ n : ℕ, read n.repr = if n < bound then some (make n) else none)
    (hvalue : ∀ n < bound, value (make n) = n) :
    ReadsAmounts bound (fun s => ok_or (read s) (error s)) value error where
  fits n hn := by
    refine ⟨make n, ?_, hvalue n hn⟩
    rw [hread, if_pos hn, ok_or_some]
  refuses n hn := by
    rw [hread, if_neg (by omega), ok_or_none]
  prints s a hs h := by
    obtain ⟨n, -, rfl⟩ := (is_non_neg_int_iff s).1 hs
    rw [ok_or_eq_ok, hread] at h
    by_cases hn : n < bound
    · rw [if_pos hn] at h
      rw [← Option.some.inj h, hvalue n hn]
    · rw [if_neg hn] at h
      simp at h

/-- Wrapping the result changes nothing. -/
theorem ReadsAmounts.map {α β : Type} {bound : ℕ} {parse : String → Run α} {value : α → ℕ}
    {error : String → TxCompilerError} (h : ReadsAmounts bound parse value error) {wrap : α → β}
    {value' : β → ℕ} (hwrap : ∀ a, value' (wrap a) = value a) :
    ReadsAmounts bound (fun s => do let a ← parse s; .ok (wrap a)) value' error where
  fits n hn := by
    obtain ⟨a, ha, hvalue⟩ := h.fits n hn
    refine ⟨wrap a, ?_, ?_⟩
    · rw [ha, ok_bind]
    · rw [hwrap, hvalue]
  refuses n hn := by
    rw [h.refuses n hn, fail_bind]
  prints s b hs hb := by
    obtain ⟨a, ha, hwrapped⟩ := bind_eq_ok.1 hb
    rw [← Except.ok.inj hwrapped, hwrap]
    exact h.prints s a hs ha

theorem u64_reads_amounts (error : String → TxCompilerError) :
    ReadsAmounts (2 ^ 64) (fun s => ok_or (u64_from_str s) (error s)) UInt64.toNat error :=
  readsAmounts_ok_or error u64_from_str_repr fun _ hn => toNat_ofNat_u64 hn

theorem u128_reads_amounts (error : String → TxCompilerError) :
    ReadsAmounts (2 ^ 128) (fun s => ok_or (u128_from_str s) (error s)) BitVec.toNat error :=
  readsAmounts_ok_or error u128_from_str_repr fun n hn => by
    rw [BitVec.toNat_ofNat, Nat.mod_eq_of_lt hn]

theorem u256_reads_amounts {cr : Crates} (hcr : U256DigitLaws cr)
    (error : String → TxCompilerError) :
    ReadsAmounts (2 ^ 256) (fun s => ok_or (cr.u256_from_str_radix s 10) (error s)) BitVec.toNat
      error :=
  readsAmounts_ok_or error hcr.repr fun n hn => by
    rw [BitVec.toNat_ofNat, Nat.mod_eq_of_lt hn]

theorem fee_limit_reads_amounts :
    ReadsAmounts (2 ^ 64) (fun s => parse_fee_limit (some s))
      (fun limit => limit.elim 0 UInt64.toNat) fee_limit_error :=
  (u64_reads_amounts fee_limit_error).map fun _ => rfl

/-! ## Both ways -/

/-- **Accepted amounts are canonical and are never altered.** -/
theorem amounts_canonical {cr : Crates} (hcr : U256DigitLaws cr) :
    (∀ s, is_non_neg_int s = true ↔ ∃ n : ℕ, n < 10 ^ 78 ∧ s = n.repr) ∧
    (∀ v s, (coerce_to_string v).filter is_non_neg_int = some s →
      ∃ n : ℕ, integer_of v = some (n : ℤ) ∧ s = n.repr) ∧
    (∀ round i, (coerce_to_string (.number (number_of_literal round i))).filter is_non_neg_int
      = if 0 ≤ i ∧ i < 2 ^ 64 then some i.toNat.repr else none) ∧
    (∀ n : ℕ, n < 10 ^ 78 →
      (coerce_to_string (.string n.repr)).filter is_non_neg_int = some n.repr) ∧
    (∀ bits, coerce_to_string (.number (.float bits)) = none) ∧
    (∀ i neg, coerce_to_string (.number (.negInt i neg)) = none) ∧
    (∀ field, ReadsAmounts (2 ^ 64) (parse_u64 · field) UInt64.toNat (u64_error · field)) ∧
    (∀ field, ReadsAmounts (2 ^ 128) (parse_u128 · field) BitVec.toNat (u128_error · field)) ∧
    (∀ field, ReadsAmounts (2 ^ 256) (parse_u256 cr · field) BitVec.toNat (u256_error · field)) ∧
    ReadsAmounts (2 ^ 64) (fun s => parse_fee_limit (some s))
      (fun limit => limit.elim 0 UInt64.toNat) fee_limit_error ∧
    ReadsAmounts (2 ^ 64) (fun s => ok_or (u64_from_str s) (native_amount_error s)) UInt64.toNat
      native_amount_error ∧
    ReadsAmounts (2 ^ 256) (fun s => ok_or (cr.u256_from_str_radix s 10) (trc20_amount_error s))
      BitVec.toNat trc20_amount_error := by
  refine ⟨is_non_neg_int_iff, ?_, accepted_literal, fun n hn => accepted_string hn, fun _ => rfl,
    fun _ _ => rfl, fun field => u64_reads_amounts _, fun field => u128_reads_amounts _,
    fun field => u256_reads_amounts hcr _, fee_limit_reads_amounts, u64_reads_amounts _,
    u256_reads_amounts hcr _⟩
  intro v s h
  obtain ⟨n, hinteger, -, hs⟩ := integer_of_accepted h
  exact ⟨n, hinteger, hs⟩

/-- At the parser of the samples, the largest amount of 256 bits is read and the next refused. -/
theorem reference_amounts_canonical :
    (∃ a, parse_u256 reference (2 ^ 256 - 1 : ℕ).repr "valueWei" = .ok a ∧
      a.toNat = 2 ^ 256 - 1) ∧
    parse_u256 reference (2 ^ 256 : ℕ).repr "valueWei"
      = fail (u256_error (2 ^ 256 : ℕ).repr "valueWei") := by
  have h := (amounts_canonical reference_u256_digits).2.2.2.2.2.2.2.2.1 "valueWei"
  exact ⟨h.fits _ (by norm_num), h.refuses _ le_rfl⟩

end TxCompiler
