/-
Positional numerals: decimal strings, hexadecimal words and big-endian byte
strings, all three the value of a list of digits with the most significant digit
first.

The value of a digit list is Mathlib's `Nat.ofDigits` on its reversal, so bounds
and injectivity come from there. What is added is the writing side. `Nat.repr` is
Rust's `to_string` on an unsigned integer, and `eq_repr_of_canonical` says that the
strings without a leading zero are exactly what it prints; `to_be_bytes` is the
fixed-width big-endian encoding, `be_min` the shortest one. `parse_uint` is
`str::parse` at an unsigned type of `w` bits.
-/
import TxCompiler.Str

set_option autoImplicit false

namespace Rust

/-! ## Digit lists -/

/-- The number a digit list spells in radix `r`, most significant digit first. -/
def numeral (r : ℕ) (ds : List ℕ) : ℕ := Nat.ofDigits r ds.reverse

@[simp] theorem numeral_nil (r : ℕ) : numeral r [] = 0 := rfl

theorem numeral_append_singleton (r : ℕ) (ds : List ℕ) (d : ℕ) :
    numeral r (ds ++ [d]) = r * numeral r ds + d := by
  rw [numeral, List.reverse_append, List.reverse_singleton, List.singleton_append,
    Nat.ofDigits_cons, numeral, Nat.add_comm]

theorem numeral_append (r : ℕ) (ds es : List ℕ) :
    numeral r (ds ++ es) = numeral r ds * r ^ es.length + numeral r es := by
  rw [numeral, List.reverse_append, Nat.ofDigits_append, List.length_reverse, numeral, numeral]
  ring

theorem numeral_lt {r : ℕ} {ds : List ℕ} (hr : 1 < r) (h : ∀ d ∈ ds, d < r) :
    numeral r ds < r ^ ds.length := by
  rw [← List.length_reverse]
  exact Nat.ofDigits_lt_base_pow_length hr fun d hd => h d (List.mem_reverse.1 hd)

theorem numeral_inj {r : ℕ} {ds es : List ℕ} (hr : 1 < r) (hlen : ds.length = es.length)
    (hd : ∀ d ∈ ds, d < r) (he : ∀ d ∈ es, d < r) (h : numeral r ds = numeral r es) :
    ds = es := by
  -- the digits are compared from the least significant one, as `ofDigits` reads them
  have hrev := Nat.ofDigits_inj_of_len_eq hr (by simpa using hlen)
    (fun d hm => hd d (List.mem_reverse.1 hm)) (fun d hm => he d (List.mem_reverse.1 hm)) h
  exact List.reverse_injective hrev

theorem numeral_cons (r d : ℕ) (ds : List ℕ) :
    numeral r (d :: ds) = d * r ^ ds.length + numeral r ds := by
  have h := numeral_append r [d] ds
  rw [List.singleton_append] at h
  rw [h, numeral, List.reverse_singleton, Nat.ofDigits_singleton]

/-- The digits read one at a time, in an accumulator that has to stay below `bound`. -/
def checked_numeral (r bound : ℕ) : ℕ → List ℕ → Option ℕ
  | acc, [] => some acc
  | acc, d :: ds =>
    if r * acc + d < bound then checked_numeral r bound (r * acc + d) ds else none

/-- The accumulator never shrinks, so an overflow on the way is an overflow of the whole. -/
theorem checked_numeral_eq {r bound : ℕ} (hr : 0 < r) (ds : List ℕ) {acc : ℕ}
    (hacc : acc < bound) : checked_numeral r bound acc ds
      = if acc * r ^ ds.length + numeral r ds < bound then
          some (acc * r ^ ds.length + numeral r ds) else none := by
  induction ds generalizing acc with
  | nil => simp [checked_numeral, hacc]
  | cons d ds ih =>
    have hsplit : acc * r ^ (d :: ds).length + numeral r (d :: ds)
        = (r * acc + d) * r ^ ds.length + numeral r ds := by
      rw [numeral_cons, List.length_cons, pow_succ]
      ring
    rw [hsplit, checked_numeral]
    by_cases h : r * acc + d < bound
    · rw [if_pos h, ih h]
    · have hle : r * acc + d ≤ (r * acc + d) * r ^ ds.length :=
        Nat.le_mul_of_pos_right _ (Nat.pow_pos hr)
      rw [if_neg h, if_neg (by omega)]

/-! ## Big-endian bytes -/

/-- The number a big-endian byte string spells. -/
def be_value (bs : List UInt8) : ℕ := numeral 256 (bs.map UInt8.toNat)

/-- `uN::to_be_bytes`, at a width of `w` bytes. -/
def to_be_bytes : ℕ → ℕ → List UInt8
  | 0, _ => []
  | w + 1, n => to_be_bytes w (n / 256) ++ [UInt8.ofNat n]

/-- The shortest big-endian encoding: no leading zero byte, and nothing for `0`. -/
def be_min (n : ℕ) : List UInt8 :=
  if n = 0 then [] else be_min (n / 256) ++ [UInt8.ofNat n]
termination_by n
decreasing_by exact Nat.div_lt_self (Nat.pos_of_ne_zero ‹_›) (by decide)

@[simp] theorem be_value_nil : be_value [] = 0 := rfl

theorem be_value_append_singleton (bs : List UInt8) (b : UInt8) :
    be_value (bs ++ [b]) = 256 * be_value bs + b.toNat := by
  rw [be_value, List.map_append, List.map_singleton, numeral_append_singleton, be_value]

theorem be_value_append (bs cs : List UInt8) :
    be_value (bs ++ cs) = be_value bs * 256 ^ cs.length + be_value cs := by
  rw [be_value, List.map_append, numeral_append, List.length_map, be_value, be_value]

theorem byte_digits_lt (bs : List UInt8) : ∀ d ∈ bs.map UInt8.toNat, d < 256 := by
  intro d hd
  obtain ⟨b, -, rfl⟩ := List.mem_map.1 hd
  exact b.toNat_lt

theorem be_value_lt (bs : List UInt8) : be_value bs < 256 ^ bs.length := by
  have h := numeral_lt (by decide) (byte_digits_lt bs)
  rw [List.length_map] at h
  exact h

theorem be_value_inj {bs cs : List UInt8} (hlen : bs.length = cs.length)
    (h : be_value bs = be_value cs) : bs = cs := by
  have hmap := numeral_inj (by decide) (by simpa using hlen) (byte_digits_lt bs)
    (byte_digits_lt cs) h
  exact List.map_injective_iff.2 (fun a b hab => UInt8.toNat_inj.1 hab) hmap

@[simp] theorem length_to_be_bytes (w n : ℕ) : (to_be_bytes w n).length = w := by
  induction w generalizing n with
  | zero => rfl
  | succ w ih => rw [to_be_bytes, List.length_append, ih, List.length_singleton]

theorem be_value_to_be_bytes {w n : ℕ} (h : n < 256 ^ w) : be_value (to_be_bytes w n) = n := by
  induction w generalizing n with
  | zero =>
    rw [pow_zero] at h
    rw [to_be_bytes, be_value_nil]
    omega
  | succ w ih =>
    have hdiv : n / 256 < 256 ^ w := by
      rw [Nat.div_lt_iff_lt_mul (by decide), ← pow_succ]
      exact h
    rw [to_be_bytes, be_value_append_singleton, ih hdiv, UInt8.toNat_ofNat']
    omega

theorem to_be_bytes_be_value (bs : List UInt8) : to_be_bytes bs.length (be_value bs) = bs :=
  be_value_inj (length_to_be_bytes _ _) (be_value_to_be_bytes (be_value_lt bs))

theorem be_value_be_min (n : ℕ) : be_value (be_min n) = n := by
  induction n using Nat.strong_induction_on with
  | _ n ih =>
    rw [be_min]
    split
    · next h => rw [h, be_value_nil]
    · next h =>
      -- `n = 256 * (n / 256) + n % 256`, and the last byte is the remainder
      rw [be_value_append_singleton, ih _ (Nat.div_lt_self (Nat.pos_of_ne_zero h) (by decide)),
        UInt8.toNat_ofNat']
      omega

theorem be_min_inj {m n : ℕ} (h : be_min m = be_min n) : m = n := by
  rw [← be_value_be_min m, h, be_value_be_min]

theorem length_be_min_le {n k : ℕ} (h : n < 256 ^ k) : (be_min n).length ≤ k := by
  induction k generalizing n with
  | zero =>
    rw [pow_zero] at h
    -- no bytes are allowed, and only `0` takes none
    rw [be_min, if_pos (by omega)]
    simp
  | succ k ih =>
    rw [be_min]
    split
    · simp
    · have hdiv : n / 256 < 256 ^ k := by
        rw [Nat.div_lt_iff_lt_mul (by decide), ← pow_succ]
        exact h
      have := ih hdiv
      simp only [List.length_append, List.length_singleton]
      omega

theorem be_min_head_ne_zero (n : ℕ) : (be_min n).head? ≠ some 0 := by
  induction n using Nat.strong_induction_on with
  | _ n ih =>
    rw [be_min]
    split
    · simp
    · next h =>
      rw [List.head?_append]
      cases hd : (be_min (n / 256)).head? with
      | some b =>
        have := ih (n / 256) (by omega)
        rw [hd] at this
        simpa using this
      | none =>
        -- the top digit: nothing is left above it, so it is `n` itself and not zero
        have hn : n / 256 = 0 := by
          rw [← be_value_be_min (n / 256), List.head?_eq_none_iff.1 hd, be_value_nil]
        intro heq
        simp only [List.head?_cons, Option.none_or, Option.some.injEq] at heq
        have := congrArg UInt8.toNat heq
        rw [UInt8.toNat_ofNat'] at this
        simp at this
        omega

/-! ## Digit strings -/

/-- The value of an ASCII digit, in any radix up to sixteen. -/
def digit_value (b : UInt8) : ℕ :=
  if is_ascii_digit b then b.toNat - 48 else (lowercase_byte b).toNat - 87

/-- The number a string of ASCII digits spells in radix `r`. -/
def radix_value (r : ℕ) (bs : List UInt8) : ℕ := numeral r (bs.map digit_value)

/-- The number a decimal string spells. -/
def decimal_value (s : String) : ℕ := radix_value 10 (bytes s)

theorem digit_value_eq (b : UInt8) : digit_value b =
    if 48 ≤ b.toNat ∧ b.toNat ≤ 57 then b.toNat - 48
    else if 65 ≤ b.toNat ∧ b.toNat ≤ 90 then b.toNat - 55 else b.toNat - 87 := by
  simp only [digit_value, is_ascii_digit_iff, toNat_lowercase_byte]
  split_ifs <;> omega

theorem digit_value_lt_ten {b : UInt8} (h : is_ascii_digit b = true) : digit_value b < 10 := by
  rw [is_ascii_digit_iff] at h
  rw [digit_value_eq, if_pos h]
  omega

theorem digit_value_lt_sixteen {b : UInt8} (h : is_ascii_hexdigit b = true) :
    digit_value b < 16 := by
  rw [is_ascii_hexdigit_iff] at h
  rw [digit_value_eq]
  split_ifs <;> omega

theorem digit_value_lowercase (b : UInt8) : digit_value (lowercase_byte b) = digit_value b := by
  simp only [digit_value_eq, toNat_lowercase_byte]
  split_ifs <;> omega

theorem digit_of_value {b : UInt8} (h : is_ascii_digit b = true) :
    b = UInt8.ofNat (48 + digit_value b) := by
  rw [is_ascii_digit_iff] at h
  -- the other byte with this value is the letter, and `h` excludes it
  rw [digit_value_eq, if_pos h, ← UInt8.toNat_inj, UInt8.toNat_ofNat']
  omega

theorem digit_byte {d : ℕ} (h : d < 10) :
    is_ascii_digit (UInt8.ofNat (48 + d)) = true ∧ digit_value (UInt8.ofNat (48 + d)) = d := by
  have hb : (UInt8.ofNat (48 + d)).toNat = 48 + d := by
    rw [UInt8.toNat_ofNat']
    omega
  rw [is_ascii_digit_iff, digit_value_eq, hb, if_pos (by omega)]
  omega

theorem radix_value_append (r : ℕ) (bs cs : List UInt8) :
    radix_value r (bs ++ cs) = radix_value r bs * r ^ cs.length + radix_value r cs := by
  rw [radix_value, List.map_append, numeral_append, List.length_map, radix_value, radix_value]

theorem radix_value_append_singleton (r : ℕ) (bs : List UInt8) (b : UInt8) :
    radix_value r (bs ++ [b]) = r * radix_value r bs + digit_value b := by
  rw [radix_value, List.map_append, List.map_singleton, numeral_append_singleton, radix_value]

theorem radix_value_hex_lt {bs : List UInt8} (h : ∀ b ∈ bs, is_ascii_hexdigit b = true) :
    radix_value 16 bs < 16 ^ bs.length := by
  have hlt := @numeral_lt 16 (bs.map digit_value) (by decide) (by
    intro d hd
    obtain ⟨b, hb, rfl⟩ := List.mem_map.1 hd
    exact digit_value_lt_sixteen (h b hb))
  simpa [radix_value] using hlt

/-! ## Printing -/

theorem bytes_repr_of_lt {n : ℕ} (h : n < 10) : bytes n.repr = [UInt8.ofNat (48 + n)] := by
  have hall : ∀ n : Fin 10, bytes n.val.repr = [UInt8.ofNat (48 + n.val)] := by decide
  exact hall ⟨n, h⟩

theorem bytes_repr_of_ge {n : ℕ} (h : 10 ≤ n) :
    bytes n.repr = bytes (n / 10).repr ++ [UInt8.ofNat (48 + n % 10)] := by
  rw [Nat.repr_eq_repr_append_repr h, bytes_append, bytes_repr_of_lt (Nat.mod_lt _ (by decide))]

/-- What `to_string` prints are digits. -/
theorem digits_repr (n : ℕ) : ∀ b ∈ bytes n.repr, is_ascii_digit b = true := by
  induction n using Nat.strong_induction_on with
  | _ n ih =>
    rcases Nat.lt_or_ge n 10 with h | h
    · rw [bytes_repr_of_lt h]
      intro b hb
      rw [List.mem_singleton.1 hb]
      exact (digit_byte h).1
    · rw [bytes_repr_of_ge h]
      intro b hb
      rcases List.mem_append.1 hb with hb | hb
      · exact ih _ (by omega) b hb
      · rw [List.mem_singleton.1 hb]
        exact (digit_byte (Nat.mod_lt _ (by decide))).1

/-- Printing then reading gives the number back. -/
@[simp] theorem decimal_value_repr (n : ℕ) : decimal_value n.repr = n := by
  induction n using Nat.strong_induction_on with
  | _ n ih =>
    rw [decimal_value]
    rcases Nat.lt_or_ge n 10 with h | h
    · rw [bytes_repr_of_lt h, radix_value, List.map_singleton, (digit_byte h).2]
      simp [numeral]
    · -- all digits but the last are those of `n / 10`
      have hq := ih (n / 10) (by omega)
      rw [decimal_value] at hq
      rw [bytes_repr_of_ge h, radix_value_append_singleton, hq,
        (digit_byte (Nat.mod_lt _ (by decide))).2]
      omega

theorem repr_inj {m n : ℕ} (h : m.repr = n.repr) : m = n := by
  rw [← decimal_value_repr m, h, decimal_value_repr]

theorem bytes_repr_ne_nil (n : ℕ) : bytes n.repr ≠ [] := by
  rw [Ne, bytes_eq_nil]
  exact Nat.repr_ne_empty

theorem repr_head_ne_zero {n : ℕ} (hn : n ≠ 0) : (bytes n.repr).head? ≠ some 0x30 := by
  induction n using Nat.strong_induction_on with
  | _ n ih =>
    rcases Nat.lt_or_ge n 10 with h | h
    · rw [bytes_repr_of_lt h]
      intro heq
      have := congrArg (Option.map digit_value) heq
      rw [List.head?_cons, Option.map_some, (digit_byte h).2] at this
      simp at this
      exact hn this
    · -- the first digit is that of `n / 10`, which is not zero either
      rw [bytes_repr_of_ge h, List.head?_append_of_ne_nil _ (bytes_repr_ne_nil _)]
      exact ih _ (by omega) (by omega)

theorem len_repr_le_iff {n k : ℕ} (hk : 0 < k) : len n.repr ≤ k ↔ n < 10 ^ k := by
  -- Mathlib counts the characters of `repr`; here they have to be counted in bytes, which
  -- is the same as each is a digit
  have hlen : len n.repr = n.repr.length := by
    induction n using Nat.strong_induction_on with
    | _ n ih =>
      rcases Nat.lt_or_ge n 10 with h | h
      · rw [← length_bytes, bytes_repr_of_lt h, Nat.repr_of_lt h]
        simp
      · rw [← length_bytes, bytes_repr_of_ge h, List.length_append, length_bytes,
          ih _ (by omega), Nat.repr_of_ge h]
        simp
  rw [hlen]
  exact Nat.length_repr_le_iff hk

/-- **Canonical strings are printed numbers.** A digit string without a leading
zero is what `to_string` prints for its value. The induction is on the string from
the right, which is how the value grows. -/
theorem eq_repr_of_canonical {s : String} (hne : bytes s ≠ [])
    (hdigits : ∀ b ∈ bytes s, is_ascii_digit b = true)
    (hhead : (bytes s).head? = some 0x30 → bytes s = [0x30]) :
    s = (decimal_value s).repr := by
  have main : ∀ bs : List UInt8, bs ≠ [] → (∀ b ∈ bs, is_ascii_digit b = true) →
      (bs.head? = some 0x30 → bs = [0x30]) → bytes (radix_value 10 bs).repr = bs := by
    intro bs
    induction bs using List.reverseRecOn with
    | nil => intro h; exact absurd rfl h
    | append_singleton bs b ih =>
      intro _ hd hz
      have hb := hd b (by simp)
      have hlt := digit_value_lt_ten hb
      by_cases hnil : bs = []
      · subst hnil
        have hval : radix_value 10 ([] ++ [b]) = digit_value b := by
          simp [radix_value, numeral]
        rw [hval, bytes_repr_of_lt hlt, ← digit_of_value hb]
        rfl
      · rw [List.head?_append_of_ne_nil _ hnil] at hz
        have hz' : bs.head? ≠ some 0x30 := by
          intro h0
          have hl := congrArg List.length (hz h0)
          have hpos := List.length_pos_iff.2 hnil
          simp only [List.length_append, List.length_singleton] at hl
          omega
        have hrec := ih hnil (fun x hx => hd x (by simp [hx])) fun h0 => absurd h0 hz'
        -- the digits before the last spell a positive number, or they would print as `0`
        have hpos : radix_value 10 bs ≠ 0 := by
          intro h0
          rw [h0] at hrec
          apply hz'
          rw [← hrec]
          rfl
        rw [radix_value_append_singleton, bytes_repr_of_ge (by omega)]
        rw [show (10 * radix_value 10 bs + digit_value b) / 10 = radix_value 10 bs by omega,
          show (10 * radix_value 10 bs + digit_value b) % 10 = digit_value b by omega,
          hrec, ← digit_of_value hb]
  exact bytes_inj.1 (main _ hne hdigits hhead).symm

/-! ## Parsing -/

/-- The digits of a number that may carry a `+`. -/
def unsigned_digits (s : String) : List UInt8 :=
  match bytes s with
  | 0x2b :: rest => rest
  | bs => bs

/-- `str::parse` at an unsigned type of `w` bits: an optional `+`, then one or more
decimal digits whose value fits. -/
def parse_uint (w : ℕ) (s : String) : Option ℕ :=
  let ds := unsigned_digits s
  if ds ≠ [] ∧ ds.all is_ascii_digit ∧ radix_value 10 ds < 2 ^ w then some (radix_value 10 ds)
  else none

theorem unsigned_digits_repr (n : ℕ) : unsigned_digits n.repr = bytes n.repr := by
  unfold unsigned_digits
  split
  · next rest h =>
    -- a printed number does not start with a plus sign
    have hplus := digits_repr n 0x2b (by rw [h]; exact List.mem_cons_self ..)
    exact absurd hplus (by decide)
  · rfl

/-- On a printed number the parser returns it when it fits, and an error otherwise. -/
theorem parse_uint_repr (w n : ℕ) :
    parse_uint w n.repr = if n < 2 ^ w then some n else none := by
  have hval : radix_value 10 (bytes n.repr) = n := decimal_value_repr n
  simp only [parse_uint, unsigned_digits_repr, hval]
  by_cases hn : n < 2 ^ w
  · rw [if_pos ⟨bytes_repr_ne_nil n, List.all_eq_true.2 (digits_repr n), hn⟩, if_pos hn]
  · rw [if_neg (by tauto), if_neg hn]

end Rust
