/-
Base58 text, and its form with a checksum: a byte string read as one number and written in
the digits of another radix.

The number does not see the zeros in front, so the change of radix copies them one by one.
`Rebased` is what then holds of the two digit lists, and it is symmetric: zeros and number
decide a digit list (`eq_of_zeros_numeral`), so each side has exactly one partner. That the
text and the bytes determine each other (`decode_eq_some`, `decode_check_eq_some`) is this
and the bijection between digits and characters, and no further arithmetic is used.

`leading_digit` is what can be said of a text before its digits are known. A number between
`a * r ^ k` and `(a + 1) * r ^ k` has `k` digits behind a leading `a`, so all byte strings
of one length with the same first byte may share their first character.
-/
import TxCompiler.Slice

set_option autoImplicit false

namespace Base58

open Rust

/-! ## Change of radix -/

/-- How many zeros a digit list starts with. -/
def zeros : List ℕ → ℕ
  | 0 :: ds => zeros ds + 1
  | _ => 0

/-- The digits in radix `r'` of what `ds` spells in radix `r`, behind the same zeros. -/
def rebase (r r' : ℕ) (ds : List ℕ) : List ℕ :=
  List.replicate (zeros ds) 0 ++ (Nat.digits r' (numeral r ds)).reverse

/-- Two digit lists with the same zeros in front of the same number. -/
structure Rebased (r r' : ℕ) (ds es : List ℕ) : Prop where
  left_lt : ∀ d ∈ ds, d < r
  right_lt : ∀ e ∈ es, e < r'
  zeros_eq : zeros ds = zeros es
  numeral_eq : numeral r ds = numeral r' es

theorem zeros_of_head {ds : List ℕ} (h : ds.head? ≠ some 0) : zeros ds = 0 := by
  unfold zeros
  split
  · simp at h
  · rfl

theorem zeros_replicate_append (k : ℕ) (ds : List ℕ) :
    zeros (List.replicate k 0 ++ ds) = k + zeros ds := by
  induction k with
  | zero => simp
  | succ k ih =>
    rw [List.replicate_succ, List.cons_append, zeros, ih]
    omega

theorem numeral_replicate_append (r k : ℕ) (ds : List ℕ) :
    numeral r (List.replicate k 0 ++ ds) = numeral r ds := by
  induction k with
  | zero => simp
  | succ k ih =>
    rw [List.replicate_succ, List.cons_append, numeral_cons, ih, Nat.zero_mul, Nat.zero_add]

/-- A digit list is its leading zeros and the digits of its number. -/
theorem rebase_self {r : ℕ} (hr : 1 < r) {ds : List ℕ} (h : ∀ d ∈ ds, d < r) :
    rebase r r ds = ds := by
  induction ds using zeros.induct with
  | case1 ds ih =>
    have htl := ih fun d hd => h d (List.mem_cons_of_mem _ hd)
    rw [rebase] at htl
    rw [rebase, zeros, List.replicate_succ, List.cons_append, numeral_cons, Nat.zero_mul,
      Nat.zero_add, htl]
  | case2 ds hhead =>
    have hz : ds.head? ≠ some 0 := by
      intro h0
      obtain ⟨tl, htl⟩ := List.head?_eq_some_iff.1 h0
      exact hhead tl htl
    -- without a zero in front Mathlib's digits are the list itself
    have hdigits := Nat.digits_ofDigits r hr ds.reverse (fun d hd => h d (List.mem_reverse.1 hd))
      (by
        intro hne h0
        rw [List.getLast_reverse] at h0
        exact hz (by rw [List.head?_eq_some_head (by simpa using hne), h0]))
    rw [rebase, zeros_of_head hz, List.replicate_zero, List.nil_append, numeral, hdigits,
      List.reverse_reverse]

/-- **Zeros and number decide the digit list.** -/
theorem eq_of_zeros_numeral {r : ℕ} (hr : 1 < r) {ds es : List ℕ} (hd : ∀ d ∈ ds, d < r)
    (he : ∀ e ∈ es, e < r) (hz : zeros ds = zeros es) (hn : numeral r ds = numeral r es) :
    ds = es := by
  rw [← rebase_self hr hd, ← rebase_self hr he, rebase, rebase, hz, hn]

theorem head_digits_ne_zero (r n : ℕ) : (Nat.digits r n).reverse.head? ≠ some 0 := by
  rw [List.head?_reverse]
  by_cases hn : n = 0
  · rw [hn, Nat.digits_zero]
    simp
  · rw [List.getLast?_eq_some_getLast (Nat.digits_ne_nil_iff_ne_zero.2 hn)]
    intro h0
    exact Nat.getLast_digit_ne_zero r hn (Option.some.inj h0)

section

variable {r r' : ℕ} {ds es fs : List ℕ}

/-- Every digit list has a partner. -/
theorem rebased_rebase (hr : 1 < r') (h : ∀ d ∈ ds, d < r) :
    Rebased r r' ds (rebase r r' ds) where
  left_lt := h
  right_lt := by
    intro e he
    rcases List.mem_append.1 he with he | he
    · rw [List.eq_of_mem_replicate he]
      omega
    · exact Nat.digits_lt_base hr (List.mem_reverse.1 he)
  zeros_eq := by
    rw [rebase, zeros_replicate_append, zeros_of_head (head_digits_ne_zero _ _), Nat.add_zero]
  numeral_eq := by
    rw [rebase, numeral_replicate_append, numeral, numeral, List.reverse_reverse,
      Nat.ofDigits_digits]

theorem Rebased.symm (h : Rebased r r' ds es) : Rebased r' r es ds :=
  ⟨h.right_lt, h.left_lt, h.zeros_eq.symm, h.numeral_eq.symm⟩

/-- And no other. -/
theorem Rebased.unique (hr : 1 < r') (h1 : Rebased r r' ds es) (h2 : Rebased r r' ds fs) :
    es = fs :=
  eq_of_zeros_numeral hr h1.right_lt h2.right_lt (h1.zeros_eq.symm.trans h2.zeros_eq)
    (h1.numeral_eq.symm.trans h2.numeral_eq)

/-- **The leading digit.** A number in `[a * r ^ k, (a + 1) * r ^ k)` is spelt by `a` and `k`
more digits. -/
theorem leading_digit {d a k : ℕ} (hr : 1 < r) (hd : d ≠ 0) (h : ∀ e ∈ d :: ds, e < r)
    (ha : 0 < a) (har : a < r) (hlo : a * r ^ k ≤ numeral r (d :: ds))
    (hhi : numeral r (d :: ds) < (a + 1) * r ^ k) : d = a ∧ ds.length = k := by
  have hrest := numeral_lt hr fun e he => h e (List.mem_cons_of_mem _ he)
  have hdr := h d (List.mem_cons_self ..)
  rw [numeral_cons] at hlo hhi
  -- the number lies in the interval of its own leading digit as well
  have hlo' : r ^ ds.length ≤ d * r ^ ds.length := Nat.le_mul_of_pos_left _ (Nat.pos_of_ne_zero hd)
  have hhi' : d * r ^ ds.length + numeral r ds < r ^ (ds.length + 1) := by
    calc d * r ^ ds.length + numeral r ds < (d + 1) * r ^ ds.length := by
          rw [Nat.add_mul, Nat.one_mul]
          omega
      _ ≤ r * r ^ ds.length := Nat.mul_le_mul_right _ hdr
      _ = r ^ (ds.length + 1) := (pow_succ' r _).symm
  have hlen : ds.length = k := by
    rcases Nat.lt_trichotomy ds.length k with hlt | heq | hgt
    · exfalso
      have hpow : r ^ (ds.length + 1) ≤ r ^ k := Nat.pow_le_pow_right (by omega) hlt
      have hmul : r ^ k ≤ a * r ^ k := Nat.le_mul_of_pos_left _ ha
      omega
    · exact heq
    · exfalso
      have hpow : r ^ (k + 1) ≤ r ^ ds.length := Nat.pow_le_pow_right (by omega) hgt
      have hmul : (a + 1) * r ^ k ≤ r * r ^ k := Nat.mul_le_mul_right _ har
      rw [pow_succ'] at hpow
      omega
  subst hlen
  refine ⟨?_, rfl⟩
  -- two multiples of the same power around one number
  have h1 : a < d + 1 := by
    apply Nat.lt_of_mul_lt_mul_right (a := r ^ ds.length)
    rw [Nat.add_mul, Nat.one_mul]
    omega
  have h2 : d < a + 1 := by
    apply Nat.lt_of_mul_lt_mul_right (a := r ^ ds.length)
    omega
  omega

theorem Rebased.leading {a k : ℕ} (h : Rebased r r' ds es) (hr : 1 < r') (hz : zeros ds = 0)
    (ha : 0 < a) (har : a < r') (hlo : a * r' ^ k ≤ numeral r ds)
    (hhi : numeral r ds < (a + 1) * r' ^ k) : ∃ tl, es = a :: tl ∧ tl.length = k := by
  rw [h.numeral_eq] at hlo hhi
  rw [h.zeros_eq] at hz
  cases es with
  | nil =>
    have hpos : 0 < a * r' ^ k := Nat.mul_pos ha (Nat.pow_pos (by omega))
    rw [numeral_nil] at hlo
    omega
  | cons e tl =>
    have he : e ≠ 0 := by
      rintro rfl
      simp [zeros] at hz
    obtain ⟨rfl, hlen⟩ := leading_digit hr he h.right_lt ha har hlo hhi
    exact ⟨tl, rfl, hlen⟩

end

/-! ## The text -/

/-- The digits of Bitcoin: no zero, no capital `O` or `I`, no small `l`. -/
def alphabet : List Char := "123456789ABCDEFGHJKLMNPQRSTUVWXYZabcdefghijkmnopqrstuvwxyz".toList

def digit (c : Char) : Option ℕ := alphabet.idxOf? c

def char (d : ℕ) : Char := alphabet.getD d '1'

/-- The bytes a text spells; `none` on a character outside the alphabet. -/
def decode (s : String) : Option (List UInt8) :=
  (s.toList.mapM digit).map fun ds => (rebase 58 256 ds).map UInt8.ofNat

/-- Bytes in base 58, a leading zero as a `1`. -/
def encode (bs : List UInt8) : String :=
  String.ofList ((rebase 256 58 (bs.map UInt8.toNat)).map char)

theorem length_alphabet : alphabet.length = 58 := by decide

theorem digit_char {d : ℕ} (h : d < 58) : digit (char d) = some d := by
  have hall : ∀ d : Fin 58, digit (char d.val) = some d.val := by decide
  exact hall ⟨d, h⟩

theorem char_lt {d : ℕ} (h : d < 58) : (char d).val.toNat < 128 := by
  have hall : ∀ d : Fin 58, (char d.val).val.toNat < 128 := by decide
  exact hall ⟨d, h⟩

theorem digit_eq_some {c : Char} {d : ℕ} : digit c = some d ↔ d < 58 ∧ c = char d := by
  constructor
  · intro h
    obtain ⟨hlt, hget, -⟩ := List.idxOf?_eq_some_iff.1 h
    exact ⟨lt_of_lt_of_eq hlt length_alphabet, by rw [char, List.getD_eq_getElem _ _ hlt, hget]⟩
  · rintro ⟨hlt, rfl⟩
    exact digit_char hlt

/-- The digits of a text, and the text of its digits. -/
theorem digits_eq_some {cs : List Char} {ds : List ℕ} :
    cs.mapM digit = some ds ↔ (∀ d ∈ ds, d < 58) ∧ cs = ds.map char := by
  induction cs generalizing ds with
  | nil =>
    cases ds <;> simp
  | cons c cs ih =>
    simp only [List.mapM_cons, Option.bind_eq_bind, Option.bind_eq_some_iff, digit_eq_some, ih]
    constructor
    · rintro ⟨d, ⟨hd, rfl⟩, es, ⟨hes, rfl⟩, heq⟩
      obtain rfl := Option.some.inj heq
      exact ⟨List.forall_mem_cons.2 ⟨hd, hes⟩, rfl⟩
    · rintro ⟨hds, heq⟩
      cases ds with
      | nil => simp at heq
      | cons d es =>
        obtain ⟨hd, hes⟩ := List.forall_mem_cons.1 hds
        obtain ⟨hc, hcs⟩ := List.cons.inj heq
        exact ⟨d, ⟨hd, hc⟩, es, ⟨hes, hcs⟩, rfl⟩

theorem map_ofNat_eq_iff {ds : List ℕ} {bs : List UInt8} (h : ∀ d ∈ ds, d < 256) :
    ds.map UInt8.ofNat = bs ↔ ds = bs.map UInt8.toNat := by
  constructor
  · rintro rfl
    rw [List.map_map]
    refine (List.map_id ds).symm.trans (List.map_congr_left fun d hd => ?_)
    exact (UInt8.toNat_ofNat_of_lt' (h d hd)).symm
  · rintro rfl
    rw [List.map_map]
    exact List.map_id'' (fun b => UInt8.ofNat_toNat) bs

theorem encode_rebased (bs : List UInt8) :
    ∃ ds, encode bs = String.ofList (ds.map char) ∧ Rebased 256 58 (bs.map UInt8.toNat) ds :=
  ⟨_, rfl, rebased_rebase (by decide) (byte_digits_lt bs)⟩

/-- **A text decodes to the bytes that encode to it**, and to no others. -/
theorem decode_eq_some {s : String} {bs : List UInt8} : decode s = some bs ↔ s = encode bs := by
  obtain ⟨es, hes, hre⟩ := encode_rebased bs
  rw [decode, Option.map_eq_some_iff, hes]
  constructor
  · rintro ⟨ds, hds, hbs⟩
    obtain ⟨hlt, htext⟩ := digits_eq_some.1 hds
    have hback := @rebased_rebase 58 256 ds (by decide) hlt
    rw [map_ofNat_eq_iff hback.right_lt] at hbs
    rw [hbs] at hback
    rw [hre.unique (by decide) hback.symm, ← htext, String.ofList_toList]
  · rintro rfl
    refine ⟨es, digits_eq_some.2 ⟨hre.right_lt, String.toList_ofList⟩, ?_⟩
    have hback := @rebased_rebase 58 256 es (by decide) hre.right_lt
    rw [map_ofNat_eq_iff hback.right_lt]
    exact hback.unique (by decide) hre.symm

/-- The first character is decided by the interval the number lies in. -/
theorem encode_of_range {bs : List UInt8} {a k : ℕ} (hhead : bs.head? ≠ some 0) (ha : 0 < a)
    (ha58 : a < 58) (hlo : a * 58 ^ k ≤ be_value bs) (hhi : be_value bs < (a + 1) * 58 ^ k) :
    ∃ cs, encode bs = String.ofList (char a :: cs) ∧ cs.length = k := by
  obtain ⟨ds, hds, hre⟩ := encode_rebased bs
  have hz : zeros (bs.map UInt8.toNat) = 0 := by
    apply zeros_of_head
    rw [List.head?_map, Ne, Option.map_eq_some_iff]
    rintro ⟨b, hb, h0⟩
    obtain rfl : b = 0 := UInt8.toNat_inj.1 h0
    exact hhead hb
  obtain ⟨tl, rfl, hlen⟩ := hre.leading (by decide) hz ha ha58 hlo hhi
  exact ⟨tl.map char, by rw [hds, List.map_cons], by rw [List.length_map, hlen]⟩

theorem encode_ascii (bs : List UInt8) : ∀ c ∈ (encode bs).toList, c.val.toNat < 128 := by
  obtain ⟨ds, hds, hre⟩ := encode_rebased bs
  rw [hds, String.toList_ofList]
  intro c hc
  obtain ⟨d, hd, rfl⟩ := List.mem_map.1 hc
  exact char_lt (hre.right_lt d hd)

/-! ## The checksum -/

/-- A text with a checksum of four bytes behind its payload. -/
def decode_check (sum : List UInt8 → FixedBytes 4) (s : String) : Option (List UInt8) :=
  (decode s).bind fun bs =>
    let payload := bs.take (bs.length - 4)
    if 4 ≤ bs.length ∧ bs.drop (bs.length - 4) = (sum payload).val then some payload else none

/-- With four bytes of a checksum behind the payload. -/
def encode_check (sum : List UInt8 → FixedBytes 4) (payload : List UInt8) : String :=
  encode (payload ++ (sum payload).val)

theorem decode_check_eq_some {sum : List UInt8 → FixedBytes 4} {s : String}
    {payload : List UInt8} :
    decode_check sum s = some payload ↔ s = encode_check sum payload := by
  rw [decode_check, Option.bind_eq_some_iff]
  simp only [decode_eq_some]
  have hlen := (sum payload).property
  constructor
  · rintro ⟨bs, rfl, h⟩
    split at h
    · next hsum =>
      have hp := Option.some.inj h
      rw [hp] at hsum
      rw [encode_check, ← hsum.2, ← hp, List.take_append_drop]
    · simp at h
  · rintro rfl
    have htake : (payload ++ (sum payload).val).length - 4 = payload.length := by
      rw [List.length_append, hlen]
      omega
    refine ⟨_, rfl, ?_⟩
    rw [htake, List.take_left, List.drop_left, if_pos]
    rw [List.length_append, hlen]
    exact ⟨Nat.le_add_left .., rfl⟩

end Base58
