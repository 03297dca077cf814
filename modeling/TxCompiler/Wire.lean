/-
The protobuf wire format: base-128 varints, and messages as sequences of entries,
each a key (field number and wire type) followed by a varint or by a
length-delimited byte string.

`serialise` writes a list of entries and `parse` is a generic reader that knows
nothing of any message: it is given the bytes only. `parse_serialise` says that
reading undoes writing, for entries of every size: a varint is never a proper prefix
of another (`read_varint_append`), so the reader always finds the end of a key or a
length where the writer put it, whatever the payload bytes look like. Uniqueness of
the encoding (`serialise_inj`) is a corollary.
-/
import TxCompiler.Numeral

set_option autoImplicit false

namespace Wire

/-! ## Varints -/

/-- The base-128 encoding of `n`, low group first, continuation bit on every byte but
the last. -/
def varint (n : ℕ) : List UInt8 :=
  if n < 128 then [UInt8.ofNat n] else UInt8.ofNat (n % 128 + 128) :: varint (n / 128)

/-- Read one varint and return the bytes behind it. -/
def read_varint : List UInt8 → Option (ℕ × List UInt8)
  | [] => none
  | b :: rest =>
    if b.toNat < 128 then some (b.toNat, rest)
    else (read_varint rest).map fun (v, tl) => (b.toNat - 128 + 128 * v, tl)

theorem varint_of_lt {n : ℕ} (h : n < 128) : varint n = [UInt8.ofNat n] := by
  rw [varint, if_pos h]

theorem varint_of_ge {n : ℕ} (h : 128 ≤ n) :
    varint n = UInt8.ofNat (n % 128 + 128) :: varint (n / 128) := by
  rw [varint, if_neg (by omega)]

/-- The reader stops exactly where the writer stopped, whatever follows. -/
theorem read_varint_append (n : ℕ) (rest : List UInt8) :
    read_varint (varint n ++ rest) = some (n, rest) := by
  induction n using Nat.strong_induction_on with
  | _ n ih =>
    rcases Nat.lt_or_ge n 128 with h | h
    · -- the last group, without the continuation bit
      have hb : (UInt8.ofNat n).toNat = n := by rw [UInt8.toNat_ofNat']; omega
      rw [varint_of_lt h, List.singleton_append, read_varint, hb, if_pos h]
    · -- `128` is the continuation bit; the reader takes it off and puts the groups above
      -- back, and `n = n % 128 + 128 * (n / 128)`
      have hb : (UInt8.ofNat (n % 128 + 128)).toNat = n % 128 + 128 := by
        rw [UInt8.toNat_ofNat']; omega
      rw [varint_of_ge h, List.cons_append, read_varint, hb, if_neg (by omega),
        ih (n / 128) (by omega)]
      simp only [Option.map_some, Option.some.injEq, Prod.mk.injEq, and_true]
      omega

theorem varint_ne_nil (n : ℕ) : varint n ≠ [] := by
  rcases Nat.lt_or_ge n 128 with h | h
  · rw [varint_of_lt h]; simp
  · rw [varint_of_ge h]; simp

/-- A varint takes one byte for every seven bits. -/
theorem length_varint_le {n k : ℕ} (h : n < 128 ^ (k + 1)) : (varint n).length ≤ k + 1 := by
  induction k generalizing n with
  | zero =>
    rw [varint_of_lt (by simpa using h)]
    simp
  | succ k ih =>
    rcases Nat.lt_or_ge n 128 with h' | h'
    · rw [varint_of_lt h']
      simp
    · -- dropping the lowest group divides the bound by 128
      have hdiv : n / 128 < 128 ^ (k + 1) := by
        rw [Nat.div_lt_iff_lt_mul (by decide), ← pow_succ]
        exact h
      rw [varint_of_ge h', List.length_cons]
      exact Nat.succ_le_succ (ih hdiv)

/-- Dropping the lowest group drops seven bits. -/
theorem size_of_ge {n : ℕ} (h : 128 ≤ n) : Nat.size n = Nat.size (n / 128) + 7 := by
  apply le_antisymm
  · rw [Nat.size_le, pow_add]
    have := Nat.lt_size_self (n / 128)
    omega
  · -- the highest bit of the quotient is seven places higher in `n`
    have hpos : 0 < Nat.size (n / 128) := Nat.size_pos.2 (by omega)
    obtain ⟨t, ht⟩ : ∃ t, Nat.size (n / 128) = t + 1 := ⟨_, (Nat.succ_pred_eq_of_pos hpos).symm⟩
    have hle : 2 ^ t ≤ n / 128 := Nat.lt_size.1 (by omega)
    have hlt : t + 7 < Nat.size n := by
      rw [Nat.lt_size, pow_add]
      omega
    omega

/-- The exact length: the number of bits over seven, rounded up, and one byte for `0`. -/
theorem length_varint (n : ℕ) : (varint n).length = max 1 (Nat.size n ⌈/⌉ 7) := by
  induction n using Nat.strong_induction_on with
  | _ n ih =>
    rcases Nat.lt_or_ge n 128 with h | h
    · have hsize : Nat.size n ≤ 7 := Nat.size_le.2 h
      rw [varint_of_lt h, List.length_singleton, Nat.ceilDiv_eq_add_pred_div]
      omega
    · have hpos : 0 < Nat.size (n / 128) := Nat.size_pos.2 (by omega)
      have hrest := ih (n / 128) (by omega)
      rw [Nat.ceilDiv_eq_add_pred_div] at hrest ⊢
      rw [varint_of_ge h, List.length_cons, hrest, size_of_ge h]
      omega

/-- The form is the shortest: continuation bytes, and a last byte that is zero for `0` only. -/
theorem varint_canonical (n : ℕ) : ∃ init last, varint n = init ++ [last] ∧
    (∀ b ∈ init, 128 ≤ b.toNat) ∧ last.toNat < 128 ∧ (last.toNat = 0 → n = 0) := by
  induction n using Nat.strong_induction_on with
  | _ n ih =>
    rcases Nat.lt_or_ge n 128 with h | h
    · have hb : (UInt8.ofNat n).toNat = n := by
        rw [UInt8.toNat_ofNat']
        omega
      refine ⟨[], UInt8.ofNat n, by rw [varint_of_lt h]; rfl, by simp, ?_, ?_⟩ <;> rw [hb]
      · exact h
      · exact id
    · -- the last byte is that of `n / 128`, which is not zero either
      obtain ⟨init, last, heq, hinit, hlast, hzero⟩ := ih (n / 128) (by omega)
      have hb : (UInt8.ofNat (n % 128 + 128)).toNat = n % 128 + 128 := by
        rw [UInt8.toNat_ofNat']
        omega
      refine ⟨UInt8.ofNat (n % 128 + 128) :: init, last, ?_, ?_, hlast, ?_⟩
      · rw [varint_of_ge h, heq, List.cons_append]
      · intro b hmem
        rcases List.mem_cons.1 hmem with rfl | hmem
        · omega
        · exact hinit b hmem
      · intro h0
        have := hzero h0
        omega

/-- No varint is a proper prefix of another. -/
theorem eq_of_varint_prefix {m n : ℕ} (h : varint m <+: varint n) : m = n := by
  obtain ⟨rest, hrest⟩ := h
  have hm := read_varint_append m rest
  have hn := read_varint_append n []
  rw [List.append_nil, ← hrest, hm] at hn
  exact congrArg Prod.fst (Option.some.inj hn)

/-! ## Entries -/

/-- What an entry carries: wire type 0 or wire type 2. -/
inductive Payload where
  | varint (n : ℕ)
  | len (bs : List UInt8)
  deriving DecidableEq, Repr

/-- One field occurrence of a message. -/
structure Entry where
  number : ℕ
  payload : Payload
  deriving DecidableEq, Repr

/-- The payload fits the format: field numbers below `2^29`, 64-bit values and lengths. -/
def Entry.Wf (e : Entry) : Prop :=
  0 < e.number ∧ e.number < 2 ^ 29 ∧
    match e.payload with
    | .varint n => n < 2 ^ 64
    | .len bs => bs.length < 2 ^ 64

/-- The bytes of one entry: `number << 3 | wire type`, then the payload. -/
def Entry.write (e : Entry) : List UInt8 :=
  match e.payload with
  | .varint n => varint (e.number * 8) ++ varint n
  | .len bs => varint (e.number * 8 + 2) ++ varint bs.length ++ bs

/-- The bytes of a message. -/
def serialise (es : List Entry) : List UInt8 := es.flatMap Entry.write

/-- A varint that fits 64 bits. -/
def read_u64 (bs : List UInt8) : Option (ℕ × List UInt8) :=
  (read_varint bs).filter fun (v, _) => v < 2 ^ 64

/-- Read one entry and return the bytes behind it. -/
def read_entry (bs : List UInt8) : Option (Entry × List UInt8) :=
  match read_u64 bs with
  | none => none
  | some (key, rest) =>
    if key / 8 = 0 then none
    else match key % 8 with
      | 0 => (read_u64 rest).map fun (v, tl) => (⟨key / 8, .varint v⟩, tl)
      | 2 => (read_u64 rest).bind fun (n, tl) =>
          if n ≤ tl.length then some (⟨key / 8, .len (tl.take n)⟩, tl.drop n) else none
      | _ => none

/-- Read entries until the input is used up; at most `fuel` of them. -/
def parse_fuel : ℕ → List UInt8 → Option (List Entry)
  | _, [] => some []
  | 0, _ :: _ => none
  | fuel + 1, b :: bs =>
    match read_entry (b :: bs) with
    | none => none
    | some (e, rest) => (parse_fuel fuel rest).map (e :: ·)

/-- The entries of a message. Every entry takes at least one byte, so its length is
fuel enough. -/
def parse (bs : List UInt8) : Option (List Entry) := parse_fuel bs.length bs

/-! ## Reading undoes writing -/

theorem read_u64_append {n : ℕ} (h : n < 2 ^ 64) (rest : List UInt8) :
    read_u64 (varint n ++ rest) = some (n, rest) := by
  rw [read_u64, read_varint_append, Option.filter_some, if_pos (by simpa using h)]

theorem read_entry_append {e : Entry} (h : e.Wf) (rest : List UInt8) :
    read_entry (e.write ++ rest) = some (e, rest) := by
  obtain ⟨number, payload⟩ := e
  obtain ⟨hpos, hlt, hpay⟩ := h
  dsimp only at hpos hlt hpay
  cases payload with
  | varint n =>
    simp only [Entry.write, List.append_assoc, read_entry]
    rw [read_u64_append (by omega)]
    simp only [Nat.mul_div_cancel number (show 0 < 8 by decide), Nat.mul_mod_left,
      Nat.ne_of_gt hpos, if_false]
    rw [read_u64_append hpay]
    rfl
  | len bs =>
    -- the wire type sits in the three bits below the field number
    have hdiv : (number * 8 + 2) / 8 = number := by omega
    have hmod : (number * 8 + 2) % 8 = 2 := by omega
    simp only [Entry.write, List.append_assoc, read_entry]
    rw [read_u64_append (by omega)]
    simp only [hdiv, hmod, Nat.ne_of_gt hpos, if_false]
    rw [read_u64_append hpay]
    simp

/-- A field is its key and its payload; a key below `128 ^ (k + 1)` takes `k + 1` bytes. -/
theorem length_write_varint_le {number n k j : ℕ} (hnumber : number * 8 < 128 ^ (k + 1))
    (hn : n < 128 ^ (j + 1)) :
    (Entry.mk number (.varint n)).write.length ≤ (k + 1) + (j + 1) := by
  have h1 := length_varint_le hnumber
  have h2 := length_varint_le hn
  simp only [Entry.write, List.length_append]
  omega

/-- The same for bytes, which come behind their length. -/
theorem length_write_len_le {number n k j : ℕ} {bs : List UInt8}
    (hnumber : number * 8 + 2 < 128 ^ (k + 1)) (hlen : bs.length ≤ n) (hn : n < 128 ^ (j + 1)) :
    (Entry.mk number (.len bs)).write.length ≤ (k + 1) + (j + 1) + n := by
  have h1 := length_varint_le hnumber
  have h2 := length_varint_le (lt_of_le_of_lt hlen hn)
  simp only [Entry.write, List.length_append]
  omega

theorem length_write_pos (e : Entry) : 0 < e.write.length := by
  have h := fun n => List.length_pos_iff.2 (varint_ne_nil n)
  obtain ⟨number, payload⟩ := e
  cases payload with
  | varint n =>
    have := h (number * 8)
    simp only [Entry.write, List.length_append]
    omega
  | len bs =>
    have := h (number * 8 + 2)
    simp only [Entry.write, List.length_append]
    omega

theorem parse_fuel_serialise {es : List Entry} (h : ∀ e ∈ es, e.Wf) {fuel : ℕ}
    (hfuel : (serialise es).length ≤ fuel) : parse_fuel fuel (serialise es) = some es := by
  induction es generalizing fuel with
  | nil => simp [serialise, parse_fuel]
  | cons e es ih =>
    have hpos := length_write_pos e
    rw [serialise, List.flatMap_cons] at hfuel ⊢
    rw [← serialise] at hfuel ⊢
    simp only [List.length_append] at hfuel
    -- an entry is not empty, so it pays for the unit of fuel spent on it
    obtain ⟨fuel, rfl⟩ : ∃ k, fuel = k + 1 := ⟨fuel - 1, by omega⟩
    have hread := read_entry_append (h e (List.mem_cons_self ..)) (serialise es)
    -- the parser looks at the first byte before it reads the entry
    cases hw : e.write ++ serialise es with
    | nil =>
      have := congrArg List.length hw
      simp only [List.length_append, List.length_nil] at this
      omega
    | cons b bs =>
      rw [hw] at hread
      rw [parse_fuel, hread]
      simp only
      rw [ih (fun x hx => h x (List.mem_cons_of_mem _ hx)) (by omega), Option.map_some]

/-- **Reading undoes writing**, for well-formed entries of every size. -/
theorem parse_serialise {es : List Entry} (h : ∀ e ∈ es, e.Wf) :
    parse (serialise es) = some es :=
  parse_fuel_serialise h le_rfl

theorem serialise_inj {es fs : List Entry} (he : ∀ e ∈ es, e.Wf) (hf : ∀ e ∈ fs, e.Wf)
    (h : serialise es = serialise fs) : es = fs := by
  have hp := parse_serialise he
  rw [h, parse_serialise hf] at hp
  exact (Option.some.inj hp).symm

/-- A message has the given field. -/
def Field (bs : List UInt8) (number : ℕ) (payload : Payload) : Prop :=
  ∃ es, parse bs = some es ∧ ⟨number, payload⟩ ∈ es

/-- The fields of a message are the entries it was written from. -/
theorem field_of_parse {bs : List UInt8} {es : List Entry} (h : parse bs = some es) {number : ℕ}
    {payload : Payload} : Field bs number payload ↔ ⟨number, payload⟩ ∈ es := by
  constructor
  · rintro ⟨es', h', hmem⟩
    rw [h] at h'
    rw [Option.some.inj h']
    exact hmem
  · exact fun hmem => ⟨es, h, hmem⟩

@[simp] theorem serialise_nil : serialise [] = [] := rfl

theorem serialise_cons (e : Entry) (es : List Entry) :
    serialise (e :: es) = e.write ++ serialise es := rfl

theorem serialise_append (es fs : List Entry) :
    serialise (es ++ fs) = serialise es ++ serialise fs := by
  rw [serialise, List.flatMap_append, serialise, serialise]

end Wire
