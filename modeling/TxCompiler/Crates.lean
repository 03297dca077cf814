/-
The third-party code the compiler calls, as a parameter: `hex`, `bs58`, `sha2`, the
parts of `alloy` it uses and the system clock.

None of it is in this repository, so none of it is defined here: `Crates` holds one
function for each call, and every modelled function that makes such a call takes a
`Crates`. What the documentation of those crates promises is stated as six separate
hypotheses, and a theorem assumes those it rests on and no others. `HexLaws` is the
whole of `hex::decode` and `hex::encode`, and `Bs58Laws` of `bs58` with a checksum, over
any hash function; `AddressLaws` covers the strings of the `0x` form only; `U256Laws`
covers the canonical decimals and the hexadecimal words, and `U256DigitLaws` the reading
of a decimal digit by digit; `SigningLaws` is the layout of the two signing pre-images.
-/
import TxCompiler.Base58
import TxCompiler.Rlp
import TxCompiler.Types

set_option autoImplicit false

namespace TxCompiler

open Rust

/-! ## The types of `alloy` -/

abbrev U128 := BitVec 128

abbrev U256 := BitVec 256

abbrev Address := FixedBytes 20

abbrev B256 := FixedBytes 32

/-- What a transaction is sent to: nothing, when it creates a contract, or an address. -/
inductive TxKind where
  | Create
  | Call (a : Address)
  deriving DecidableEq

abbrev AccessList := List (Address × List B256)

/-- The struct the encoder of EIP-1559 is given. -/
structure TxEip1559 where
  chain_id : UInt64
  nonce : UInt64
  gas_limit : UInt64
  max_fee_per_gas : U128
  max_priority_fee_per_gas : U128
  «to» : TxKind
  value : U256
  access_list : AccessList
  input : List UInt8
  deriving DecidableEq

/-- The struct the legacy encoder is given; with a chain id it signs as EIP-155 says. -/
structure TxLegacy where
  chain_id : Option UInt64
  nonce : UInt64
  gas_price : U128
  gas_limit : UInt64
  «to» : TxKind
  value : U256
  input : List UInt8
  deriving DecidableEq

/-- `U256::saturating_mul`. -/
def U256.saturating_mul (a b : U256) : U256 :=
  if a.toNat * b.toNat < 2 ^ 256 then BitVec.ofNat 256 (a.toNat * b.toNat)
  else BitVec.ofNat 256 (2 ^ 256 - 1)

/-! ## The calls -/

structure Crates where
  /-- `hex::decode` -/
  hex_decode : String → Option (List UInt8)
  /-- `hex::encode` -/
  hex_encode : List UInt8 → String
  /-- `bs58::decode(s).with_check(None).into_vec()` -/
  bs58_decode_check : String → Option (List UInt8)
  /-- `Sha256::digest` -/
  sha256 : List UInt8 → B256
  /-- `str::parse::<Address>` -/
  address_from_str : String → Option Address
  /-- `U256::from_str_radix` -/
  u256_from_str_radix : String → ℕ → Option U256
  /-- `SignableTransaction::encode_for_signing`, at the two envelopes -/
  eip1559_encode_for_signing : TxEip1559 → List UInt8
  legacy_encode_for_signing : TxLegacy → List UInt8
  /-- `SignableTransaction::signature_hash`, at the two envelopes -/
  eip1559_signature_hash : TxEip1559 → B256
  legacy_signature_hash : TxLegacy → B256
  /-- milliseconds since the epoch; `none` when the clock is set before it -/
  system_time : Option ℕ

/-! ## What is documented of them -/

/-- `hex`: strict decoding in either letter case, encoding in lower case. -/
structure HexLaws (cr : Crates) : Prop where
  decode : ∀ s, cr.hex_decode s = Hex.decode (bytes s)
  encode : ∀ bs, cr.hex_encode bs = Hex.encode bs

/-- The first four bytes of the digest of the digest. -/
def Crates.checksum (cr : Crates) (payload : List UInt8) : FixedBytes 4 :=
  ⟨(cr.sha256 (cr.sha256 payload).val).val.take 4, by
    rw [List.length_take, (cr.sha256 _).property]
    rfl⟩

/-- `bs58`: the alphabet of Bitcoin, and a checksum of double SHA-256 at the end. -/
structure Bs58Laws (cr : Crates) : Prop where
  decode_check : ∀ s, cr.bs58_decode_check s = Base58.decode_check cr.checksum s

/-- `alloy`: `0x` and forty hexadecimal digits are the address with those bytes. -/
structure AddressLaws (cr : Crates) : Prop where
  from_str : ∀ (s : String) (ds : List UInt8) (a : Address), bytes s = bytes "0x" ++ ds →
    Hex.decode ds = some a.val → cr.address_from_str s = some a

/-- `ruint`: a canonical decimal is its value or an overflow error, and a word of up
to sixty-four hexadecimal digits is its value. -/
structure U256Laws (cr : Crates) : Prop where
  decimal : ∀ n : ℕ, cr.u256_from_str_radix n.repr 10
    = if n < 2 ^ 256 then some (BitVec.ofNat 256 n) else none
  hex : ∀ s : String, bytes s ≠ [] → len s ≤ 64 → (∀ b ∈ bytes s, is_ascii_hexdigit b = true) →
    cr.u256_from_str_radix s 16 = some (BitVec.ofNat 256 (radix_value 16 (bytes s)))

/-- `ruint`: decimal digits are taken from the first on, and the one with which the number
leaves 256 bits is an overflow error. -/
structure U256DigitLaws (cr : Crates) : Prop where
  decimal : ∀ s : String, bytes s ≠ [] → (∀ b ∈ bytes s, is_ascii_digit b = true) →
    cr.u256_from_str_radix s 10
      = (checked_numeral 10 (2 ^ 256) 0 ((bytes s).map digit_value)).map (BitVec.ofNat 256)

/-- **The 256-bit parser is exact.** The digits are taken one by one, and the accumulator
leaves the range as soon as the number does. -/
theorem U256DigitLaws.repr {cr : Crates} (hcr : U256DigitLaws cr) (n : ℕ) :
    cr.u256_from_str_radix n.repr 10
      = if n < 2 ^ 256 then some (BitVec.ofNat 256 n) else none := by
  have hvalue : numeral 10 ((bytes n.repr).map digit_value) = n := decimal_value_repr n
  rw [hcr.decimal _ (bytes_repr_ne_nil n) (digits_repr n),
    checked_numeral_eq (by decide) _ (by norm_num), hvalue, Nat.zero_mul, Nat.zero_add]
  by_cases hn : n < 2 ^ 256
  · rw [if_pos hn, if_pos hn, Option.map_some]
  · rw [if_neg hn, if_neg hn, Option.map_none]

/-- No address is the empty string. -/
def TxKind.rlp : TxKind → Rlp.Item
  | .Create => .bytes []
  | .Call a => .bytes a.val

def AccessList.rlp (al : AccessList) : Rlp.Item :=
  .list (al.map fun (address, keys) =>
    .list [.bytes address.val, .list (keys.map fun key => .bytes key.val)])

/-- The EIP-1559 list. -/
def TxEip1559.rlp (tx : TxEip1559) : Rlp.Item :=
  .list [Rlp.uint tx.chain_id.toNat, Rlp.uint tx.nonce.toNat,
    Rlp.uint tx.max_priority_fee_per_gas.toNat, Rlp.uint tx.max_fee_per_gas.toNat,
    Rlp.uint tx.gas_limit.toNat, tx.«to».rlp, Rlp.uint tx.value.toNat, .bytes tx.input,
    tx.access_list.rlp]

/-- The legacy list, with the chain id and two zeros behind it where EIP-155 applies. -/
def TxLegacy.rlp (tx : TxLegacy) : Rlp.Item :=
  .list ([Rlp.uint tx.nonce.toNat, Rlp.uint tx.gas_price.toNat, Rlp.uint tx.gas_limit.toNat,
    tx.«to».rlp, Rlp.uint tx.value.toNat, .bytes tx.input] ++
      match tx.chain_id with
      | some id => [Rlp.uint id.toNat, Rlp.uint 0, Rlp.uint 0]
      | none => [])

/-- `alloy`: the two signing pre-images. -/
structure SigningLaws (cr : Crates) : Prop where
  eip1559 : ∀ tx, cr.eip1559_encode_for_signing tx = 0x02 :: Rlp.encode tx.rlp
  legacy : ∀ tx, cr.legacy_encode_for_signing tx = Rlp.encode tx.rlp

end TxCompiler
