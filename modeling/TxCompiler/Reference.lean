/-
One concrete `Crates`, and the laws for it: nothing the development assumes of the
third-party code is contradictory, and its theorems can be run.

Hexadecimal text, addresses, numerals and pre-images are computed. The two hash functions
are tables of digests, of the artefacts the samples below compile to; base58check text is
not decoded. The samples are payloads of the shapes the repository pins in its fixtures.
-/
import TxCompiler.Validate

set_option autoImplicit false

namespace TxCompiler

open Rust Json

/-- A digest out of a table of hexadecimal texts. -/
def lookup_digest (table : List (String × String)) (bs : List UInt8) : B256 :=
  let digest := (table.find? fun entry => entry.1 == Hex.encode bs).bind fun entry =>
    Hex.decode (bytes entry.2)
  if h : (digest.getD []).length = 32 then ⟨digest.getD [], h⟩ else zeroed 32

/-- The records of the Tron samples, at their clocks. -/
def sha256_digests : List (String × String) :=
  [("0a0204b22208a1b2c3d4e5f6a7b840e08edeb0e2315a68080112640a2d747970652e676f6f676c65617069732e636f6d2f70726f746f636f6c2e5472616e73666572436f6e747261637412330a1541d8da6bf26964af9d7eed9e03e53415d37aa96045121541000000000000000000000000000000000000000118c096b10270e0ecc89fe231",
      "86ef73c259d92e069e47df76e1f65ccc8ad63cfe6d922a3f39202f9a3c187659"),
    ("0a0204b22208a1b2c3d4e5f6a7b840e08edeb0e2315a6e0801126a0a2d747970652e676f6f676c65617069732e636f6d2f70726f746f636f6c2e5472616e73666572436f6e747261637412390a1541d8da6bf26964af9d7eed9e03e53415d37aa960451215410000000000000000000000000000000000000001188080808080808080800170e0ecc89fe231",
      "4235c2e0981e680f942f753b1e86738d3f3b9abe4a1bc4ac8641742046d33345"),
    ("0a0204b22208a1b2c3d4e5f6a7b840e08edeb0e2315a65080112610a2d747970652e676f6f676c65617069732e636f6d2f70726f746f636f6c2e5472616e73666572436f6e747261637412300a1541d8da6bf26964af9d7eed9e03e53415d37aa960451215410000000000000000000000000000000000000001180070e0ecc89fe231",
      "ea09f1667f9d5078855261ea1925015e0447d89a7fa4f9e60efa4b053836df0d"),
    ("0a0204b22208a1b2c3d4e5f6a7b840e08edeb0e2315aae01081f12a9010a31747970652e676f6f676c65617069732e636f6d2f70726f746f636f6c2e54726967676572536d617274436f6e747261637412740a1541d8da6bf26964af9d7eed9e03e53415d37aa96045121541a614f803b6fd780986a42c78ec9c7f77e6ded13c2244a9059cbb000000000000000000000000000000000000000000000000000000000000000100000000000000000000000000000000000000000000000000000000000f424070e0ecc89fe23190018087a70e",
      "55afb7bf80903a831c31f5c77b0184e2b04e60155efc437abd1c8f0f62b45a97")]

/-- The pre-images of the two Ethereum samples. -/
def keccak256_digests : List (String × String) :=
  [("02f86e01820671843b9aca00844864411882b4ab94dac17f958d2ee523a2206206994597c13d831ec780b844a9059cbb000000000000000000000000000000000000000000000000000000000000000100000000000000000000000000000000000000000000000000000000000f4240c0",
      "e0624fce8a337daffecef8ab0bff31390befe64702a81f858595eece73250caa"),
    ("ec2a85012a05f2008252089470997970c51812dc3a010c7d01b50e0d17dc79c88806f05b59d3b2000080388080",
      "9f33b4ca2b7b0de2571993ee2a4aa1896f6987ba9929b81ea97cd94a4cb9ba78")]

/-- Forty hexadecimal digits behind an optional `0x`. -/
def parse_hex_address (s : String) : Option Address :=
  match Hex.decode (bytes (strip_0x s)) with
  | some bs => if h : bs.length = 20 then some ⟨bs, h⟩ else none
  | none => none

/-- Digits of the radix, as long as the number has 256 bits; no text is zero. -/
def parse_numeral (s : String) (radix : ℕ) : Option U256 :=
  if (bytes s).all (fun b => is_ascii_hexdigit b && decide (digit_value b < radix)) ∧
      radix_value radix (bytes s) < 2 ^ 256 then
    some (BitVec.ofNat 256 (radix_value radix (bytes s)))
  else none

/-- Everything that is computed here is computed by the library of this development, and what the
laws leave open (the digests, the clock) is fixed. -/
def reference : Crates where
  hex_decode s := Hex.decode (bytes s)
  hex_encode := Hex.encode
  bs58_decode_check _ := none
  sha256 := lookup_digest sha256_digests
  address_from_str := parse_hex_address
  u256_from_str_radix := parse_numeral
  eip1559_encode_for_signing tx := 0x02 :: Rlp.encode tx.rlp
  legacy_encode_for_signing tx := Rlp.encode tx.rlp
  eip1559_signature_hash tx := lookup_digest keccak256_digests (0x02 :: Rlp.encode tx.rlp)
  legacy_signature_hash tx := lookup_digest keccak256_digests (Rlp.encode tx.rlp)
  system_time := some 1710000060000

/-- The laws of hexadecimal text hold by definition. -/
theorem reference_hex : HexLaws reference := ⟨fun _ => rfl, fun _ => rfl⟩

/-- So do those of the pre-images. -/
theorem reference_signing : SigningLaws reference := ⟨fun _ => rfl, fun _ => rfl⟩

theorem reference_address : AddressLaws reference where
  from_str s ds a hs hdec := by
    -- the law is about text with the prefix, the function about what is behind it
    have hstrip := strip_0x_of_decode (.inr hs) hdec
    show parse_hex_address s = some a
    rw [parse_hex_address, hstrip, hdec]
    exact dif_pos a.property

/-- Checking the bound at the end gives what checking it at every digit gives. -/
theorem reference_u256_digits : U256DigitLaws reference where
  decimal s _ hdigits := by
    have hall : (bytes s).all
        (fun b => is_ascii_hexdigit b && decide (digit_value b < 10)) = true := by
      rw [List.all_eq_true]
      intro b hb
      have hd := hdigits b hb
      simp [hexdigit_of_digit hd, digit_value_lt_ten hd]
    rw [checked_numeral_eq (by decide) _ (by norm_num), Nat.zero_mul, Nat.zero_add,
      ← radix_value]
    show parse_numeral s 10 = _
    rw [parse_numeral, hall]
    by_cases hn : radix_value 10 (bytes s) < 2 ^ 256
    · rw [if_pos ⟨rfl, hn⟩, if_pos hn, Option.map_some]
    · rw [if_neg (fun h => hn h.2), if_neg hn, Option.map_none]

theorem reference_u256 : U256Laws reference where
  decimal := reference_u256_digits.repr
  hex s _ hlen hdigits := by
    have hall : (bytes s).all
        (fun b => is_ascii_hexdigit b && decide (digit_value b < 16)) = true := by
      rw [List.all_eq_true]
      intro b hb
      simp [hdigits b hb, digit_value_lt_sixteen (hdigits b hb)]
    -- sixty-four hexadecimal digits are 256 bits
    have hlt : radix_value 16 (bytes s) < 2 ^ 256 := by
      refine lt_of_lt_of_le (radix_value_hex_lt hdigits) ?_
      rw [length_bytes]
      calc 16 ^ len s ≤ 16 ^ 64 := Nat.pow_le_pow_right (by decide) hlen
        _ = 2 ^ 256 := by norm_num
    show parse_numeral s 16 = _
    rw [parse_numeral, if_pos ⟨hall, hlt⟩]

/-! ## Samples -/

/-- An integer of JSON. -/
def integer (n : ℕ) : Value := .number (.posInt (UInt64.ofNat n))

/-- A minute behind the block of the sample header, in milliseconds. -/
def sample_now : UInt64 := 1710000060000

/-- A block header with all of its informational texts. -/
def header_payload : Value := .object
  [("h", .string "0000000003b8e4b2a1b2c3d4e5f6a7b8c9d0e1f2a3b4c5d6e7f8a9b0c1d2e3f4"),
    ("n", integer 62522546), ("t", integer 1710000000000),
    ("p", .string "0000000003b8e4b100000000000000000000000000000000000000000000000000000000"),
    ("r", .string "aabbccdd"), ("w", .string "41abcdef1234567890abcdef1234567890abcdef12"),
    ("v", integer 30)]

/-- What the header is read as. -/
def sample_header : TronBlockHeader :=
  { h := "0000000003b8e4b2a1b2c3d4e5f6a7b8c9d0e1f2a3b4c5d6e7f8a9b0c1d2e3f4"
    n := 62522546
    t := 1710000000000
    p := some "0000000003b8e4b100000000000000000000000000000000000000000000000000000000"
    r := some "aabbccdd"
    w := some "41abcdef1234567890abcdef1234567890abcdef12"
    v := 30 }

/-- A native transfer on Tron. -/
def tron_native_payload (value_wei : String) (token_contract : Value) : Value := .object
  [("chain", .string "tron"), ("chainId", .null),
    ("from", .string "41d8da6bf26964af9d7eed9e03e53415d37aa96045"),
    ("to", .string "410000000000000000000000000000000000000001"),
    ("valueWei", .string value_wei), ("data", .null), ("txType", .string "TRANSFER_NATIVE"),
    ("tokenContract", token_contract), ("nonce", .null),
    ("fee", .object [("mode", .string "TRON"), ("el", .null), ("rp", header_payload)])]

/-- What the native transfer is read as. -/
def tron_native (value_wei : String) (token_contract : Option String) : PreparedTransaction :=
  { chain := .Tron
    chain_id := none
    «from» := "41d8da6bf26964af9d7eed9e03e53415d37aa96045"
    «to» := "410000000000000000000000000000000000000001"
    value_wei
    data := none
    tx_type := .TransferNative
    token_contract
    nonce := none
    fee := {
      mode := .Tron
      gas_limit := none
      base_fee_per_gas := none
      max_priority_fee_per_gas := none
      max_fee_per_gas := none
      gas_price := none
      el := none
      rp := some sample_header } }

/-- A token transfer on Tron, with a fee limit. -/
def tron_token_payload : Value := .object
  [("chain", .string "tron"), ("chainId", .null),
    ("from", .string "41d8da6bf26964af9d7eed9e03e53415d37aa96045"),
    ("to", .string "410000000000000000000000000000000000000001"),
    ("valueWei", .string "1000000"), ("data", .null), ("txType", .string "TRANSFER_TOKEN"),
    ("tokenContract", .string "41a614f803b6fd780986a42c78ec9c7f77e6ded13c"), ("nonce", .null),
    ("fee", .object [("mode", .string "TRON"), ("el", .string "30000000"), ("rp", header_payload)])]

/-- What the token transfer is read as. -/
def tron_token : PreparedTransaction :=
  { chain := .Tron
    chain_id := none
    «from» := "41d8da6bf26964af9d7eed9e03e53415d37aa96045"
    «to» := "410000000000000000000000000000000000000001"
    value_wei := "1000000"
    data := none
    tx_type := .TransferToken
    token_contract := some "41a614f803b6fd780986a42c78ec9c7f77e6ded13c"
    nonce := none
    fee := {
      mode := .Tron
      gas_limit := none
      base_fee_per_gas := none
      max_priority_fee_per_gas := none
      max_fee_per_gas := none
      gas_price := none
      el := some "30000000"
      rp := some sample_header } }

/-- A token transfer on Ethereum, at the given spellings of its calldata and nonce. -/
def evm_token_payload (data : String) (nonce : Value) : Value := .object
  [("chain", .string "ethereum"), ("chainId", integer 1),
    ("from", .string "0xd8da6bf26964af9d7eed9e03e53415d37aa96045"),
    ("to", .string "0xdac17f958d2ee523a2206206994597c13d831ec7"), ("valueWei", .string "0"),
    ("data", .string data), ("txType", .string "TRANSFER_TOKEN"),
    ("tokenContract", .string "0xdac17f958d2ee523a2206206994597c13d831ec7"), ("nonce", nonce),
    ("fee", .object [("mode", .string "EIP1559"), ("gasLimit", .string "46251"),
      ("baseFeePerGas", .string "107264908"), ("maxPriorityFeePerGas", .string "1000000000"),
      ("maxFeePerGas", .string "1214529816")])]

/-- What the token transfer is read as: the nonce is its decimal in both spellings. -/
def evm_token (data : String) : PreparedTransaction :=
  { chain := .Ethereum
    chain_id := some 1
    «from» := "0xd8da6bf26964af9d7eed9e03e53415d37aa96045"
    «to» := "0xdac17f958d2ee523a2206206994597c13d831ec7"
    value_wei := "0"
    data := some data
    tx_type := .TransferToken
    token_contract := some "0xdac17f958d2ee523a2206206994597c13d831ec7"
    nonce := some "1649"
    fee := {
      mode := .Eip1559
      gas_limit := some "46251"
      base_fee_per_gas := some "107264908"
      max_priority_fee_per_gas := some "1000000000"
      max_fee_per_gas := some "1214529816"
      gas_price := none
      el := none
      rp := none } }

/-- A transfer of 1000000 units to the address `1`. -/
def sample_calldata : String :=
  "0xa9059cbb000000000000000000000000000000000000000000000000000000000000000100000000000000000000000000000000000000000000000000000000000f4240"

/-- A native transfer in a legacy envelope. -/
def evm_native_payload : Value := .object
  [("chain", .string "ethereum"), ("chainId", integer 56),
    ("from", .string "0xf39fd6e51aad88f6f4ce6ab8827279cfffb92266"),
    ("to", .string "0x70997970c51812dc3a010c7d01b50e0d17dc79c8"),
    ("valueWei", .string "500000000000000000"), ("data", .null),
    ("txType", .string "TRANSFER_NATIVE"), ("tokenContract", .null), ("nonce", .string "42"),
    ("fee", .object [("mode", .string "LEGACY"), ("gasLimit", .string "21000"),
      ("gasPrice", .string "5000000000")])]

/-- What it is read as. -/
def evm_native : PreparedTransaction :=
  { chain := .Ethereum
    chain_id := some 56
    «from» := "0xf39fd6e51aad88f6f4ce6ab8827279cfffb92266"
    «to» := "0x70997970c51812dc3a010c7d01b50e0d17dc79c8"
    value_wei := "500000000000000000"
    data := none
    tx_type := .TransferNative
    token_contract := none
    nonce := some "42"
    fee := {
      mode := .Legacy
      gas_limit := some "21000"
      base_fee_per_gas := none
      max_priority_fee_per_gas := none
      max_fee_per_gas := none
      gas_price := some "5000000000"
      el := none
      rp := none } }

/-- A native transfer on Ethereum, at the given fee caps. -/
def evm_capped_payload (max_fee max_priority_fee : String) : Value := .object
  [("chain", .string "ethereum"), ("chainId", integer 1),
    ("from", .string "0xd8da6bf26964af9d7eed9e03e53415d37aa96045"),
    ("to", .string "0x70997970c51812dc3a010c7d01b50e0d17dc79c8"),
    ("valueWei", .string "1"), ("data", .null), ("txType", .string "TRANSFER_NATIVE"),
    ("tokenContract", .null), ("nonce", .string "7"),
    ("fee", .object [("mode", .string "EIP1559"), ("gasLimit", .string "21000"),
      ("maxPriorityFeePerGas", .string max_priority_fee), ("maxFeePerGas", .string max_fee)])]

/-- What it is read as, the caps in any order. -/
def evm_capped (max_fee max_priority_fee : String) : PreparedTransaction :=
  { chain := .Ethereum
    chain_id := some 1
    «from» := "0xd8da6bf26964af9d7eed9e03e53415d37aa96045"
    «to» := "0x70997970c51812dc3a010c7d01b50e0d17dc79c8"
    value_wei := "1"
    data := none
    tx_type := .TransferNative
    token_contract := none
    nonce := some "7"
    fee := {
      mode := .Eip1559
      gas_limit := some "21000"
      base_fee_per_gas := none
      max_priority_fee_per_gas := some max_priority_fee
      max_fee_per_gas := some max_fee
      gas_price := none
      el := none
      rp := none } }

theorem validate_tron_native :
    validate reference (tron_native_payload "5000000" .null) = .ok (tron_native "5000000" none) :=
  eq_ok_of_toOption (by decide)

theorem validate_tron_token : validate reference tron_token_payload = .ok tron_token :=
  eq_ok_of_toOption (by decide)

theorem validate_evm_token :
    validate reference (evm_token_payload sample_calldata (.string "1649"))
      = .ok (evm_token sample_calldata) := eq_ok_of_toOption (by decide +kernel)

theorem validate_evm_native : validate reference evm_native_payload = .ok evm_native :=
  eq_ok_of_toOption (by decide)

end TxCompiler
