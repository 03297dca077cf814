/-
**The calldata of a transfer, for all who touch it.** `validate`, `review` and `compile` read it
from text; `build_trc20_transfer_data` writes it, on Tron.

The three readers agree on every string, validated or not (`readers_agree`): each returns when
the text spells a transfer (`SpellsTransfer`), and on no other. For `validate` that has been
shown where the layout is; the two directions that are new here are that a text `review`
accepts spells a transfer, and that bytes of that form are not compiled from any other text.
What the review shows is then fixed, since the text spells one recipient and one amount.

The writer and the reader of the review are inverse to each other (`calldata_round_trip`). They
share no code: one fills words of bytes, the other cuts the text at characters 8, 32 and 72.
Both meet in `transfer_calldata`. The reader keeps the letter case of the text, and as the
encoder writes no capital letter the recipient it shows is in lower case (`review_of_encode`).
-/
import TxCompiler.Calldata
import TxCompiler.Reference

set_option autoImplicit false

namespace TxCompiler

open Rust Json

section Shown

variable {cr : Crates}

/-! ## What the review shows -/

/-- The recipient that is shown is cut out of the text. -/
theorem shown_of_review {data : String} {r : String × String}
    (h : decode_erc20_transfer_data cr data = .ok r) :
    ∃ digits, r.1 = "0x" ++ digits ∧ ∀ b ∈ bytes digits, b ∈ bytes (strip_0x data) := by
  unfold decode_erc20_transfer_data at h
  simp only [bind_eq_ok, reject_if_eq_ok, exists_const, Except.ok.injEq] at h
  obtain ⟨-, -, -, -, -, word, hword, -, -, -, digits, hdigits, -, -, -, -, rfl⟩ := h
  refine ⟨digits, rfl, ?_⟩
  intro b hb
  exact mem_of_str_slice hword (mem_of_str_slice hdigits hb)

/-- The text of a transfer in lower case is shown in lower case. -/
theorem review_of_lowercase (hu256 : U256Laws cr) {text : String} {recipient amount : List UInt8}
    (h : SpellsTransfer text recipient amount)
    (hlow : ∀ b ∈ bytes (strip_0x text), lowercase_byte b = b) :
    decode_erc20_transfer_data cr text
      = .ok ("0x" ++ Hex.encode recipient, (be_value amount).repr) := by
  obtain ⟨shown, hshown, -, ds, hds, hdec⟩ := decode_erc20_transfer_data_of_spells hu256 h
  obtain ⟨digits, rfl, hmem⟩ := shown_of_review hshown
  have hdigits : bytes digits = ds := by
    rw [bytes_append] at hds
    exact List.append_cancel_left hds
  have heq : digits = Hex.encode recipient := by
    apply Hex.eq_encode_of_decode
    · rw [hdigits, hdec]
    · intro b hb
      exact hlow b (hmem b hb)
  rw [hshown, heq]

/-- What was encoded, behind a prefix or not, is shown as it was. -/
theorem review_of_encode (hu256 : U256Laws cr) {recipient amount : List UInt8}
    (h20 : recipient.length = 20) (h32 : amount.length = 32) {text : String}
    (htext : text = Hex.encode (transfer_calldata recipient amount) ∨
      text = "0x" ++ Hex.encode (transfer_calldata recipient amount)) :
    decode_erc20_transfer_data cr text
      = .ok ("0x" ++ Hex.encode recipient, (be_value amount).repr) := by
  have hdec := Hex.decode_encode (transfer_calldata recipient amount)
  have hbytes : bytes text = bytes (Hex.encode (transfer_calldata recipient amount)) ∨
      bytes text = bytes "0x" ++ bytes (Hex.encode (transfer_calldata recipient amount)) := by
    rcases htext with rfl | rfl
    · exact .inl rfl
    · exact .inr (bytes_append _ _)
  have hspells : SpellsTransfer text recipient amount := ⟨h20, h32, _, hbytes, hdec⟩
  apply review_of_lowercase hu256 hspells
  rw [strip_0x_of_decode hbytes hdec]
  exact Hex.lowercase_encode _

end Shown

section Readers

variable {cr : Crates} {data : String} {recipient amount : List UInt8}

/-! ## What each reader accepts -/

theorem spellsTransfer_of_review {r : String × String}
    (h : decode_erc20_transfer_data cr data = .ok r) :
    ∃ recipient amount, SpellsTransfer data recipient amount := by
  unfold decode_erc20_transfer_data at h
  simp only [bind_eq_ok, reject_if_eq_ok, exists_const, not_not] at h
  obtain ⟨hhex, hlen, selector, h1, hsel, word, h2, pad, h3, hzero, -⟩ := h
  exact spellsTransfer_of_checks hhex hlen h1 h2 h3 hsel hzero

theorem spellsTransfer_of_compile (hhex : HexLaws cr) (h20 : recipient.length = 20)
    (h32 : amount.length = 32)
    (h : decode_calldata cr (some data) = .ok (transfer_calldata recipient amount)) :
    SpellsTransfer data recipient amount := by
  unfold decode_calldata at h
  dsimp only at h
  by_cases hne : data ≠ "" ∧ data ≠ "0x"
  · rw [if_pos hne, hhex.decode, ok_or_eq_ok] at h
    exact spellsTransfer_iff.2 ⟨h20, h32, h⟩
  · -- no calldata is no transfer
    rw [if_neg hne] at h
    have hlen := congrArg List.length (Except.ok.inj h)
    rw [length_transfer_calldata h20 h32] at hlen
    simp at hlen

theorem SpellsEvm.eq_ignore_case {shown : String} (h : SpellsEvm shown recipient) :
    eq_ignore_ascii_case shown ("0x" ++ Hex.encode recipient) = true := by
  obtain ⟨-, ds, hds, hdec⟩ := h
  rw [eq_ignore_ascii_case, beq_iff_eq, bytes_append, hds, List.map_append, List.map_append,
    Hex.lowercase_of_decode hdec (Hex.decode_encode recipient)]

/-- **The three readers agree**, on every string. -/
theorem readers_agree (hhex : HexLaws cr) (hu256 : U256Laws cr) (data : String) :
    [∃ r, decode_erc20_transfer_data cr data = .ok r,
      ∀ a, validate_evm_token_transfer (some data) a a "0" = .ok (),
      ∃ R A : List UInt8, R.length = 20 ∧ A.length = 32 ∧ decode_calldata cr (some data)
        = .ok ([0xa9, 0x05, 0x9c, 0xbb] ++ List.replicate 12 0 ++ R ++ A)].TFAE ∧
    ∀ (shown amount : String) (R A : List UInt8), R.length = 20 → A.length = 32 →
      decode_erc20_transfer_data cr data = .ok (shown, amount) →
      decode_calldata cr (some data)
        = .ok ([0xa9, 0x05, 0x9c, 0xbb] ++ List.replicate 12 0 ++ R ++ A) →
      eq_ignore_ascii_case shown ("0x" ++ Hex.encode R) = true ∧ amount = (be_value A).repr := by
  refine ⟨?_, ?_⟩
  · tfae_have 1 → 2 := by
      rintro ⟨r, hr⟩ a
      obtain ⟨recipient, amount, hs⟩ := spellsTransfer_of_review hr
      apply validate_evm_token_transfer_eq_ok.2
      exact ⟨⟨data, recipient, amount, rfl, hs⟩, beq_self_eq_true _, rfl⟩
    tfae_have 2 → 3 := by
      intro h
      obtain ⟨⟨d, recipient, amount, hd, hs⟩, -⟩ := validate_evm_token_transfer_eq_ok.1 (h "")
      obtain rfl : data = d := Option.some.inj hd
      exact ⟨recipient, amount, hs.1, hs.2.1, decode_calldata_of_spells hhex hs⟩
    tfae_have 3 → 1 := by
      rintro ⟨R, A, h20, h32, h⟩
      have hs := spellsTransfer_of_compile hhex h20 h32 h
      obtain ⟨shown, hshown, -⟩ := decode_erc20_transfer_data_of_spells hu256 hs
      exact ⟨_, hshown⟩
    tfae_finish
  · intro shown amount R A h20 h32 hreview hcompile
    have hs := spellsTransfer_of_compile hhex h20 h32 hcompile
    obtain ⟨shown', hshown, hspells⟩ := decode_erc20_transfer_data_of_spells hu256 hs
    -- the review has one answer, and it is the one the bytes spell
    rw [hreview, Except.ok.injEq, Prod.mk.injEq] at hshown
    obtain ⟨rfl, rfl⟩ := hshown
    exact ⟨hspells.eq_ignore_case, rfl⟩

end Readers

/-- A calldata of the samples: a million for the address `1`. -/
theorem review_sample_calldata : decode_erc20_transfer_data reference sample_calldata
    = .ok ("0x0000000000000000000000000000000000000001", "1000000") := by
  have htext : sample_calldata
      = "0x" ++ Hex.encode (transfer_calldata (List.replicate 19 0 ++ [1])
        (to_be_bytes 32 1000000)) := by decide +kernel
  have hreview := @review_of_encode reference reference_u256 (List.replicate 19 0 ++ [1]) _ rfl
    (length_to_be_bytes 32 1000000) _ (.inr htext)
  have hrecipient : Hex.encode (List.replicate 19 0 ++ [1])
      = "0000000000000000000000000000000000000001" := by decide
  rw [hreview, hrecipient, be_value_to_be_bytes (by norm_num)]
  rfl

/-- On a calldata of the samples, the review and the compiler read the same transfer. -/
theorem sample_readers_agree : ∃ (r : String × String) (R A : List UInt8),
    decode_erc20_transfer_data reference sample_calldata = .ok r ∧
      decode_calldata reference (some sample_calldata)
        = .ok ([0xa9, 0x05, 0x9c, 0xbb] ++ List.replicate 12 0 ++ R ++ A) ∧
      eq_ignore_ascii_case r.1 ("0x" ++ Hex.encode R) = true ∧ r.2 = (be_value A).repr := by
  obtain ⟨hagree, hshown⟩ := readers_agree reference_hex reference_u256 sample_calldata
  obtain ⟨R, A, h20, h32, hbytes⟩ := (hagree.out 0 2 rfl rfl).1 ⟨_, review_sample_calldata⟩
  exact ⟨_, R, A, review_sample_calldata, hbytes,
    hshown _ _ R A h20 h32 review_sample_calldata hbytes⟩

/-! ## The writer and the reader of the review -/

/-- An amount of 256 bits is encoded as it is. -/
theorem build_trc20_transfer_data_of_lt {cr : Crates} (hu256 : U256Laws cr) {a : String}
    {bs : List UInt8} (ha : tron_address_to_bytes cr a = .ok bs) {n : ℕ} (hn : n < 2 ^ 256) :
    build_trc20_transfer_data cr a n.repr
      = .ok (transfer_calldata (bs.drop 1) (to_be_bytes 32 n)) := by
  rw [build_trc20_transfer_data_eq n.repr ha, hu256.decimal, if_pos hn, ok_or_some, ok_bind,
    BitVec.toNat_ofNat, Nat.mod_eq_of_lt hn]

/-- **The encoder of TRC-20 calldata and the decoder of the review are mutually inverse.** -/
theorem calldata_round_trip {cr : Crates} (hhex : HexLaws cr) (hu256 : U256Laws cr) :
    (∀ (a : String) (bs : List UInt8) (n : ℕ), tron_address_to_bytes cr a = .ok bs →
      n < 2 ^ 256 → ∃ out, build_trc20_transfer_data cr a n.repr = .ok out ∧ out.length = 68 ∧
        (bs.drop 1).length = 20 ∧
        ∀ text, text = cr.hex_encode out ∨ text = "0x" ++ cr.hex_encode out →
          decode_erc20_transfer_data cr text = .ok ("0x" ++ Hex.encode (bs.drop 1), n.repr)) ∧
    ∀ (data : String) (r : String × String), decode_erc20_transfer_data cr data = .ok r →
      ∃ (digits : String) (out : List UInt8), r.1 = "0x" ++ digits ∧
        build_trc20_transfer_data cr ("41" ++ digits) r.2 = .ok out ∧
        Hex.decode (bytes (strip_0x data)) = some out := by
  refine ⟨?_, ?_⟩
  · intro a bs n ha hn
    obtain ⟨h21, -⟩ := (tron_address_to_bytes_spec cr a).of_eq_ok ha
    have h20 : (bs.drop 1).length = 20 := by
      rw [List.length_drop, h21]
    have h32 : (to_be_bytes 32 n).length = 32 := length_to_be_bytes _ _
    refine ⟨_, build_trc20_transfer_data_of_lt hu256 ha hn, length_transfer_calldata h20 h32, h20,
      ?_⟩
    intro text htext
    rw [hhex.encode] at htext
    have hreview := review_of_encode hu256 h20 h32 htext
    rw [be_value_to_be_bytes (lt_of_lt_of_eq hn (by norm_num))] at hreview
    exact hreview
  · intro data r h
    obtain ⟨recipient, amount, hs⟩ := spellsTransfer_of_review h
    obtain ⟨digits, hshown, -⟩ := shown_of_review h
    obtain ⟨shown, hreview, h20, ds, hds, hdec⟩ := decode_erc20_transfer_data_of_spells hu256 hs
    rw [h, Except.ok.injEq] at hreview
    rw [hreview] at hshown ⊢
    dsimp only at hshown
    -- the digits shown, behind `41`, are the address of the recipient on Tron
    have hdigits : Hex.decode (bytes digits) = some recipient := by
      rw [hshown, bytes_append] at hds
      rw [List.append_cancel_left hds, hdec]
    have haddress : tron_address_to_bytes cr ("41" ++ digits) = .ok (0x41 :: recipient) := by
      apply (tron_address_to_bytes_eq_ok hhex).2
      refine ⟨⟨by rw [List.length_cons, h20], rfl⟩, .inl ⟨_, .inl (bytes_append _ _), ?_⟩⟩
      exact Hex.decode_append (show Hex.decode (bytes "41") = some [0x41] by decide) hdigits
    have hbuild := build_trc20_transfer_data_of_lt hu256 haddress hs.amount_lt
    have hword := to_be_bytes_be_value amount
    rw [hs.2.1] at hword
    refine ⟨digits, _, hshown, hbuild, ?_⟩
    rw [hword]
    exact (spellsTransfer_iff.1 hs).2.2

/-- Both directions at the samples: an amount of a million for the address of Tron's samples,
and the calldata of the Ethereum ones. -/
theorem sample_round_trip :
    (∃ out, build_trc20_transfer_data reference "410000000000000000000000000000000000000001"
        (1000000 : ℕ).repr = .ok out ∧
      decode_erc20_transfer_data reference (reference.hex_encode out)
        = .ok ("0x" ++ Hex.encode (List.replicate 19 0 ++ [1]), (1000000 : ℕ).repr)) ∧
    ∃ digits out, build_trc20_transfer_data reference ("41" ++ digits) "1000000" = .ok out ∧
      Hex.decode (bytes (strip_0x sample_calldata)) = some out := by
  obtain ⟨hto, hback⟩ := calldata_round_trip reference_hex reference_u256
  have haddress : tron_address_to_bytes reference "410000000000000000000000000000000000000001"
      = .ok (0x41 :: (List.replicate 19 0 ++ [1])) := eq_ok_of_toOption (by decide)
  obtain ⟨out, hbuild, -, -, hread⟩ := hto _ _ 1000000 haddress (by norm_num)
  obtain ⟨digits, out', -, hbuild', hspelt⟩ := hback _ _ review_sample_calldata
  exact ⟨⟨out, hbuild, hread _ (.inl rfl)⟩, digits, out', hbuild', hspelt⟩

end TxCompiler
