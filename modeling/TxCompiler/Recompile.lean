/-
**Compiling again.** A caller that compiles a transaction a second time, later or with other
options, holds the first artefact and no more. That is enough: an artefact decides what the same
transaction compiles to at every other clock (`recompile`). On Ethereum it is the same result. On
Tron the two clock fields move and nothing else does, so two artefacts of one transaction are equal
when their clocks are, and both can be signed and broadcast when they are not.

There is one new way to fail, an expiration that cannot be written. It has its own code: whatever
else a compilation checks has been settled by the first one.
-/
import TxCompiler.CompileRules

set_option autoImplicit false

namespace TxCompiler

open Rust

namespace Meaning

/-- The same meaning at another clock. -/
def at_clock (clock : ℕ) : Meaning → Meaning
  | .tron _ block_number block_hash transfer fee_limit =>
    .tron clock block_number block_hash transfer fee_limit
  | m => m

/-- The window behind this clock ends in time. -/
def InTime (clock : ℕ) : Meaning → Prop
  | .tron .. => clock + 36000000 < 2 ^ 64
  | _ => True

/-- No envelope has a clock. -/
theorem timeless {m : Meaning} (h : m.chain = .Ethereum) (clock : ℕ) :
    m.InTime clock ∧ m.at_clock clock = m := by
  cases m with
  | eip1559 => exact ⟨trivial, rfl⟩
  | legacy => exact ⟨trivial, rfl⟩
  | tron => cases h

end Meaning

section Recompile

variable {cr : Crates} {keccak256 : List UInt8 → B256} {p : PreparedTransaction}
  {options : CompileOptions} {res : CompilationResult} {t t' : UInt64} {m : Meaning}

theorem chain_of_ethereum (hc : p.chain = .Ethereum) (h : read_meaning cr p t = some m) :
    m.chain = .Ethereum := by
  unfold read_meaning at h
  rw [hc] at h
  obtain ⟨common, -, henvelope⟩ := Option.bind_eq_some_iff.1 h
  rcases EvmText.envelope_cases henvelope with ⟨_, _, -, -, -, rfl⟩ | ⟨_, -, -, rfl⟩
  · rfl
  · rfl

/-- What has been read once is read at every clock that leaves room for the window. -/
theorem read_meaning_at_clock (h : read_meaning cr p t = some m) (ht : m.InTime t'.toNat) :
    read_meaning cr p t' = some (m.at_clock t'.toNat) := by
  cases hc : p.chain with
  | Ethereum =>
    have hsame : read_meaning cr p t' = read_meaning cr p t := by
      unfold read_meaning
      rw [hc]
    rw [hsame, h, (Meaning.timeless (chain_of_ethereum hc h) _).2]
  | Tron =>
    obtain ⟨header, block_number, block_hash, transfer, fee_limit, hrp, href, htransfer, hlimit, -,
      rfl⟩ := (read_meaning_tron hc).1 h
    exact (read_meaning_tron hc).2 ⟨header, block_number, block_hash, transfer, fee_limit, hrp,
      href, htransfer, hlimit, ht, rfl⟩

theorem at_clock_eq_iff (h : read_meaning cr p t = some m) :
    m.at_clock t'.toNat = m ↔ m.chain = .Ethereum ∨ t' = t := by
  cases hc : p.chain with
  | Ethereum =>
    have hm := chain_of_ethereum hc h
    exact iff_of_true (Meaning.timeless hm _).2 (.inl hm)
  | Tron =>
    obtain ⟨header, block_number, block_hash, transfer, fee_limit, -, -, -, -, -, rfl⟩ :=
      (read_meaning_tron hc).1 h
    rw [Meaning.at_clock, Meaning.tron.injEq, UInt64.toNat_inj]
    simp [Meaning.chain]

/-- The window is what is checked last. -/
theorem tron_rules_eq (cr : Crates) (p : PreparedTransaction) :
    ∃ rules, ∀ t, tron_rules cr p t
      = rules ++ [(t.toNat + 36000000 < 2 ^ 64, .InvalidPayload)] := by
  refine ⟨[(p.fee.rp ≠ none, .InvalidBlockHeader),
    (∃ header, p.fee.rp = some header ∧ IsBlockId header.h, .InvalidBlockHeader)] ++
      (contract_rules cr p ++ [(∀ s, p.fee.el = some s → u64_from_str s ≠ none, .InvalidAmount)]),
    fun t => ?_⟩
  simp only [tron_rules, List.append_assoc, List.singleton_append]

/-- The window is the only thing that is left to fail. -/
theorem recompile_fails (hhex : HexLaws cr) (hc : p.chain = .Tron)
    (hres : compile cr p options = .ok res) {options' : CompileOptions}
    (ht : ¬ (clock_of cr options').toNat + 36000000 < 2 ^ 64) :
    ∃ e, compile cr p options' = .error (.err e) ∧ e.code = .InvalidPayload := by
  obtain ⟨rules, hrules⟩ := tron_rules_eq cr p
  have hcodes : ∀ options, Codes (compile cr p options)
      (rules ++ [((clock_of cr options).toNat + 36000000 < 2 ^ 64, .InvalidPayload)]) := by
    intro options
    have h := @compile_codes cr p hhex options
    unfold compile_rules at h
    rw [hc] at h
    rw [← hrules]
    exact h
  have hholds := (hcodes options).returns_iff.1 ⟨res, hres⟩
  rw [(hcodes options').reports_iff fun _ _ he => he.code_eq]
  exact Rules.reports_last (Rules.holds_append.1 hholds).1 ht

/-- **Compiling again.** The first artefact decides what the same transaction compiles to under
other options, and whether the two artefacts are one. -/
theorem recompile (hhex : HexLaws cr) (hsign : SigningLaws cr) (hdigest : DigestLaws cr keccak256)
    (hp : DataFits p) (hres : compile cr p options = .ok res) (options' : CompileOptions) :
    ∃ m, artefact_meaning res.unsigned_tx = some m ∧
      (m.InTime (clock_of cr options').toNat →
        ∃ res', compile cr p options' = .ok res' ∧
          res' = (m.at_clock (clock_of cr options').toNat).result cr keccak256
            res.metadata.tx_type ∧
          (res'.unsigned_tx = res.unsigned_tx ↔
            res.chain = .Ethereum ∨ clock_of cr options' = clock_of cr options)) ∧
      (¬ m.InTime (clock_of cr options').toNat →
        ∃ e, compile cr p options' = .error (.err e) ∧ e.code = .InvalidPayload) := by
  obtain ⟨m, hread, hm, rfl⟩ := compiled_meaning hhex hsign hdigest hp hres
  refine ⟨m, hm, fun ht => ?_, fun ht => ?_⟩
  · have hread' := read_meaning_at_clock hread ht
    have hres' : compile cr p options' = .ok ((m.at_clock (clock_of cr options').toNat).result cr
        keccak256 p.tx_type) := by
      rw [← toOption_eq_some, compile_toOption hhex hsign hdigest, hread', Option.map_some]
    refine ⟨_, hres', by rw [result_tx_type], ?_⟩
    show _ ↔ m.chain = .Ethereum ∨ _
    rw [← at_clock_eq_iff hread]
    constructor
    · intro heq
      -- both artefacts are decoded
      have hm' := @artefact_meaning_result cr keccak256 hhex _
        (read_meaning_fits hp hread') p.tx_type
      rw [heq, hm] at hm'
      exact (Option.some.inj hm').symm
    · intro heq
      rw [heq]
  · cases hc : p.chain with
    | Ethereum => exact absurd (Meaning.timeless (chain_of_ethereum hc hread) _).1 ht
    | Tron =>
      obtain ⟨header, block_number, block_hash, transfer, fee_limit, -, -, -, -, -, rfl⟩ :=
        (read_meaning_tron hc).1 hread
      exact recompile_fails hhex hc hres ht

/-- A second Tron artefact of one transaction, at an earlier clock. -/
theorem tron_token_recompiled :
    ∃ res res', compile reference tron_token (.with_now sample_now) = .ok res ∧
      compile reference tron_token (.with_now 0) = .ok res' ∧
        res'.unsigned_tx ≠ res.unsigned_tx := by
  obtain ⟨res, hres⟩ := reference_compiles (t := sample_now) validate_tron_token
    (by decide) (by decide)
  have hchain : res.chain = .Tron := by
    obtain ⟨m, hread, -, rfl⟩ := compiled_meaning reference_hex reference_signing reference_digest
      dataFits_tron_token hres
    obtain ⟨_, _, _, _, _, -, -, -, -, -, rfl⟩ := (read_meaning_tron rfl).1 hread
    rfl
  obtain ⟨m, -, hagain, -⟩ := recompile reference_hex reference_signing reference_digest
    dataFits_tron_token hres (.with_now 0)
  have htime : m.InTime 0 := by
    cases m with
    | eip1559 => trivial
    | legacy => trivial
    | tron => exact (by decide : 0 + 36000000 < 2 ^ 64)
  obtain ⟨res', hres', -, hiff⟩ := hagain htime
  refine ⟨res, res', hres, hres', ?_⟩
  rw [Ne, hiff, hchain]
  decide

end Recompile

end TxCompiler
