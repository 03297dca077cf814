/-
**Decision lists**: what a chain of checks answers, when it answers an error.

A function that validates is a sequence of partial steps, each with an error of its own. What it
promises is a list of conditions in order, `Rules`, each with what is reported when it is the first
one that fails. `Follows kind m rules` says that a run keeps this promise: it returns when all the
conditions hold, its error is of the kind the first that does not is reported as, and it does not
panic. The conditions are propositions about the input, and need not be the tests the code makes.

`Follows.bind` is the sequencing rule: the list of a sequence is the lists of its steps, one behind
the other. The later lists may assume that the earlier steps returned. `Errs` is the part of it
for a step whose errors are all reported alike (`Follows.single`).
-/
import TxCompiler.Slice

set_option autoImplicit false

namespace Rust

variable {ε α β γ : Type}

/-! ## The errors of a run -/

/-- Every error of `m` satisfies `E`. -/
def Errs (m : Run ε α) (E : ε → Prop) : Prop := ∀ e, m = .error (.err e) → E e

section Errors

variable {m : Run ε α} {f : α → Run ε β} {E : ε → Prop}

theorem Errs.ok {a : α} : Errs (.ok a : Run ε α) E := fun _ h => by cases h

theorem Errs.fail {e : ε} (h : E e) : Errs (Rust.fail e : Run ε α) E := by
  intro e' he'
  obtain rfl : e = e' := Fault.err.inj (Except.error.inj he')
  exact h

theorem Errs.panicked {why : Panic} : Errs (Rust.panicked why : Run ε α) E := by
  intro e h
  simp [Rust.panicked] at h

theorem Errs.ok_or {o : Option α} {e : ε} (h : E e) : Errs (Rust.ok_or o e) E := by
  cases o with
  | none => exact Errs.fail h
  | some a => exact Errs.ok

theorem Errs.reject_if {bad : Prop} [Decidable bad] {e : ε} (h : E e) :
    Errs (Rust.reject_if bad e) E := by
  by_cases hb : bad
  · rw [reject_if_of hb]
    exact Errs.fail h
  · rw [reject_if_of_not hb]
    exact Errs.ok

theorem Errs.map_err {ε' : Type} {g : ε → ε'} {E' : ε' → Prop} (h : ∀ e, E' (g e)) :
    Errs (Rust.map_err m g) E' := by
  rcases m with (e | why) | a
  · exact Errs.fail (h e)
  · exact Errs.panicked
  · exact Errs.ok

/-! The operations that can only panic -/

theorem Errs.str_slice {s : String} {i j : ℕ} : Errs (Rust.str_slice s i j) E := by
  unfold Rust.str_slice
  split
  · exact Errs.ok
  · exact Errs.panicked

theorem Errs.index {bs : List UInt8} {i : ℕ} : Errs (Rust.index bs i) E := by
  unfold Rust.index
  split
  · exact Errs.ok
  · exact Errs.panicked

theorem Errs.bind (hm : Errs m E) (hf : ∀ a, Errs (f a) E) : Errs (m >>= f) E := by
  rcases m with (e | why) | a
  · exact Errs.fail (hm e rfl)
  · exact Errs.panicked
  · exact hf a

end Errors

/-! ## Decision lists -/

/-- Conditions in order, each with what is reported when it is the first to fail. -/
abbrev Rules (γ : Type) := List (Prop × γ)

namespace Rules

/-- Every condition of the list holds. -/
def Holds (rules : Rules γ) : Prop := ∀ rule ∈ rules, rule.1

/-- The first condition that fails has this code. -/
def Reports : Rules γ → γ → Prop
  | [], _ => False
  | (ok, c) :: rules, d => (¬ ok ∧ c = d) ∨ (ok ∧ Reports rules d)

@[simp] theorem holds_nil : Holds ([] : Rules γ) := by simp [Holds]

@[simp] theorem holds_cons {ok : Prop} {c : γ} {rules : Rules γ} :
    Holds ((ok, c) :: rules) ↔ ok ∧ Holds rules := by simp [Holds]

@[simp] theorem holds_append {rules rules' : Rules γ} :
    Holds (rules ++ rules') ↔ Holds rules ∧ Holds rules' := by
  simp only [Holds, List.mem_append, or_imp, forall_and]

theorem reports_append {rules rules' : Rules γ} {d : γ} :
    Reports (rules ++ rules') d ↔ Reports rules d ∨ (Holds rules ∧ Reports rules' d) := by
  induction rules with
  | nil => simp [Reports]
  | cons rule rules ih =>
    obtain ⟨ok, c⟩ := rule
    rw [List.cons_append, Reports, Reports, ih, holds_cons]
    tauto

/-- A rule that fails behind rules that hold is the one that is reported. -/
theorem reports_last {rules : Rules γ} {ok : Prop} {c : γ} (h : Holds rules) (hno : ¬ ok) :
    Reports (rules ++ [(ok, c)]) c := reports_append.2 (.inr ⟨h, .inl ⟨hno, rfl⟩⟩)

/-- A list that reports something does not hold. -/
theorem not_holds_of_reports {rules : Rules γ} {d : γ} (h : Reports rules d) : ¬ Holds rules := by
  induction rules with
  | nil => exact h.elim
  | cons rule rules ih =>
    obtain ⟨ok, c⟩ := rule
    rw [holds_cons]
    rintro ⟨hok, hrules⟩
    rcases h with ⟨hno, -⟩ | ⟨-, h⟩
    · exact hno hok
    · exact ih h hrules

/-- There is only one first. -/
theorem reports_unique {rules : Rules γ} {d d' : γ} (h : Reports rules d) (h' : Reports rules d') :
    d = d' := by
  induction rules with
  | nil => exact h.elim
  | cons rule rules ih =>
    obtain ⟨ok, c⟩ := rule
    rcases h with ⟨hno, rfl⟩ | ⟨hok, h⟩
    · rcases h' with ⟨-, rfl⟩ | ⟨hok', -⟩
      · rfl
      · exact absurd hok' hno
    · rcases h' with ⟨hno', -⟩ | ⟨-, h'⟩
      · exact absurd hok hno'
      · exact ih h h'

/-- What is reported is the entry of a rule that fails. -/
theorem mem_of_reports {rules : Rules γ} {d : γ} (h : Reports rules d) :
    ∃ rule ∈ rules, ¬ rule.1 ∧ rule.2 = d := by
  induction rules with
  | nil => exact h.elim
  | cons rule rules ih =>
    obtain ⟨ok, c⟩ := rule
    rcases h with ⟨hno, rfl⟩ | ⟨-, h⟩
    · exact ⟨(ok, c), List.mem_cons_self, hno, rfl⟩
    · obtain ⟨rule, hmem, hrule⟩ := ih h
      exact ⟨rule, List.mem_cons_of_mem _ hmem, hrule⟩

end Rules

/-! ## Runs that follow one -/

/-- `m` returns when all of `rules` hold, and its error is of the kind of the first that fails. -/
def Follows (kind : γ → ε → Prop) (m : Run ε α) (rules : Rules γ) : Prop :=
  match m with
  | .ok _ => rules.Holds
  | .error (.err e) => ∃ c, rules.Reports c ∧ kind c e
  | .error (.panic _) => False

section Follows

variable {kind : γ → ε → Prop} {m : Run ε α} {f : α → Run ε β} {rules rules' : Rules γ} {P : Prop}
  {c : γ}

theorem Follows.ok {a : α} : Follows kind (.ok a : Run ε α) [] := Rules.holds_nil

/-- A step with one kind of error. -/
theorem Follows.single (hiff : (∃ a, m = .ok a) ↔ P) (herr : Errs m (kind c)) (hsafe : Safe m) :
    Follows kind m [(P, c)] := by
  rcases m with (e | why) | a
  · have hno : ¬ P := by
      intro hP
      obtain ⟨a, ha⟩ := hiff.2 hP
      cases ha
    exact ⟨c, .inl ⟨hno, rfl⟩, herr e rfl⟩
  · exact hsafe.elim
  · exact Rules.holds_cons.2 ⟨hiff.1 ⟨a, rfl⟩, Rules.holds_nil⟩

theorem Follows.ok_or {o : Option α} {e : ε} (hiff : (∃ a, o = some a) ↔ P) (hc : kind c e) :
    Follows kind (Rust.ok_or o e) [(P, c)] := by
  refine Follows.single ?_ (Errs.ok_or hc) Safe.ok_or
  simp only [ok_or_eq_ok, hiff]

theorem Follows.reject_if {bad : Prop} [Decidable bad] {e : ε} (hiff : ¬ bad ↔ P)
    (hc : kind c e) : Follows kind (Rust.reject_if bad e) [(P, c)] := by
  refine Follows.single ?_ (Errs.reject_if hc) Safe.reject_if
  simp only [reject_if_eq_ok, exists_const, hiff]

/-- A rule that holds may stand in front. -/
theorem Follows.pass (hP : P) (h : Follows kind m rules) : Follows kind m ((P, c) :: rules) := by
  rcases m with (e | why) | a
  · obtain ⟨d, hd, he⟩ := h
    exact ⟨d, .inr ⟨hP, hd⟩, he⟩
  · exact h
  · exact Rules.holds_cons.2 ⟨hP, h⟩

/-- A rule that fails hides those behind it. -/
theorem Follows.stop (hP : ¬ P) {e : ε} (hc : kind c e) :
    Follows kind (Rust.fail e : Run ε α) ((P, c) :: rules) := ⟨c, .inl ⟨hP, rfl⟩, hc⟩

/-- The sequencing rule. -/
theorem Follows.bind (hm : Follows kind m rules)
    (hf : ∀ a, m = .ok a → Follows kind (f a) rules') :
    Follows kind (m >>= f) (rules ++ rules') := by
  rcases m with (e | why) | a
  · obtain ⟨d, hd, he⟩ := hm
    exact ⟨d, Rules.reports_append.2 (.inl hd), he⟩
  · exact hm.elim
  · rw [ok_bind]
    have hfa := hf a rfl
    cases hres : f a with
    | ok b =>
      rw [hres] at hfa
      exact Rules.holds_append.2 ⟨hm, hfa⟩
    | error fault =>
      rw [hres] at hfa
      cases fault with
      | err e =>
        obtain ⟨d, hd, he⟩ := hfa
        exact ⟨d, Rules.reports_append.2 (.inr ⟨hm, hd⟩), he⟩
      | panic why => exact hfa

/-- A step in front of a list. -/
theorem Follows.cons (hm : Follows kind m [(P, c)])
    (hf : ∀ a, m = .ok a → Follows kind (f a) rules) :
    Follows kind (m >>= f) ((P, c) :: rules) := Follows.bind hm hf

/-- A result that is built behind the last step. -/
theorem Follows.map {g : α → β} (hm : Follows kind m rules) :
    Follows kind (m >>= fun a => .ok (g a)) rules := by
  rcases m with (e | why) | a
  · exact hm
  · exact hm
  · exact hm

theorem Follows.returns_iff (h : Follows kind m rules) : (∃ a, m = .ok a) ↔ rules.Holds := by
  rcases m with (e | why) | a
  · obtain ⟨d, hd, -⟩ := h
    exact iff_of_false (by simp) (Rules.not_holds_of_reports hd)
  · exact h.elim
  · exact iff_of_true ⟨a, rfl⟩ h

theorem Follows.reports {e : ε} (h : Follows kind m rules) (he : m = .error (.err e)) :
    ∃ d, rules.Reports d ∧ kind d e := by
  subst he
  exact h

/-- The kinds are told apart by `report`. -/
theorem Follows.reports_iff {report : ε → γ} (hkind : ∀ d e, kind d e → report e = d)
    (h : Follows kind m rules) (d : γ) :
    (∃ e, m = .error (.err e) ∧ report e = d) ↔ rules.Reports d := by
  rcases m with (e | why) | a
  · obtain ⟨d', hd', he⟩ := h
    constructor
    · rintro ⟨e', he', rfl⟩
      obtain rfl : e = e' := Fault.err.inj (Except.error.inj he')
      rw [hkind d' e he]
      exact hd'
    · intro hd
      exact ⟨e, rfl, (hkind d' e he).trans (Rules.reports_unique hd' hd)⟩
  · exact h.elim
  · refine iff_of_false ?_ fun hd => Rules.not_holds_of_reports hd h
    rintro ⟨e, he, -⟩
    cases he

end Follows

end Rust
