/-
Calls that can **fail or panic**: the outcome type of every modelled Rust function,
and the triple the rest of the development states its specifications with.

A Rust function of type `Result<T, E>` can end in three ways: `Ok`, `Err`, or a
panic (an index out of range, a slice off a character boundary, a failed `expect`,
an overflowing addition in a checked build). `Run ε α` keeps the three apart, so
that "never panics" is a statement about the model and not an assumption of it.

`Post m Q` is the triple: `m` does not panic, and when it returns `a` then `Q a`.
It says nothing about an `Err`, which is an answer like any other. `Post.bind` is
the sequencing rule and `Post.mono` the rule of consequence; a function's
specification is one `Post` lemma, and a caller composes the lemmas of its callees
without unfolding them. `bind_eq_ok` is the other way in: it peels a run that is
known to have returned into its steps.
-/
import Mathlib

set_option autoImplicit false

namespace Rust

/-- What made a call panic. -/
inductive Panic where
  /-- `v[i]` with `i` out of range -/
  | index
  /-- `s[i..j]` out of range, or off a character boundary -/
  | slice
  /-- `copy_from_slice` between slices of different lengths -/
  | copyLength
  /-- `expect` on a `None` or an `Err` -/
  | expect
  /-- a failed `assert!` or `debug_assert!` -/
  | assertion
  /-- integer overflow in a build with overflow checks -/
  | overflow
  /-- `Vec::with_capacity` past `isize::MAX` bytes -/
  | capacity
  deriving DecidableEq, Repr

/-- The two ways of not returning `Ok`. -/
inductive Fault (ε : Type) where
  | err (e : ε)
  | panic (why : Panic)
  deriving Repr

/-- A call: `.ok a` is `Ok(a)`, `.error (.err e)` is `Err(e)`, and
`.error (.panic why)` is a panic. -/
abbrev Run (ε α : Type) := Except (Fault ε) α

variable {ε α β : Type}

/-- `return Err(e)`. -/
def fail (e : ε) : Run ε α := .error (.err e)

/-- `panic!`. -/
def panicked (why : Panic) : Run ε α := .error (.panic why)

/-- `Option::ok_or`. -/
def ok_or (o : Option α) (e : ε) : Run ε α :=
  match o with
  | some a => .ok a
  | none => fail e

/-- `if bad { return Err(e) }`. -/
def reject_if (bad : Prop) [Decidable bad] (e : ε) : Run ε Unit :=
  if bad then fail e else .ok ()

/-- `Result::map_err`. A panic is not an `Err` and passes through. -/
def map_err {ε' : Type} (m : Run ε α) (f : ε → ε') : Run ε' α :=
  match m with
  | .ok a => .ok a
  | .error (.err e) => fail (f e)
  | .error (.panic why) => panicked why

/-- `Option::expect`. -/
def expect (o : Option α) : Run ε α :=
  match o with
  | some a => .ok a
  | none => panicked .expect

/-- `assert!` and `debug_assert!`. -/
def assert (holds : Prop) [Decidable holds] : Run ε Unit :=
  if holds then .ok () else panicked .assertion

/-- A list of checks, in order: the first one violated is the error. -/
def reject_first : List (Bool × ε) → Run ε Unit
  | [] => .ok ()
  | (bad, e) :: checks => if bad then fail e else reject_first checks

/-! ## Peeling a run that returned -/

@[simp] theorem bind_eq_ok {m : Run ε α} {f : α → Run ε β} {b : β} :
    (m >>= f) = .ok b ↔ ∃ a, m = .ok a ∧ f a = .ok b := by
  cases m with
  | ok a => simp [bind, Except.bind]
  | error e => simp [bind, Except.bind]

@[simp] theorem ok_bind {a : α} {f : α → Run ε β} : ((.ok a : Run ε α) >>= f) = f a := rfl

@[simp] theorem error_bind {e : Fault ε} {f : α → Run ε β} :
    ((.error e : Run ε α) >>= f) = .error e := rfl

@[simp] theorem pure_eq_ok (a : α) : (pure a : Run ε α) = .ok a := rfl

@[simp] theorem fail_bind {e : ε} {f : α → Run ε β} : ((fail e : Run ε α) >>= f) = fail e := rfl

@[simp] theorem fail_ne_ok {e : ε} {a : α} : (fail e : Run ε α) ≠ .ok a := by simp [fail]

@[simp] theorem panicked_ne_ok {why : Panic} {a : α} : (panicked why : Run ε α) ≠ .ok a := by
  simp [panicked]

@[simp] theorem ok_or_eq_ok {o : Option α} {e : ε} {a : α} :
    ok_or o e = .ok a ↔ o = some a := by
  cases o <;> simp [ok_or]

@[simp] theorem ok_or_some {a : α} {e : ε} : ok_or (some a) e = .ok a := rfl

@[simp] theorem ok_or_none {e : ε} : (ok_or none e : Run ε α) = fail e := rfl

@[simp] theorem reject_if_eq_ok {bad : Prop} [Decidable bad] {e : ε} {u : Unit} :
    reject_if bad e = .ok u ↔ ¬ bad := by
  by_cases h : bad <;> simp [reject_if, h]

@[simp] theorem map_err_eq_ok {ε' : Type} {m : Run ε α} {f : ε → ε'} {a : α} :
    map_err m f = .ok a ↔ m = .ok a := by
  rcases m with (_ | _) | _ <;> simp [map_err]

@[simp] theorem expect_eq_ok {o : Option α} {a : α} :
    (expect o : Run ε α) = .ok a ↔ o = some a := by
  cases o <;> simp [expect]

@[simp] theorem assert_eq_ok {holds : Prop} [Decidable holds] {u : Unit} :
    (assert holds : Run ε Unit) = .ok u ↔ holds := by
  by_cases h : holds <;> simp [assert, h]

/-- The result of a closed run can be decided, although its errors cannot be compared. -/
theorem eq_ok_of_toOption {m : Run ε α} {a : α} (h : m.toOption = some a) : m = .ok a := by
  cases m with
  | ok b => exact congrArg Except.ok (Option.some.inj h)
  | error e => simp [Except.toOption] at h

theorem reject_if_of_not {bad : Prop} [Decidable bad] {e : ε} (h : ¬ bad) :
    reject_if bad e = .ok () := reject_if_eq_ok.2 h

theorem reject_if_of {bad : Prop} [Decidable bad] {e : ε} (h : bad) :
    reject_if bad e = fail e := if_pos h

/-! ## Lists of checks -/

theorem reject_first_append (xs ys : List (Bool × ε)) :
    reject_first (xs ++ ys) = (do reject_first xs; reject_first ys) := by
  -- a violated check ends both sides, a passed one leaves the rest of both
  induction xs with
  | nil => rfl
  | cons c xs ih =>
    obtain ⟨bad, e⟩ := c
    cases bad with
    | true => rfl
    | false => simpa [reject_first] using ih

theorem reject_first_eq_ok {checks : List (Bool × ε)} {u : Unit} :
    reject_first checks = .ok u ↔ ∀ c ∈ checks, c.1 = false := by
  induction checks with
  | nil => simp [reject_first]
  | cons c checks ih =>
    obtain ⟨bad, e⟩ := c
    cases bad with
    | true => simp [reject_first]
    | false => simpa [reject_first] using ih

/-- When some check is violated, the error is that of one that is. -/
theorem reject_first_eq_fail {checks : List (Bool × ε)} (h : ∃ c ∈ checks, c.1 = true) :
    ∃ c ∈ checks, c.1 = true ∧ reject_first checks = fail c.2 := by
  induction checks with
  | nil => simp at h
  | cons c checks ih =>
    obtain ⟨bad, e⟩ := c
    cases bad with
    | true => exact ⟨(true, e), by simp, rfl, rfl⟩
    | false =>
      -- the head passed, so the violated check is further down
      obtain ⟨c, hc, hbad, heq⟩ := ih (by simpa using h)
      exact ⟨c, List.mem_cons_of_mem _ hc, hbad, heq⟩

/-- A partial function that is total below a bound is a check of the bound. -/
theorem ok_or_ite {n b : ℕ} {a : α} {e : ε} :
    ok_or (if n < b then some a else none) e = (do reject_first [(decide (b ≤ n), e)]; .ok a) := by
  by_cases h : n < b
  · rw [if_pos h, ok_or_some, decide_eq_false (by omega)]
    rfl
  · rw [if_neg h, ok_or_none, decide_eq_true (by omega)]
    rfl

/-- Checks in front of a result stay in front of what is done with it. -/
theorem checked_bind {checks : List (Bool × ε)} {a : α} {f : α → Run ε β} :
    ((do reject_first checks; .ok a : Run ε α) >>= f) = (do reject_first checks; f a) := by
  cases reject_first checks <;> rfl

theorem reject_first_seq {xs ys : List (Bool × ε)} {m : Run ε α} :
    (do reject_first xs; reject_first ys; m) = (do reject_first (xs ++ ys); m) := by
  rw [reject_first_append]
  cases reject_first xs <;> rfl

/-- What stands behind the checks may assume that they passed. -/
theorem reject_first_congr {checks : List (Bool × ε)} {m m' : Run ε α}
    (h : (∀ c ∈ checks, c.1 = false) → m = m') :
    (do reject_first checks; m) = (do reject_first checks; m') := by
  cases hr : reject_first checks with
  | error e => rfl
  | ok u =>
    rw [ok_bind, ok_bind]
    exact h (reject_first_eq_ok.1 hr)

/-! ## The triple -/

/-- `m` does not panic, and when it returns `a`, `Q a` holds. -/
def Post (m : Run ε α) (Q : α → Prop) : Prop :=
  match m with
  | .ok a => Q a
  | .error (.err _) => True
  | .error (.panic _) => False

/-- `m` returns `Ok` or `Err`. -/
def Safe (m : Run ε α) : Prop := Post m fun _ => True

@[simp] theorem Post.err {e : ε} {Q : α → Prop} : Post (fail e : Run ε α) Q := trivial

theorem Post.mono {m : Run ε α} {P Q : α → Prop} (h : Post m P) (hPQ : ∀ a, P a → Q a) :
    Post m Q := by
  -- an `Err` satisfies every postcondition, and a panic none
  rcases m with (_ | _) | a
  · trivial
  · exact h
  · exact hPQ a h

theorem Post.safe {m : Run ε α} {Q : α → Prop} (h : Post m Q) : Safe m :=
  h.mono fun _ _ => trivial

/-- The sequencing rule. -/
theorem Post.bind {m : Run ε α} {f : α → Run ε β} {P : α → Prop} {Q : β → Prop}
    (hm : Post m P) (hf : ∀ a, P a → Post (f a) Q) : Post (m >>= f) Q := by
  rcases m with (_ | _) | a
  · trivial
  · exact hm
  · exact hf a hm

/-- Sequencing, when nothing has to be remembered of the first step. -/
theorem Safe.bind {m : Run ε α} {f : α → Run ε β} {Q : β → Prop}
    (hm : Safe m) (hf : ∀ a, Post (f a) Q) : Post (m >>= f) Q :=
  Post.bind hm fun a _ => hf a

theorem Post.of_eq_ok {m : Run ε α} {Q : α → Prop} {a : α} (h : Post m Q) (hm : m = .ok a) :
    Q a := by
  subst hm
  exact h

theorem Post.ok_or {o : Option α} {e : ε} {Q : α → Prop} (h : ∀ a, o = some a → Q a) :
    Post (Rust.ok_or o e) Q := by
  cases o with
  | none => trivial
  | some a => exact h a rfl

theorem Post.reject_if {bad : Prop} [Decidable bad] {e : ε} :
    Post (Rust.reject_if bad e) fun _ => ¬ bad := by
  by_cases h : bad
  · rw [reject_if_of h]; trivial
  · rw [reject_if_of_not h]; exact h

theorem Post.map_err {ε' : Type} {m : Run ε α} {f : ε → ε'} {Q : α → Prop} (h : Post m Q) :
    Post (Rust.map_err m f) Q := by
  rcases m with (_ | _) | a
  · trivial
  · exact h
  · exact h

@[simp] theorem Safe.ok {a : α} : Safe (.ok a : Run ε α) := trivial

@[simp] theorem Safe.fail {e : ε} : Safe (Rust.fail e : Run ε α) := trivial

@[simp] theorem Safe.ok_or {o : Option α} {e : ε} : Safe (Rust.ok_or o e) := by
  cases o <;> trivial

@[simp] theorem Safe.reject_if {bad : Prop} [Decidable bad] {e : ε} :
    Safe (Rust.reject_if bad e) := Post.reject_if.safe

/-- A safe run is `Ok` or `Err`: the shape in which a caller reads the absence of panics. -/
theorem Safe.ok_or_err {m : Run ε α} (h : Safe m) :
    (∃ a, m = .ok a) ∨ ∃ e, m = .error (.err e) := by
  rcases m with (e | why) | a
  · exact .inr ⟨e, rfl⟩
  · exact h.elim
  · exact .inl ⟨a, rfl⟩

end Rust
