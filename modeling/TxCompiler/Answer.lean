/-
What a run **answers**: its result, with the text of the error forgotten.

`Except.toOption` turns a run into an `Option`. It commutes with sequencing, so the answer of a
function is computed from the answers of its callees, and a function whose errors do not matter
becomes a chain of `Option.bind`s in which the checks are `Option.guard`s. Two runs may differ in
the order of their checks and in every message, and still answer alike.
-/
import TxCompiler.Run

set_option autoImplicit false

namespace Rust

variable {ε α β : Type}

@[simp] theorem toOption_ok (a : α) : (Except.ok a : Run ε α).toOption = some a := rfl

@[simp] theorem toOption_error (e : Fault ε) : (Except.error e : Run ε α).toOption = none := rfl

@[simp] theorem toOption_fail (e : ε) : (fail e : Run ε α).toOption = none := rfl

@[simp] theorem toOption_eq_some {m : Run ε α} {a : α} : m.toOption = some a ↔ m = .ok a := by
  cases m <;> simp

@[simp] theorem toOption_bind (m : Run ε α) (f : α → Run ε β) :
    (m >>= f).toOption = m.toOption.bind fun a => (f a).toOption := by
  cases m <;> rfl

@[simp] theorem toOption_ok_or (o : Option α) (e : ε) : (ok_or o e).toOption = o := by
  cases o <;> rfl

theorem toOption_reject_if (bad : Prop) [Decidable bad] (e : ε) :
    (reject_if bad e).toOption = if bad then none else some () := by
  unfold reject_if
  by_cases h : bad
  · rw [if_pos h, if_pos h]
    rfl
  · rw [if_neg h, if_neg h]
    rfl

/-- Runs that answer alike return the same results. -/
theorem eq_ok_iff_of_toOption {ε' : Type} {m : Run ε α} {m' : Run ε' α}
    (h : m.toOption = m'.toOption) (a : α) : m = .ok a ↔ m' = .ok a := by
  rw [← toOption_eq_some, h, toOption_eq_some]

end Rust
