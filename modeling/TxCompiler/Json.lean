/-
JSON values as `serde_json` holds them: the `Value` tree, its three kinds of number
and the accessors the modelled code reads it with.

A number is a `u64`, a negative `i64` or a float; which of the three is decided by
the JSON parser, and the accessors never convert between a float and an integer. A
float is kept as its 64 bits, because nothing is ever computed with it. An object is
the list of its members in insertion order; `get` finds the first member of a name,
and the objects of `serde_json` have only one.
-/
import TxCompiler.Slice

set_option autoImplicit false

namespace Json

open Rust

/-- A JSON number. -/
inductive Number where
  | posInt (n : UInt64)
  | negInt (i : Int64) (neg : i < 0)
  | float (bits : UInt64)
  deriving DecidableEq

/-- `serde_json::Value`. -/
inductive Value where
  | null
  | bool (b : Bool)
  | number (n : Number)
  | string (s : String)
  | array (xs : List Value)
  | object (members : List (String × Value))

/-- `serde_json::Map<String, Value>`. -/
abbrev Map := List (String × Value)

/-- `Map::get`. -/
def Map.get : Map → String → Option Value
  | [], _ => none
  | (k, v) :: rest, field => if k = field then some v else Map.get rest field

@[simp] theorem Map.get_nil (field : String) : Map.get [] field = none := rfl

theorem Map.get_cons (k : String) (v : Value) (rest : Map) (field : String) :
    Map.get ((k, v) :: rest) field = if k = field then some v else Map.get rest field := rfl

/-! ## Accessors -/

def Number.as_u64 : Number → Option UInt64
  | .posInt n => some n
  | _ => none

def Number.as_i64 : Number → Option Int64
  | .posInt n => i64_try_from_u64 n
  | .negInt i _ => some i
  | .float _ => none

namespace Value

def as_object : Value → Option Map
  | .object m => some m
  | _ => none

def as_str : Value → Option String
  | .string s => some s
  | _ => none

def as_u64 : Value → Option UInt64
  | .number n => n.as_u64
  | _ => none

def as_i64 : Value → Option Int64
  | .number n => n.as_i64
  | _ => none

def is_null : Value → Bool
  | .null => true
  | _ => false

@[simp] theorem as_object_eq_some {v : Value} {m : Map} : v.as_object = some m ↔ v = .object m := by
  cases v <;> simp [as_object]

@[simp] theorem as_str_eq_some {v : Value} {s : String} : v.as_str = some s ↔ v = .string s := by
  cases v <;> simp [as_str]

theorem as_str_eq_some_bind {raw : Option Value} {s : String} :
    raw.bind as_str = some s ↔ raw = some (.string s) := by
  cases raw <;> simp

theorem as_object_eq_some_bind {raw : Option Value} {m : Map} :
    raw.bind as_object = some m ↔ raw = some (.object m) := by
  cases raw <;> simp

@[simp] theorem as_u64_eq_some {v : Value} {n : UInt64} :
    v.as_u64 = some n ↔ v = .number (.posInt n) := by
  rcases v with _ | _ | (_ | _ | _) | _ | _ | _ <;> simp [as_u64, Number.as_u64]

@[simp] theorem is_null_eq_true {v : Value} : v.is_null = true ↔ v = .null := by
  cases v <;> simp [is_null]

/-! ## Conversions into values -/

/-- `Value::from` on a `u64`. -/
def from_u64 (n : UInt64) : Value := .number (.posInt n)

/-- `Value::from` on an `i64`. -/
def from_i64 (i : Int64) : Value :=
  if h : i < 0 then .number (.negInt i h) else .number (.posInt (UInt64.ofNat i.toInt.toNat))

/-- `Value::from` on a `usize`. -/
def from_usize (n : ℕ) : Value := .number (.posInt (UInt64.ofNat n))

/-- `null` on `None`. -/
def from_option {α : Type} (f : α → Value) : Option α → Value
  | none => .null
  | some a => f a

/-- An `i64` is read back as itself, on either side of zero. -/
theorem as_i64_from_i64 (i : Int64) : (from_i64 i).as_i64 = some i := by
  unfold from_i64
  split
  · rfl
  · next h =>
    -- not negative: it is written as an unsigned number, and read back through `try_from`
    have hnn : 0 ≤ i.toInt := by
      rw [Int64.lt_iff_toInt_lt] at h
      simpa using h
    have hlt := i.toInt_lt
    have hval : (UInt64.ofNat i.toInt.toNat).toNat = i.toInt.toNat := toNat_ofNat_u64 (by omega)
    show i64_try_from_u64 (UInt64.ofNat i.toInt.toNat) = some i
    rw [i64_try_from_u64, if_pos (by omega), hval, Option.some.injEq, ← Int64.toInt_inj,
      Int64.toInt_ofNat_of_lt (by omega)]
    omega

theorem from_i64_ne_null (i : Int64) : from_i64 i ≠ .null := by
  unfold from_i64
  split <;> simp

end Value

end Json
