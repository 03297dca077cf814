/-
The code `#[derive(Serialize, Deserialize)]` stands for, on JSON values.

A struct is written as an object, one member a field, in the order of the declaration; a
field marked skip-if-none is left out when it is `None`, and is `null` otherwise. It is read
from an object by the names of its members, whatever others there are, or from an array by
position. A field of type `Option` may be missing from an object. A unit variant is written
as its name, and read from its name or from an object with the name as its only member.

A reader answers `none` where the derived code answers an error; which error is not modelled.
-/
import TxCompiler.Json

set_option autoImplicit false

namespace Serde

open Json Rust

variable {α : Type}

/-! ## Names -/

/-- `rename_all = "snake_case"` on a variant: an underscore before each capital but the first. -/
def snake_case (variant : String) : String :=
  match variant.toList with
  | [] => ""
  | c :: cs =>
    String.ofList (c.toLower ::
      cs.flatMap fun c => if c.isUpper then ['_', c.toLower] else [c.toLower])

/-- `rename_all = "SCREAMING_SNAKE_CASE"`. -/
def screaming_snake_case (variant : String) : String :=
  String.ofList ((snake_case variant).toList.map Char.toUpper)

/-! ## Writing -/

/-- A member that is left out when it is `None`. -/
def skip_none (name : String) (write : α → Value) (o : Option α) : Map :=
  match o with
  | some a => [(name, write a)]
  | none => []

/-- A name is looked up in the first object, and in the second if it is not there. -/
theorem get_append (m m' : Map) (field : String) :
    Map.get (m ++ m') field = (Map.get m field).or (Map.get m' field) := by
  induction m with
  | nil => simp
  | cons entry m ih =>
    obtain ⟨name, value⟩ := entry
    rw [List.cons_append, Map.get_cons, Map.get_cons, ih]
    -- the first member of a name shadows the later ones
    by_cases h : name = field
    · rw [if_pos h, if_pos h]
      rfl
    · rw [if_neg h, if_neg h]

/-- A member is found under its own name, unless it was skipped. -/
theorem get_skip_none (name : String) (write : α → Value) (o : Option α) (field : String) :
    Map.get (skip_none name write o) field = if name = field then o.map write else none := by
  cases o <;> simp [skip_none, Map.get_cons]

/-! ## Reading -/

/-- What the fields of a struct are read from. -/
inductive Source where
  | members (m : Map)
  | elements (xs : List Value)

/-- An array has to have one element a field. -/
def source (fields : ℕ) : Value → Option Source
  | .object m => some (.members m)
  | .array xs => if xs.length = fields then some (.elements xs) else none
  | _ => none

/-- The value of a field, by name or by position. -/
def Source.field : Source → ℕ → String → Option Value
  | .members m, _, name => m.get name
  | .elements xs, index, _ => xs[index]?

def read_string : Value → Option String
  | .string s => some s
  | _ => none

def read_u64 : Value → Option UInt64 := Value.as_u64

def read_u32 (v : Value) : Option UInt32 := v.as_u64.bind u32_try_from_u64

def read_u8 (v : Value) : Option UInt8 := v.as_u64.bind u8_try_from_u64

def read_i64 : Value → Option Int64 := Value.as_i64

/-- A unit variant. -/
def read_variant (variant : String → Option α) : Value → Option α
  | .string s => variant s
  | .object [(s, .null)] => variant s
  | _ => none

/-- `null` is `None`. -/
def read_option (read : Value → Option α) (v : Value) : Option (Option α) :=
  if v.is_null then some none else (read v).map some

def required (src : Source) (index : ℕ) (name : String) (read : Value → Option α) : Option α :=
  (src.field index name).bind read

/-- A field of type `Option`. -/
def optional (src : Source) (index : ℕ) (name : String) (read : Value → Option α) :
    Option (Option α) :=
  match src.field index name with
  | none => some none
  | some v => read_option read v

/-! ## Reading what was written -/

section RoundTrip

variable {m : Map} {name : String} {read : Value → Option α} {write : α → Value}

theorem required_of_get {index : ℕ} {a : α} (hget : m.get name = some (write a))
    (h : read (write a) = some a) : required (.members m) index name read = some a := by
  rw [required, Source.field, hget, Option.bind_some, h]

theorem read_option_write {a : α} (h : read (write a) = some a) (hnull : write a ≠ .null) :
    read_option read (write a) = some (some a) := by
  have hne : (write a).is_null = false := by
    rw [← Bool.not_eq_true, Value.is_null_eq_true]
    exact hnull
  simp [read_option, hne, h]

/-- A field that was skipped or written reads back; `null` must not be what a value is
written as. -/
theorem optional_of_get {index : ℕ} {o : Option α} (hget : m.get name = o.map write)
    (h : ∀ a, read (write a) = some a) (hnull : ∀ a, write a ≠ .null) :
    optional (.members m) index name read = some o := by
  rw [optional, Source.field, hget]
  cases o with
  | none => rfl
  | some a => exact read_option_write (h a) (hnull a)

/-- A field that is `null` when it is `None` reads back too. -/
theorem optional_of_get_null {index : ℕ} {o : Option α}
    (hget : m.get name = some (Value.from_option write o)) (h : ∀ a, read (write a) = some a)
    (hnull : ∀ a, write a ≠ .null) : optional (.members m) index name read = some o := by
  rw [optional, Source.field, hget]
  cases o with
  | none => rfl
  | some a => exact read_option_write (h a) (hnull a)

end RoundTrip

end Serde
