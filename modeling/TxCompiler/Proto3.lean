/-
What the proto3 rules make of a parsed message: its **canonical serialisation** under a
schema.

The wire reader of `Wire` knows no schema, and there are many byte strings a proto3 reader
takes for the same message: fields in another order, a scalar that is given twice, a zero
that is written out. A serialiser has no such choice. It writes the fields by ascending
number; a scalar without explicit presence is written once, and not at all when it is zero
or empty; a submessage is written once, its occurrences merged; a repeated one as often as
it occurs.

`Schema.reserialise` reads a byte string and writes it back by those rules. A field the
schema does not have is not kept. `written` is the part of the rules that concerns a
single entry: when every field occurs once and in order, what is left of a message are the
entries that are `written`.
-/
import TxCompiler.Wire

set_option autoImplicit false

namespace Proto3

open Wire

mutual

inductive Kind where
  /-- an integer or an enumeration, zero when absent -/
  | int
  /-- a string or a byte string, empty when absent -/
  | bytes
  /-- a submessage -/
  | message (schema : Schema)
  /-- a list of submessages -/
  | repeated (schema : Schema)

/-- The fields of a message, by ascending number. -/
inductive Schema where
  | nil
  | cons (number : ℕ) (kind : Kind) (rest : Schema)

end

/-! ## The rules -/

/-- The payloads of a field, in the order they occur. -/
def occurrences (number : ℕ) (es : List Entry) : List Payload :=
  es.filterMap fun e => if e.number = number then some e.payload else none

def as_ints (payloads : List Payload) : Option (List ℕ) :=
  payloads.mapM fun
    | .varint n => some n
    | .len _ => none

def as_strings (payloads : List Payload) : Option (List (List UInt8)) :=
  payloads.mapM fun
    | .len bs => some bs
    | .varint _ => none

mutual

/-- What is written of a field: nothing, one entry, or one for every submessage of a list. -/
def Kind.rewrite (number : ℕ) : Kind → List Payload → Option (List Entry)
  | .int, payloads => do
    let n := (← as_ints payloads).getLastD 0
    some (if n = 0 then [] else [⟨number, .varint n⟩])
  | .bytes, payloads => do
    let bs := (← as_strings payloads).getLastD []
    some (if bs = [] then [] else [⟨number, .len bs⟩])
  | .message schema, payloads => do
    let bss ← as_strings payloads
    if bss = [] then some []
    else do
      let es ← schema.rewrite (← parse bss.flatten)
      some [⟨number, .len (serialise es)⟩]
  | .repeated schema, payloads => do
    let bss ← as_strings payloads
    bss.mapM fun bs => do
      let es ← schema.rewrite (← parse bs)
      some ⟨number, .len (serialise es)⟩

def Schema.rewrite : Schema → List Entry → Option (List Entry)
  | .nil, _ => some []
  | .cons number kind rest, es => do
    let first ← kind.rewrite number (occurrences number es)
    let others ← rest.rewrite es
    some (first ++ others)

end

/-- Read a message and write it back. -/
def Schema.reserialise (schema : Schema) (bs : List UInt8) : Option (List UInt8) := do
  let es ← schema.rewrite (← parse bs)
  some (serialise es)

/-! ## One field -/

section Rewrite

variable {number : ℕ}

@[simp] theorem occurrences_nil : occurrences number [] = [] := rfl

@[simp] theorem occurrences_cons_self (payload : Payload) (es : List Entry) :
    occurrences number (⟨number, payload⟩ :: es) = payload :: occurrences number es := by
  simp [occurrences]

theorem occurrences_cons_ne {number' : ℕ} (h : number' ≠ number) (payload : Payload)
    (es : List Entry) : occurrences number (⟨number', payload⟩ :: es) = occurrences number es := by
  simp [occurrences, h]

theorem int_rewrite_one (n : ℕ) : Kind.int.rewrite number [.varint n]
    = some (if n = 0 then [] else [⟨number, .varint n⟩]) := rfl

theorem int_rewrite_none : Kind.int.rewrite number [] = some [] := rfl

theorem bytes_rewrite_one (bs : List UInt8) : Kind.bytes.rewrite number [.len bs]
    = some (if bs = [] then [] else [⟨number, .len bs⟩]) := rfl

/-- A submessage that occurs once is written back on its own, listed or not. -/
theorem message_rewrite_one {schema : Schema} {bs bs' : List UInt8}
    (h : schema.reserialise bs = some bs') :
    (Kind.message schema).rewrite number [.len bs] = some [⟨number, .len bs'⟩] ∧
      (Kind.repeated schema).rewrite number [.len bs] = some [⟨number, .len bs'⟩] := by
  -- the two steps of `reserialise`: the entries are read, then rewritten
  obtain ⟨es, hes, h⟩ := Option.bind_eq_some_iff.1 h
  obtain ⟨es', hes', h⟩ := Option.bind_eq_some_iff.1 h
  rw [← Option.some.inj h]
  simp [Kind.rewrite, as_strings, hes, hes']

theorem reserialise_of_parse {schema : Schema} {bs : List UInt8} {es es' : List Entry}
    (hparse : parse bs = some es) (hrewrite : schema.rewrite es = some es') :
    schema.reserialise bs = some (serialise es') := by
  simp [Schema.reserialise, hparse, hrewrite]

end Rewrite

/-! ## Messages in order -/

/-- The entry of a scalar field says something. -/
def written (e : Entry) : Bool := e.payload ≠ .varint 0 && e.payload ≠ .len []

/-- Leaving entries out makes a message no longer. -/
theorem length_serialise_filter_le (es : List Entry) (f : Entry → Bool) :
    (serialise (es.filter f)).length ≤ (serialise es).length :=
  ((List.filter_sublist (p := f)).flatMap Entry.write).length_le

end Proto3
