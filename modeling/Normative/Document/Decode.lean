import Normative.Document.Read
import Normative.OrderedMap
import Normative.Text.Word

/-!
# Decoding of documents

A decoder turns a value into data, or refuses it. Records are decoded by the names of their fields:
members under other names are passed over, and a field may not be written twice. A record may also
be written as the array of its fields in order, of which the last ones may be left out. Tables keep
the order of their keys.

## Main definitions

* `Document.text?`, `Document.list?`, `Document.table?`, `Document.optional?`, `Document.int64?` :
  decoders of simple values.
* `Document.fields?`, `Document.field?`, `Document.required?` : decoders of records.
* `Document.decode?` : a decoder applied to a text.
-/

namespace Normative.Document

variable {α : Type}

/-- A text. -/
def text? : Value → Option String
  | .string text => text
  | _ => none

/-- A list of values of one kind. -/
def list? (item? : Value → Option α) : Value → Option (List α)
  | .array items => items.mapM item?
  | _ => none

/-- A member whose key spells a text. -/
def member? (value? : Value → Option α) (m : Spelled × Value) : Option (String × α) := do
  return (← m.1, ← value? m.2)

/-- A table of values of one kind. -/
def table? (value? : Value → Option α) : Value → Option (OrderedMap α)
  | .object members => (members.mapM (member? value?)).map OrderedMap.ofList
  | _ => none

/-- A value that may be null. -/
def optional? (value? : Value → Option α) : Value → Option (Option α)
  | .null => some none
  | value => (value? value).map some

/-- The least magnitude that a positive number of 64 bits does not reach. -/
def int64Limit : Nat := 0x8000000000000000

/-- A whole number of 64 bits. It has no fraction and no exponent, and zero has no sign. -/
def int64? : Value → Option Int
  | .number ⟨isNegative, whole, none, none⟩ =>
    let magnitude := Text.digitsValue whole
    if isNegative then
      if 0 < magnitude && magnitude ≤ int64Limit then some (Int.negOfNat magnitude) else none
    else if magnitude < int64Limit then some (Int.ofNat magnitude) else none
  | _ => none

/-- The fields of a record that are present, by name. -/
abbrev Fields := List (String × Value)

/-- The fields of a record whose field names are given in order. -/
def fields? (names : List String) : Value → Option Fields
  | .object members => do
    let known := (← members.mapM (member? some)).filter (fun m ↦ names.contains m.1)
    if (known.map Prod.fst).Nodup then some known else none
  | .array items => if items.length ≤ names.length then some (names.zip items) else none
  | _ => none

/-- The value of a field, which may be missing. -/
def field? (fields : Fields) (name : String) (value? : Value → Option α) (default : α) : Option α :=
  match fields.lookup name with
  | some value => value? value
  | none => some default

/-- The value of a field that may not be missing. -/
def required? (fields : Fields) (name : String) (value? : Value → Option α) : Option α :=
  (fields.lookup name).bind value?

/-- The data that a text writes. -/
def decode? (value? : Value → Option α) (text : String) : Option α := (read? text).bind value?

end Normative.Document
