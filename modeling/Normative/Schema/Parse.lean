import Normative.Schema.Grammar

/-!
# The schema that a text writes

The items of a text are read one after the other and added to the schema as they are read, so that
the first fault of the text is the one that is reported, be it of the grammar or of a norm that the
schema refuses.

## Main definitions

* `Schema.addItem` : a schema with one more item.
* `Schema.parse` : the schema that a text writes.
-/

namespace Normative.Schema

open Grammar (Item item item_shrinks)

/-- Add an item that was read. -/
def addItem (schema : Schema) : Item → Except ParseFault Schema
  | .norm number norm => (schema.addNorm norm).mapError (ParseFault.refused number)
  | .violation violation => .ok (schema.addViolation violation)
  | .fact fact => .ok (schema.addFact fact)
  | .agenda agenda => .ok (schema.addAgenda agenda)

/-- Read items until nothing is left, and add each of them to the schema. -/
def addItems (institutionName : String) (schema : Schema) (input : List Lexeme) :
    Except ParseFault Schema :=
  if input.isEmpty then .ok schema
  else
    match _h : item institutionName input with
    | .error fault => .error fault
    | .ok (item, rest) =>
      match schema.addItem item with
      | .error fault => .error fault
      | .ok schema => addItems institutionName schema rest
termination_by input.length
decreasing_by exact item_shrinks _ _ _ _ _h

/-- The schema that a list of lexemes writes. -/
def ofLexemes (input : List Lexeme) : Except ParseFault Schema := do
  let (institution, input) ← Grammar.institution input
  addItems institution.name { empty with institution := some institution } input

/-- The schema that a text writes. -/
def parse (text : String) : Except ParseError Schema :=
  (ofLexemes (lexemes text)).mapError (fun fault ↦ ⟨fault.position (endPosition text), fault⟩)

end Normative.Schema
