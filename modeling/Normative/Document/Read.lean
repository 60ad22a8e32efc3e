import Normative.Document.Mark

/-!
# The value that a document writes

Marks are read one after the other. The arrays and objects that are open are kept on a stack, so
that values may be nested to any depth.

## Main definitions

* `Document.Frame` : an array or object that is open.
* `Document.Reader` : what has been read, and what may come next.
* `Document.read?` : the value that a text writes, if it writes exactly one.
-/

namespace Normative.Document

/-- An array or object that is open, with the items or members read so far in reverse. The value of
the last key of an object is still to come. -/
inductive Frame where
  | array (items : List Value)
  | object (members : List (Spelled × Value)) (key : Spelled)

/-- What may come next after the marks that have been read; the stack holds the enclosing arrays
and objects, innermost first. -/
inductive Reader where
  /-- A value. -/
  | value (stack : List Frame)
  /-- The first item of an array, or its end. -/
  | firstItem (stack : List Frame)
  /-- The first key of an object, or its end. -/
  | firstKey (stack : List Frame)
  /-- A further key of an object. -/
  | nextKey (members : List (Spelled × Value)) (stack : List Frame)
  /-- The colon after a key. -/
  | keyColon (members : List (Spelled × Value)) (key : Spelled) (stack : List Frame)
  /-- A comma, or the end of an array. -/
  | afterItem (items : List Value) (stack : List Frame)
  /-- A comma, or the end of an object. -/
  | afterMember (members : List (Spelled × Value)) (stack : List Frame)
  /-- Nothing: the value is complete. -/
  | done (value : Value)

namespace Reader

/-- Put a complete value into its place. -/
def place (v : Value) : List Frame → Reader
  | [] => done v
  | .array items :: stack => afterItem (v :: items) stack
  | .object members key :: stack => afterMember ((key, v) :: members) stack

/-- Read a mark that begins a value. -/
def beginValue (stack : List Frame) : Mark → Option Reader
  | .openArray => some (firstItem stack)
  | .openObject => some (firstKey stack)
  | .null => some (place .null stack)
  | .bool b => some (place (.bool b) stack)
  | .number numeral => some (place (.number numeral) stack)
  | .string text => some (place (.string text) stack)
  | _ => none

/-- Read one mark. -/
def step : Reader → Mark → Option Reader
  | value stack, mark => beginValue stack mark
  | firstItem stack, .closeArray => some (place (.array []) stack)
  | firstItem stack, mark => beginValue (.array [] :: stack) mark
  | firstKey stack, .closeObject => some (place (.object []) stack)
  | firstKey stack, .string key => some (keyColon [] key stack)
  | nextKey members stack, .string key => some (keyColon members key stack)
  | keyColon members key stack, .colon => some (value (.object members key :: stack))
  | afterItem items stack, .comma => some (value (.array items :: stack))
  | afterItem items stack, .closeArray => some (place (.array items.reverse) stack)
  | afterMember members stack, .comma => some (nextKey members stack)
  | afterMember members stack, .closeObject => some (place (.object members.reverse) stack)
  | _, _ => none

/-- The value that has been read, if it is complete. -/
def result? : Reader → Option Value
  | done v => some v
  | _ => none

end Reader

/-- The value that a list of marks writes. -/
def ofMarks? (marks : List Mark) : Option Value :=
  (marks.foldlM Reader.step (.value [])).bind Reader.result?

/-- The value that a text writes, if it writes exactly one. -/
def read? (text : String) : Option Value := (marks text).bind ofMarks?

end Normative.Document
