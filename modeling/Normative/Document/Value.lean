/-!
# Values of a document

Configurations and legal contexts are documents in JSON. A value keeps the members of an object in
the order in which they are written, repeated keys included. Since a part of a document that is
not used only has to be well-formed, a string is allowed to spell no text at all: its escapes may
leave half of a surrogate pair alone. Such a string is kept as `none`.
-/

namespace Normative.Document

/-- A number as it is written. -/
structure Numeral where
  isNegative : Bool
  whole : List Char
  fraction : Option (List Char)
  exponent : Option (List Char)
  deriving DecidableEq

/-- The text that a string spells, if its escapes spell one. -/
abbrev Spelled := Option String

/-- A value of a document. -/
inductive Value where
  | null
  | bool (value : Bool)
  | number (numeral : Numeral)
  | string (text : Spelled)
  | array (items : List Value)
  | object (members : List (Spelled × Value))

end Normative.Document
