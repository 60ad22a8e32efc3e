import Normative.Keyword

/-!
# Tokens of the schema language

A schema is a sequence of words and quoted texts. Each of them is a token: a marker that opens a
part of the schema, a value such as a number or a deontic position, or a text of one of several
classes. Tokens that carry a text carry it as it was written, so that phrases can be put together
from them.

## Main definitions

* `NormId` : the identifier of a norm.
* `Token` : the classes of words and quoted texts.
* `Token.kind`, `Token.text?`, `Token.describe` : how a token is named in a message.
-/

namespace Normative

/-- The identifier of a norm, a number of 32 bits. -/
abbrev NormId := UInt32

/-- An identifier in decimal. -/
def NormId.decimal (id : NormId) : String := toString id.toNat

/-- The classes of words and quoted texts. -/
inductive Token where
  | quoted (text : String)
  | institution
  | number (id : NormId)
  | normReference
  | deontic (position : Deontic)
  | conditional
  | conjunction
  | violation
  | consequence
  | fact
  | evidence
  | seek
  | establish
  | compliance (outcome : Compliance)
  | adjudicate
  | essential
  | following
  | scope
  | institutionType (text : String)
  | multiplicity (text : String)
  | legalDomain (text : String)
  | role (text : String)
  | name (text : String)
  | word (text : String)
  deriving DecidableEq

namespace Token

/-- The class of a token as a message names it. -/
def kind : Token → String
  | quoted _ => "string"
  | institution => "institution marker"
  | number _ => "number"
  | normReference => "norm reference"
  | deontic _ => "deontic operator"
  | conditional => "conditional"
  | conjunction => "conjunction"
  | violation => "violation marker"
  | consequence => "consequence marker"
  | fact => "fact marker"
  | evidence => "evidence marker"
  | seek => "seek"
  | establish => "establish"
  | compliance _ => "compliance"
  | adjudicate => "adjudicate"
  | essential => "essential"
  | following => "following"
  | scope => "scope marker"
  | institutionType _ => "institution type"
  | multiplicity _ => "multiplicity"
  | legalDomain _ => "legal domain"
  | role _ => "role"
  | name _ => "name"
  | word _ => "word"

/-- The text that a token carries, for the classes that carry one. -/
def text? : Token → Option String
  | quoted text | institutionType text | multiplicity text | legalDomain text | role text
  | name text | word text => some text
  | _ => none

/-- A class or value in quotation marks after a label. -/
def quote (label text : String) : String := label ++ " '" ++ text ++ "'"

/-- A token in words: its value, or its class with the text it carries. -/
def describe : Token → String
  | number id => "number " ++ id.decimal
  | deontic position => quote "deontic" position.keyword
  | compliance outcome => "compliance " ++ outcome.operator
  | token =>
    match token.text? with
    | some text => quote token.kind text
    | none => token.kind

end Token

end Normative
