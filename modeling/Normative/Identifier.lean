import Normative.Text.Word
import Normative.Text.Upper

/-!
# Names and literals of a generated program

In the language of generated programs a name begins with a letter and consists of ASCII letters,
digits and underscores; a literal holds none of the characters that delimit statements. The
functions of this file derive both from free text. A name that is derived from an action or from a
description ends in the position of the norm or fact it belongs to.

## Main definitions

* `Identifier.literal` : free text made fit to stand between quotation marks.
* `Identifier.letterFirst` : a lead in front of a name that begins with a digit.
* `Identifier.actionText`, `Identifier.normAsset`, `Identifier.fact`, `Identifier.variableName` :
  the derived names.
-/

namespace Normative.Identifier

open Text (isBlank firstWord upperChar)

/-- The characters that may not stand in a literal and are left out of it. -/
def isDelimiter (c : Char) : Bool :=
  ['$', '"', '\'', ',', ';', '\x7b', '%', '\x7d'].contains c

/-- The brackets, which become spaces in a literal. -/
def isBracket (c : Char) : Bool := ['(', ')', '[', ']'].contains c

/-- The characters of a literal. -/
def literalChars (text : List Char) : List Char :=
  (text.filter (fun c ↦ !isDelimiter c)).map (fun c ↦ if isBracket c then ' ' else c)

/-- Free text as it stands in a literal. -/
def literal (text : String) : String := String.ofList (literalChars text.toList)

/-- Put `lead` in front of a name that begins with a digit. -/
def letterFirst (name lead : String) : String :=
  match name.toList with
  | c :: _ => if c.isDigit then lead ++ name else name
  | [] => name

/-- The name of the subject that plays a role: the role in upper case. -/
def subject (role : String) : String := Text.upper role

/-- The first character in upper case, and the others as they are. -/
def capitalize (word : String) : String :=
  match word.toList with
  | [] => ""
  | c :: rest => String.ofList (upperChar c ++ rest)

/-- The greatest length of the part of a name that comes from an action. -/
def actionLimit : Nat := 30

/-- One character of an action added to the name built so far, which is held in reverse. A letter
or digit is kept, and any other character becomes an underscore unless the name is empty or ends
in one. A name that has reached the limit does not grow. -/
def addActionChar (name : List Char) (c : Char) : List Char :=
  if actionLimit ≤ name.length then name
  else if c.isAlphanum then c :: name
  else if name.isEmpty || name.head? == some '_' then name
  else '_' :: name

/-- The part of a name that comes from an action: letters and digits, with single underscores
between them. -/
def actionBody (action : List Char) : List Char :=
  ((action.foldl addActionChar []).dropWhile (· == '_')).reverse

/-- The name of the constant that holds the action of the norm at a position. -/
def actionText (action : String) (position : Nat) : String :=
  letterFirst (String.ofList (actionBody action.toList) ++ "_" ++ toString position) "accion_"

/-- The stem of an asset name: the letters and digits of the first word, capitalised. -/
def assetStem (text : String) : String :=
  match (firstWord text.toList).filter Char.isAlphanum with
  | [] => "Norm"
  | word => letterFirst (capitalize (String.ofList word)) "Norm"

/-- The name of the asset of the norm at a position. -/
def normAsset (action : String) (position : Nat) : String :=
  assetStem action ++ "Asset" ++ toString position

/-- The greatest length of the part of a name that comes from a description. -/
def descriptionLimit : Nat := 30

/-- The part of a name that comes from a description: letters and digits in upper case, and an
underscore for every blank. -/
def factBody (description : List Char) : List Char :=
  (((literalChars description).filter (fun c ↦ c.isAlphanum || isBlank c || c == '_')).map
    (fun c ↦ if isBlank c then '_' else c.toUpper)).take descriptionLimit

/-- The name of the fact at a position. -/
def fact (description : String) (position : Nat) : String :=
  letterFirst (String.ofList (factBody description.toList) ++ "_" ++ toString position) "FACT_"

/-- The greatest length of a variable name. -/
def variableLimit : Nat := 20

/-- A short variable name: the letters and digits of the first word of an action, in lower case. -/
def variableName (action : String) : String :=
  match ((firstWord action.toList).filter Char.isAlphanum).take variableLimit with
  | [] => "accion"
  | word => letterFirst (String.ofList (word.map Char.toLower)) "accion"

end Normative.Identifier
