import Normative.Schema
import Normative.Token.Scan

/-!
# Faults of a schema text

A text is not a schema for one of two reasons: something was found where the grammar expects
something else, or a norm was read that the schema refuses. A fault is reported at the lexeme that
was found, at the end of the text if nothing was found, or at the number of the refused norm.

## Main definitions

* `Expectation` : what the grammar may expect.
* `ParseFault`, `ParseError` : a fault, and a fault with its place.
-/

namespace Normative

/-- What a production expects to find. -/
inductive Expectation where
  | institutionMarker
  | institutionName
  | item
  | normNumber
  | role
  | deontic
  | action
  | scope
  | condition
  | consequenceMarker
  | consequence
  | factDescription
  | evidenceMarker
  | evidence
  | seek
  | compliance
  | relief
  | remedy
  deriving DecidableEq

/-- An expectation in words. -/
def Expectation.describe : Expectation → String
  | institutionMarker => "institution marker"
  | institutionName => "institution name"
  | item => "norm, violation, fact or agenda"
  | normNumber => "norm number"
  | role => "role"
  | deontic => "deontic operator"
  | action => "action"
  | scope => "scope"
  | condition => "condition"
  | consequenceMarker => "'entonces'"
  | consequence => "consequence"
  | factDescription => "fact description"
  | evidenceMarker => "'evidencia'"
  | evidence => "evidence"
  | seek => "'busca'"
  | compliance => "'cumplimiento' or 'incumplimiento'"
  | relief => "'lo-esencial' or 'lo-siguiente'"
  | remedy => "remedy"

/-- Why a text is not a schema. -/
inductive ParseFault where
  /-- Something else was found than was expected; nothing was found at the end of the text. -/
  | unexpected (expected : Expectation) (found : Option Lexeme)
  /-- The norm whose number is given was refused. -/
  | refused (number : Lexeme) (refusal : NormRefusal)
  deriving DecidableEq

/-- The wording of a fault, without its place. -/
def ParseFault.message : ParseFault → String
  | unexpected expected none => "expected " ++ expected.describe ++ ", found end of input"
  | unexpected expected (some found) =>
    "expected " ++ expected.describe ++ ", found " ++ Token.quote found.token.kind found.raw
  | refused _ refusal => refusal.message

/-- The place of a fault in a text that ends at `finish`. -/
def ParseFault.position (finish : Position) : ParseFault → Position
  | unexpected _ none => finish
  | unexpected _ (some found) => found.position
  | refused number _ => number.position

/-- A fault with its place. -/
structure ParseError where
  position : Position
  fault : ParseFault
  deriving DecidableEq

/-- The wording of an error. -/
def ParseError.message (e : ParseError) : String :=
  "line " ++ toString e.position.line ++ ", column " ++ toString e.position.column ++ ": " ++
    e.fault.message

end Normative
