import Normative.Text.Fold

/-!
# Keywords of the schema language

The closed vocabularies of a schema: the deontic position of a norm, the kind and the multiplicity
of an institution, and the outcome that an agenda asks for. Each is read from its Spanish keyword
in any letter case, and every vocabulary has a value for words that it does not know.

## Main definitions

* `Deontic`, `InstitutionKind`, `Multiplicity`, `Compliance` : the vocabularies.
* `Deontic.ofKeyword?`, `Deontic.ofKeyword`, … : the readings of a keyword.
-/

namespace Normative

open Text (sameFold memFold)

/-- The four deontic positions that a norm can take. -/
inductive Deontic where
  | obligation
  | prohibition
  | privilege
  | claimRight
  deriving DecidableEq

namespace Deontic

/-- The keyword of a deontic position. -/
def keyword : Deontic → String
  | obligation => "debe"
  | prohibition => "no-debe"
  | privilege => "puede"
  | claimRight => "tiene-derecho-a"

/-- The operator that a deontic position has in a clause. -/
def operator : Deontic → String
  | obligation => "OB"
  | prohibition => "PR"
  | privilege => "PVG"
  | claimRight => "CR"

/-- The deontic positions, in the order in which their keywords are tried. -/
def all : List Deontic := [obligation, prohibition, privilege, claimRight]

/-- The position with a given keyword, letter case apart. -/
def ofKeyword? (word : String) : Option Deontic := all.find? (fun d ↦ sameFold word d.keyword)

/-- The position with a given keyword; any other word is an obligation. -/
def ofKeyword (word : String) : Deontic := (ofKeyword? word).getD obligation

/-- The position named by a corpus, letter for letter. A norm without a name, or with an unknown
one, is an obligation. -/
def ofCorpusName : Option String → Deontic
  | some "prohibicion" => prohibition
  | some "privilegio" => privilege
  | some "derecho" => claimRight
  | _ => obligation

end Deontic

/-- The kinds of legal institution. -/
inductive InstitutionKind where
  | contract
  | procedure
  | legalAct
  | legalFact
  deriving DecidableEq

namespace InstitutionKind

/-- The label of a kind of institution. -/
def label : InstitutionKind → String
  | contract => "CONTRACT"
  | procedure => "PROCEDURE"
  | legalAct => "LEGAL_ACT"
  | legalFact => "LEGAL_FACT"

/-- The kind named by a type keyword; any other word names a contract. -/
def ofKeyword (word : String) : InstitutionKind :=
  if sameFold word "procedimiento" then procedure
  else if memFold word ["acto jurídico", "acto-juridico"] then legalAct
  else if memFold word ["hecho jurídico", "hecho-juridico"] then legalFact
  else contract

end InstitutionKind

/-- How many instances of an institution a schema describes. -/
inductive Multiplicity where
  | multiple
  | single
  deriving DecidableEq

/-- The multiplicity named by a keyword; any other word means several instances. -/
def Multiplicity.ofKeyword (word : String) : Multiplicity :=
  if memFold word ["una", "un", "single"] then single else multiple

/-- The outcome that an agenda asks to be established. -/
inductive Compliance where
  | fulfilled
  | breached
  deriving DecidableEq

namespace Compliance

/-- The outcome named by a keyword; any word other than that for a breach means fulfilment. -/
def ofKeyword (word : String) : Compliance :=
  if sameFold word "incumplimiento" then breached else fulfilled

/-- The operator that an outcome has in an agenda. -/
def operator : Compliance → String
  | fulfilled => "FULFILL"
  | breached => "BREACH"

/-- The part of an agenda's name that tells the outcome. -/
def label : Compliance → String
  | fulfilled => "Fulfillment"
  | breached => "Breach"

end Compliance

end Normative
