import Normative.Token

/-!
# Norms

A norm binds a role to an action under a deontic position. It may name the object on which the
action bears, and it may depend on conditions: free texts, or other norms. A norm is written by the
author of a schema or generated by a rule, and a generated norm keeps the rule that made it, so
that the rule is not applied twice.
-/

namespace Normative

/-- A condition of a norm: a free text, or another norm. -/
inductive Condition where
  | text (description : String)
  | norm (id : NormId)
  deriving DecidableEq

/-- Where a norm comes from. -/
inductive Origin where
  /-- The author of the schema wrote the norm. -/
  | authored
  /-- The norm is an entry of the list of defaults of a legal domain. -/
  | domainDefault (domain : String) (index : Nat)
  /-- The norm is a template of the legal domain applied to an authored norm. -/
  | template (trigger : NormId) (index : Nat)
  /-- The norm is an entry of the list that belongs to the identifier of an authored norm. -/
  | conditional (trigger : NormId) (index : Nat)
  deriving DecidableEq

/-- A norm. -/
structure Norm where
  id : NormId
  role : String
  deontic : Deontic
  action : String
  scope : Option String
  conditions : List Condition
  origin : Origin
  deriving DecidableEq

/-- Whether the author of the schema wrote a norm. -/
def Norm.isAuthored (norm : Norm) : Bool := norm.origin = .authored

end Normative
