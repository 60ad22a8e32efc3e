import Normative.Identifier
import Normative.Norm

/-!
# Schemas of legal institutions

A schema describes one legal institution by its norms, the consequences of violating them, facts
with their evidence, and the agendas of those who seek a decision. All parts are kept in the order
in which they were added. Identifiers of norms are unique, and authored norms arrive in increasing
order of their identifiers.

## Main definitions

* `Institution`, `Violation`, `LegalFact`, `Agenda` : the parts of a schema beside its norms.
* `Schema` : a schema.
* `Schema.Call` : a call on a schema, which leaves a schema whether it fails or not.
* `Schema.pushNorm` : the call that adds a norm, and the only one here that can fail.
* `Schema.roles` : the roles of a schema, one for every subject.
-/

namespace Normative

/-- A legal institution. -/
structure Institution where
  name : String
  /-- The type keyword as written. -/
  typeName : String
  multiplicity : Multiplicity
  /-- The legal domain as written, empty if there is none. -/
  legalDomain : String
  deriving DecidableEq

/-- The kind that the type keyword of an institution names. -/
def Institution.kind (institution : Institution) : InstitutionKind :=
  InstitutionKind.ofKeyword institution.typeName

/-- The norms that a violation refers to: one, or two at once. -/
inductive ViolatedNorms where
  | single (id : NormId)
  | compound (first second : NormId)
  deriving DecidableEq

/-- The identifiers of the violated norms. -/
def ViolatedNorms.ids : ViolatedNorms → List NormId
  | single id => [id]
  | compound first second => [first, second]

/-- The consequence of violating norms. -/
structure Violation where
  norms : ViolatedNorms
  /-- The role that the consequence binds. -/
  role : String
  deontic : Deontic
  consequence : String
  deriving DecidableEq

/-- A fact with the evidence for it. -/
structure LegalFact where
  description : String
  evidence : String
  deriving DecidableEq

/-- What an agenda asks for: all that the norms provide, or listed remedies. -/
inductive Relief where
  | essential
  | remedies (list : List String)
  deriving DecidableEq

/-- What a party seeks from an adjudicator. -/
structure Agenda where
  requestingRole : String
  compliance : Compliance
  institution : String
  beneficiaryRole : String
  relief : Relief
  deriving DecidableEq

/-- A schema. -/
structure Schema where
  institution : Option Institution
  norms : List Norm
  violations : List Violation
  facts : List LegalFact
  agendas : List Agenda
  deriving DecidableEq

/-- The reasons to refuse a norm. -/
inductive NormRefusal where
  /-- The identifier is in use. -/
  | duplicate (id : NormId)
  /-- An authored norm has the greater identifier `previous`. -/
  | outOfOrder (id previous : NormId)
  deriving DecidableEq

/-- The wording of a refusal. -/
def NormRefusal.message : NormRefusal → String
  | duplicate id => "norm " ++ id.decimal ++ " is already defined"
  | outOfOrder id previous =>
    "norm " ++ id.decimal ++ " follows norm " ++ previous.decimal ++
      "; authored norm ids must increase"

/-- The greatest of a list of identifiers. -/
def greatestId? : List NormId → Option NormId
  | [] => none
  | id :: ids => some (ids.foldl max id)

namespace Schema

/-- The schema without any part. -/
def empty : Schema := ⟨none, [], [], [], []⟩

/-- The norm with an identifier. -/
def norm? (schema : Schema) (id : NormId) : Option Norm := schema.norms.find? (fun n ↦ n.id == id)

/-- The position of the norm with an identifier, counted from one. -/
def normPosition? (schema : Schema) (id : NormId) : Option Nat :=
  (schema.norms.findIdx? (fun n ↦ n.id == id)).map (· + 1)

/-- The greatest identifier in use, and zero in a schema without norms. -/
def maxNormId (schema : Schema) : NormId := (greatestId? (schema.norms.map Norm.id)).getD 0

/-- The authored norms. -/
def authored (schema : Schema) : List Norm := schema.norms.filter Norm.isAuthored

/-- Whether a norm of the schema has an origin. -/
def hasOrigin (schema : Schema) (origin : Origin) : Bool :=
  schema.norms.any (fun n ↦ n.origin == origin)

/-- The reason to refuse a norm, if there is one. -/
def refusal? (schema : Schema) (norm : Norm) : Option NormRefusal :=
  if (schema.norm? norm.id).isSome then some (.duplicate norm.id)
  else if norm.isAuthored then
    match greatestId? (schema.authored.map Norm.id) with
    | some previous => if norm.id < previous then some (.outOfOrder norm.id previous) else none
    | none => none
  else none

/-- A call on a schema. It can read and change the schema, and it answers or fails. -/
abbrev Call (ε α : Type) := EStateM ε Schema α

/-- The schema that a call leaves, whether it fails or not. -/
def Call.leaves {ε α : Type} (call : Call ε α) (schema : Schema) : Schema :=
  match call.run schema with
  | .ok _ changed => changed
  | .error _ changed => changed

/-- What comes of a call: the schema that it leaves and its answer, or why it fails. -/
def Call.outcome {ε α : Type} (call : Call ε α) (schema : Schema) : Except ε (Schema × α) :=
  match call.run schema with
  | .ok answer changed => .ok (changed, answer)
  | .error e _ => .error e

/-- Add a norm at the end. Its identifier may not be in use, and an authored norm may not come
after one with a greater identifier. -/
def pushNorm (norm : Norm) : Call NormRefusal Unit := do
  match (← get).refusal? norm with
  | some refusal => throw refusal
  | none => modify fun schema ↦ { schema with norms := schema.norms ++ [norm] }

/-- A schema with one more norm at the end, or why the norm is refused. -/
def addNorm (schema : Schema) (norm : Norm) : Except NormRefusal Schema :=
  ((pushNorm norm).outcome schema).map Prod.fst

/-- Change the object on which the action of the norm with an identifier bears. -/
def setScope (schema : Schema) (id : NormId) (scope : Option String) : Schema :=
  { schema with
    norms := schema.norms.map (fun n ↦ if n.id = id then { n with scope := scope } else n) }

/-- Add a violation at the end. -/
def addViolation (schema : Schema) (violation : Violation) : Schema :=
  { schema with violations := schema.violations ++ [violation] }

/-- Add a fact at the end. -/
def addFact (schema : Schema) (fact : LegalFact) : Schema :=
  { schema with facts := schema.facts ++ [fact] }

/-- Add an agenda at the end. -/
def addAgenda (schema : Schema) (agenda : Agenda) : Schema :=
  { schema with agendas := schema.agendas ++ [agenda] }

/-- The roles as written in norms, violations and agendas, in that order. -/
def mentionedRoles (schema : Schema) : List String :=
  schema.norms.map Norm.role ++ schema.violations.map Violation.role ++
    schema.agendas.flatMap (fun a ↦ [a.requestingRole, a.beneficiaryRole])

/-- A list of roles with one more role, unless that is empty or its subject is listed. -/
def addRole (roles : List String) (role : String) : List String :=
  if role.isEmpty || roles.any (fun r ↦ Identifier.subject r == Identifier.subject role) then roles
  else roles ++ [role]

/-- The roles of a schema, one for every subject, in the spelling and order of first mention. -/
def roles (schema : Schema) : List String := schema.mentionedRoles.foldl addRole []

end Schema

end Normative
