import Normative.Configuration
import Normative.Schema
import Normative.Text.Search

/-!
# Enrichment of a schema

A configuration adds generated norms to a schema, in three tiers: the defaults of its legal domain,
the templates of the domain for every authored norm, and the norms that belong to the identifier of
an authored norm. Generated norms are numbered from the first full hundred above every identifier
in use. A norm whose origin is in the schema already is not generated again. All this is done on a
copy, so that the schema stays as it is if the numbers run out.

## Main definitions

* `Enrichment.proposals` : the norms that a configuration has for a schema, in order.
* `Enrichment.Progress` : a copy of the schema as it grows, with the next number.
* `Enrichment.generate` : one step of the work on the copy.
* `Schema.applyNorms` : the call that adds the generated norms to a schema.
* `Schema.enrich` : a schema with its generated norms.
-/

namespace Normative

namespace Enrichment

/-- A norm that is to be generated, as yet without a number. -/
structure Proposal where
  template : NormTemplate
  action : String
  origin : Origin
  deriving DecidableEq

/-- The proposed norm with a number. -/
def Proposal.norm (proposal : Proposal) (id : NormId) : Norm where
  id := id
  role := proposal.template.role
  deontic := Deontic.ofKeyword proposal.template.deontic
  action := proposal.action
  scope := proposal.template.scope
  conditions := []
  origin := proposal.origin

/-- The action of a template with its citation. -/
def citedAction (template : NormTemplate) : String :=
  match template.reference with
  | some reference => template.action ++ " [Ref: " ++ reference ++ "]"
  | none => template.action

/-- The place in a template where the number of the authored norm goes. -/
def idPlace : String := "%\x7brule_id\x7d"

/-- The place in a template where the action of the authored norm goes. -/
def actionPlace : String := "%\x7brule_action\x7d"

/-- The action of a template applied to an authored norm. The number is filled in before the
action. -/
def instantiatedAction (template : NormTemplate) (trigger : Norm) : String :=
  Text.replaceAll actionPlace trigger.action
    (Text.replaceAll idPlace trigger.id.decimal template.action)

/-- The defaults of a legal domain. -/
def domainProposals (norms : AutomatedNorms) (domain : String) : List Proposal :=
  ((norms.domainDefaults.getFold? domain).getD []).zipIdx.map (fun t ↦
    ⟨t.1, citedAction t.1, .domainDefault domain t.2⟩)

/-- The templates of a legal domain applied to authored norms. -/
def templateProposals (norms : AutomatedNorms) (domain : String) (authored : List Norm) :
    List Proposal :=
  authored.flatMap (fun trigger ↦
    ((norms.universalTemplates.getFold? domain).getD []).zipIdx.map (fun t ↦
      ⟨t.1, instantiatedAction t.1 trigger, .template trigger.id t.2⟩))

/-- The norms that belong to the identifiers of authored norms. -/
def conditionalProposals (norms : AutomatedNorms) (authored : List Norm) : List Proposal :=
  authored.flatMap (fun trigger ↦
    ((norms.conditionalOnId.get? trigger.id.decimal).getD []).zipIdx.map (fun t ↦
      ⟨t.1, citedAction t.1, .conditional trigger.id t.2⟩))

/-- The legal domain of a schema, empty if it has none. -/
def legalDomain (schema : Schema) : String := (schema.institution.map (·.legalDomain)).getD ""

/-- The norms that a configuration has for a schema. A schema without a legal domain has only those
of the third tier. -/
def proposals (norms : AutomatedNorms) (schema : Schema) : List Proposal :=
  (if (legalDomain schema).isEmpty then []
    else domainProposals norms (legalDomain schema) ++
      templateProposals norms (legalDomain schema) schema.authored) ++
    conditionalProposals norms schema.authored

/-- The numbers of norms that have been generated in each tier. -/
structure Report where
  domainDefaults : Nat
  templates : Nat
  conditional : Nat
  deriving DecidableEq

/-- The number of norms that have been generated. -/
def Report.total (report : Report) : Nat :=
  report.domainDefaults + report.templates + report.conditional

/-- A report with one more norm of an origin. -/
def Report.count (report : Report) : Origin → Report
  | .authored => report
  | .domainDefault _ _ => { report with domainDefaults := report.domainDefaults + 1 }
  | .template _ _ => { report with templates := report.templates + 1 }
  | .conditional _ _ => { report with conditional := report.conditional + 1 }

/-- The numbers above the greatest identifier of a schema have run out. -/
structure IdsExhausted where
  above : NormId
  deriving DecidableEq

/-- The wording of the error. -/
def IdsExhausted.message (e : IdsExhausted) : String :=
  "no norm ids left above " ++ e.above.decimal ++ " for generated norms"

/-- An identifier with a given value, if it is within the range of identifiers. -/
def idOfNat? (n : Nat) : Option NormId := if n < UInt32.size then some (UInt32.ofNat n) else none

/-- The first full hundred above an identifier. -/
def firstId? (greatest : NormId) : Option NormId := idOfNat? ((greatest.toNat / 100 + 1) * 100)

/-- The identifier after another. -/
def nextId? (id : NormId) : Option NormId := idOfNat? (id.toNat + 1)

/-- A copy of a schema as it grows, with the next number for a generated norm, if there is one
left. -/
structure Progress where
  schema : Schema
  next : Option NormId
  report : Report
  deriving DecidableEq

/-- Work on a copy of a schema. It is broken off where the numbers run out, and the copy is then
left with the norms that have been generated so far. -/
abbrev Work (α : Type) := EStateM IdsExhausted Progress α

/-- Take the next number. -/
def takeId (greatest : NormId) : Work NormId := do
  match (← get).next with
  | none => throw ⟨greatest⟩
  | some id =>
    modify fun progress ↦ { progress with next := nextId? id }
    return id

/-- Add a norm to the copy and count it. A norm that is refused is passed over. -/
def pushGenerated (norm : Norm) : Work Unit :=
  modify fun progress ↦
    match (Schema.pushNorm norm).run progress.schema with
    | .ok _ grown => { progress with schema := grown, report := progress.report.count norm.origin }
    | .error _ kept => { progress with schema := kept }

/-- Generate a proposed norm, unless its origin is in the copy. -/
def generate (greatest : NormId) (proposal : Proposal) : Work Unit := do
  if (← get).schema.hasOrigin proposal.origin then return
  else
    let id ← takeId greatest
    pushGenerated (proposal.norm id)

end Enrichment

open Enrichment

/-- Add generated norms to a schema, and report their numbers by tier. The norms are added to a
copy, which takes the place of the schema only when all of them have been generated. -/
def Schema.applyNorms (norms : AutomatedNorms) : Call IdsExhausted Report := do
  let schema ← get
  let copy : Progress := ⟨schema, firstId? schema.maxNormId, ⟨0, 0, 0⟩⟩
  match (forM (proposals norms schema) (generate schema.maxNormId)).run copy with
  | .error e _ => throw e
  | .ok _ grown =>
    set grown.schema
    return grown.report

/-- A schema with its generated norms, and their numbers by tier. -/
def Schema.enrich (norms : AutomatedNorms) (schema : Schema) :
    Except IdsExhausted (Schema × Report) :=
  (applyNorms norms).outcome schema

end Normative
