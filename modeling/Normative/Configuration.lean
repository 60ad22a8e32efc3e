import Normative.Document.Decode

/-!
# Configurations

A configuration lists the institutions, types and legal domains that a schema may name, the roles
of each institution, and the norms that are generated for a schema: by its legal domain, for each
of its authored norms, and for authored norms with particular identifiers.

## Main definitions

* `NormTemplate`, `AutomatedNorms`, `Configuration` : the parts of a configuration.
* `Configuration.ofText?` : the configuration that a document writes.
-/

namespace Normative

/-- A norm to be generated. -/
structure NormTemplate where
  role : String
  /-- The keyword of the deontic position. -/
  deontic : String
  action : String
  /-- A citation that is appended to the action. -/
  reference : Option String
  scope : Option String
  deriving DecidableEq

/-- The norms to be generated for a schema. -/
structure AutomatedNorms where
  /-- The norms of a legal domain. -/
  domainDefaults : OrderedMap (List NormTemplate)
  /-- The norms that a legal domain adds for every authored norm. -/
  universalTemplates : OrderedMap (List NormTemplate)
  /-- The norms that belong to the authored norm with an identifier, written in decimal. -/
  conditionalOnId : OrderedMap (List NormTemplate)
  deriving DecidableEq

/-- A configuration. -/
structure Configuration where
  institutions : List String
  types : List String
  domains : List String
  /-- The roles of each institution. -/
  roles : OrderedMap (List String)
  automatedNorms : AutomatedNorms
  deriving DecidableEq

/-- No norms to be generated. -/
def AutomatedNorms.empty : AutomatedNorms := ⟨.empty, .empty, .empty⟩

/-- Whether there is no table of norms to be generated. -/
def AutomatedNorms.isEmpty (norms : AutomatedNorms) : Bool :=
  norms.domainDefaults.isEmpty && norms.universalTemplates.isEmpty && norms.conditionalOnId.isEmpty

namespace Configuration

open Document

/-- The configuration that lists nothing. -/
def empty : Configuration := ⟨[], [], [], .empty, .empty⟩

/-- The roles of an institution, whose name may differ in letter case. -/
def rolesFor? (configuration : Configuration) (institution : String) : Option (List String) :=
  configuration.roles.getFold? institution

/-- The field names of a template. -/
def templateFields : List String := ["role", "deontic", "action", "reference", "scope"]

/-- Decode a template. -/
def template? (value : Value) : Option NormTemplate := do
  let fields ← fields? templateFields value
  return {
    role := ← required? fields "role" text?
    deontic := ← required? fields "deontic" text?
    action := ← required? fields "action" text?
    reference := ← field? fields "reference" (optional? text?) none
    scope := ← field? fields "scope" (optional? text?) none }

/-- The field names of the norms to be generated. -/
def automatedNormsFields : List String :=
  ["domain_defaults", "universal_templates", "conditional_on_id"]

/-- Decode the norms to be generated. -/
def automatedNorms? (value : Value) : Option AutomatedNorms := do
  let fields ← fields? automatedNormsFields value
  let templates? := table? (list? template?)
  return {
    domainDefaults := ← field? fields "domain_defaults" templates? .empty
    universalTemplates := ← field? fields "universal_templates" templates? .empty
    conditionalOnId := ← field? fields "conditional_on_id" templates? .empty }

/-- The field names of a configuration. -/
def configurationFields : List String :=
  ["instituciones", "tipos", "dominios", "roles", "automated_norms"]

/-- Decode a configuration. -/
def ofValue? (value : Value) : Option Configuration := do
  let fields ← fields? configurationFields value
  return {
    institutions := ← field? fields "instituciones" (list? text?) []
    types := ← field? fields "tipos" (list? text?) []
    domains := ← field? fields "dominios" (list? text?) []
    roles := ← field? fields "roles" (table? (list? text?)) .empty
    automatedNorms := ← field? fields "automated_norms" automatedNorms? .empty }

/-- The configuration that a document writes. -/
def ofText? (text : String) : Option Configuration := decode? ofValue? text

end Configuration

end Normative
