import Normative.Document.Decode
import Normative.Text.Search

/-!
# Corpora of legal sources

A corpus holds the norms of legal sources such as codes and statutes. A norm of a corpus tells who
owes what to whom, the institutions to which it applies, and the contract types and domains for
which it is relevant. A corpus may also map generic roles to the roles of a contract type, and name
the two canonical roles of an institution.

## Main definitions

* `Corpus.Structure`, `Corpus.Norm`, `Corpus.Source`, `RoleTarget`, `Corpus` : the parts of a
  corpus.
* `Corpus.ofText?` : the corpus that a document writes.
* `Corpus.entries` : all norms of a corpus, in the order of the document.
-/

namespace Normative

open Text (sameFold occursIn)

/-- The role that a generic role stands for: one role, or several of which the first is
preferred. -/
inductive RoleTarget where
  | single (role : String)
  | many (roles : List String)
  deriving DecidableEq

namespace RoleTarget

/-- The roles that a target names. -/
def values : RoleTarget → List String
  | single role => [role]
  | many roles => roles

/-- The preferred role, if there is one. -/
def first? (target : RoleTarget) : Option String := target.values.head?

/-- Whether a target names a role. -/
def contains (target : RoleTarget) (role : String) : Bool := target.values.contains role

end RoleTarget

namespace Corpus

/-- Who owes what to whom. -/
structure Structure where
  action : Option String
  /-- The party that is bound. -/
  passive : Option String
  /-- The party that benefits. -/
  active : Option String
  object : Option String
  deontic : Option String
  /-- The institutions to which the norm applies. -/
  conditions : List String
  deriving DecidableEq

/-- Whether a norm applies to an institution, whose name may differ in letter case. -/
def Structure.appliesTo (s : Structure) (institution : String) : Bool :=
  s.conditions.any (fun c ↦ sameFold c institution)

/-- A norm of a legal source. -/
structure Norm where
  id : Option String
  structure? : Option Structure
  /-- The contract types and domains for which the norm is relevant. -/
  context : List String
  /-- The source and the key of the norm from which this one derives, with a full stop between
  them. -/
  derivedFrom : Option String
  deriving DecidableEq

/-- Whether a norm is relevant for a contract type, whose name may differ in letter case. -/
def Norm.isRelevantTo (norm : Norm) (contractType : String) : Bool :=
  norm.context.any (fun c ↦ sameFold c contractType)

/-- A legal source. -/
structure Source where
  name : Option String
  kind : Option String
  norms : OrderedMap Norm
  deriving DecidableEq

end Corpus

/-- A corpus of legal sources. -/
structure Corpus where
  sources : OrderedMap Corpus.Source
  /-- For each contract type, the roles that generic roles stand for. -/
  roleMappings : OrderedMap (OrderedMap RoleTarget)
  /-- The canonical roles of each institution. -/
  roles : OrderedMap (List String)
  deriving DecidableEq

namespace Corpus

/-- A norm with its source and the keys of both. -/
structure Entry where
  sourceKey : String
  source : Source
  normKey : String
  norm : Norm
  deriving DecidableEq

/-- All norms of a corpus, in the order of the document. -/
def entries (corpus : Corpus) : List Entry :=
  corpus.sources.entries.flatMap (fun s ↦ s.2.norms.entries.map (fun n ↦ ⟨s.1, s.2, n.1, n.2⟩))

/-- The norm with a key in the source with a key. -/
def norm? (corpus : Corpus) (source norm : String) : Option Norm :=
  (corpus.sources.get? source).bind (fun s ↦ s.norms.get? norm)

/-- Whether a norm is declared to derive from another. -/
def derives (corpus : Corpus) (source norm parentSource parentNorm : String) : Bool :=
  ((corpus.norm? source norm).bind (·.derivedFrom)) == some (parentSource ++ "." ++ parentNorm)

/-- The norms with an identifier that are relevant for a domain: one of the entries of their
context occurs in the name of the domain. -/
def domainNorms (corpus : Corpus) (domain : String) : List (String × Norm) :=
  corpus.entries.filterMap (fun e ↦
    e.norm.id.bind (fun id ↦
      if e.norm.context.any (fun c ↦ occursIn c domain) then some (id, e.norm) else none))

/-- The two canonical roles of an institution, each with a default. -/
def institutionRoles (corpus : Corpus) (institution : String) : String × String :=
  let roles := (corpus.roles.getFold? institution).getD []
  (roles[0]?.getD "parte1", roles[1]?.getD "parte2")

/-! ### Decoding -/

open Document

/-- Decode a role target: a role, or a list of roles. -/
def target? : Value → Option RoleTarget
  | .string text => text.map .single
  | value => (list? text? value).map .many

/-- The field names of a structure. -/
def structureFields : List String :=
  ["accion", "pasivo", "activo", "objeto", "deontico", "condiciones"]

/-- Decode a structure. -/
def structure? (value : Value) : Option Structure := do
  let fields ← fields? structureFields value
  return {
    action := ← field? fields "accion" (optional? text?) none
    passive := ← field? fields "pasivo" (optional? text?) none
    active := ← field? fields "activo" (optional? text?) none
    object := ← field? fields "objeto" (optional? text?) none
    deontic := ← field? fields "deontico" (optional? text?) none
    conditions := ← field? fields "condiciones" (list? text?) [] }

/-- The field names of a norm. -/
def normFields : List String := ["id", "estructura", "contexto", "derivadaDe"]

/-- Decode a norm. -/
def decodeNorm? (value : Value) : Option Norm := do
  let fields ← fields? normFields value
  return {
    id := ← field? fields "id" (optional? text?) none
    structure? := ← field? fields "estructura" (optional? structure?) none
    context := ← field? fields "contexto" (list? text?) []
    derivedFrom := ← field? fields "derivadaDe" (optional? text?) none }

/-- The field names of a source. -/
def sourceFields : List String := ["nombre", "tipo", "normas"]

/-- Decode a source. -/
def source? (value : Value) : Option Source := do
  let fields ← fields? sourceFields value
  return {
    name := ← field? fields "nombre" (optional? text?) none
    kind := ← field? fields "tipo" (optional? text?) none
    norms := ← field? fields "normas" (table? decodeNorm?) .empty }

/-- The field names of a corpus. -/
def corpusFields : List String := ["sources", "roleMappings", "roles"]

/-- Decode a corpus. -/
def ofValue? (value : Value) : Option Corpus := do
  let fields ← fields? corpusFields value
  return {
    sources := ← field? fields "sources" (table? source?) .empty
    roleMappings := ← field? fields "roleMappings" (table? (table? target?)) .empty
    roles := ← field? fields "roles" (table? (list? text?)) .empty }

/-- The corpus that a document writes. -/
def ofText? (text : String) : Option Corpus := decode? ofValue? text

end Corpus

end Normative
