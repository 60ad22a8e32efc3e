import Normative.Corpus

/-!
# Tables of roles

A corpus maps generic roles to the roles of a contract type. Explicit mappings come first. Without
one, a table is inferred from the norms that are relevant for the contract type: the party that a
norm binds is entered under a label for the kind of action, and a party that the action mentions is
entered under a label of its own. The table is then closed under inversion: each role that it names
and that is not a key is mapped back to the label that names it first.

## Main definitions

* `RoleTable.record`, `RoleTable.recordNew`, `RoleTable.close` : the operations on a table.
* `Corpus.scan`, `Corpus.infer?` : the table before and after the closure.
* `Corpus.mapRole` : the role that a generic role stands for.
-/

namespace Normative

open Text (occursIn)

/-- A map from roles to the roles that they stand for. -/
abbrev RoleTable := OrderedMap RoleTarget

namespace RoleTable

/-- Enter a role under a label. A label with several distinct roles keeps all of them. -/
def record (table : RoleTable) (label role : String) : RoleTable :=
  match table.get? label with
  | none => table.insert label (.single role)
  | some (.single found) =>
    if found = role then table else table.replace label (.many [found, role])
  | some (.many found) =>
    if found.contains role then table else table.replace label (.many (found ++ [role]))

/-- Enter a role under a label that is not in the table. -/
def recordNew (table : RoleTable) (label role : String) : RoleTable :=
  if table.contains label then table else table.insert label (.single role)

/-- Map every role that the table names, and that is not a key, back to the key that names it. -/
def close (table : RoleTable) : RoleTable :=
  table.entries.foldl (fun closed e ↦
    e.2.values.foldl (fun closed role ↦ closed.recordNew role e.1) closed) table

/-- The preferred role of a key. -/
def resolve? (table : RoleTable) (role : String) : Option String :=
  (table.get? role).bind RoleTarget.first?

end RoleTable

namespace Corpus

/-- The labels for the party that an action binds, each with the verbs that call for it. -/
def actionLabels : List (List String × String) :=
  [(["pagar"], "deudor"), (["entregar"], "obligado_entrega"),
    (["mantener", "reparar"], "obligado_mantenimiento")]

/-- The label for the party that an action binds. -/
def actionLabel (action : String) : String :=
  match actionLabels.find? (fun l ↦ l.1.any (fun verb ↦ occursIn verb action)) with
  | some (_, label) => label
  | none => "contratante"

/-- The nouns for parties that an action may mention, each with its label. -/
def counterparts : List (String × String) :=
  [("comprador", "receptor"), ("vendedor", "proveedor"), ("arrendador", "propietario"),
    ("arrendatario", "usuario")]

/-- The action and the bound party of a norm that is relevant for a contract type. -/
def relevantParty? (contractType : String) (norm : Norm) : Option (String × String) :=
  if norm.isRelevantTo contractType then do
    let s ← norm.structure?
    return (← s.action, ← s.passive)
  else none

/-- Enter what one norm tells about roles. -/
def scanNorm (table : RoleTable) (action passive : String) : RoleTable :=
  counterparts.foldl (fun table c ↦
    if occursIn c.1 action && passive != c.1 then table.recordNew c.2 c.1 else table)
    (table.record (actionLabel action) passive)

/-- The table that the norms of a corpus give for a contract type. -/
def scan (corpus : Corpus) (contractType : String) : RoleTable :=
  (corpus.entries.filterMap (fun e ↦ relevantParty? contractType e.norm)).foldl
    (fun table p ↦ scanNorm table p.1 p.2) .empty

/-- The table that is inferred for a contract type, if a norm is relevant for it. -/
def infer? (corpus : Corpus) (contractType : String) : Option RoleTable :=
  let table := corpus.scan contractType
  if table.isEmpty then none else some table.close

/-- The role that an explicit mapping gives. -/
def explicitRole? (corpus : Corpus) (contractType role : String) : Option String :=
  ((corpus.roleMappings.get? contractType).bind (·.get? role)).bind RoleTarget.first?

/-- The role that a generic role stands for: explicit mappings come first, then the inferred table,
then the role itself. A table that has been inferred before may be given; without one, the table is
inferred here. -/
def mapRoleWith (corpus : Corpus) (inferred : Option RoleTable) (contractType role : String) :
    String :=
  match corpus.explicitRole? contractType role with
  | some target => target
  | none => ((inferred.or (corpus.infer? contractType)).bind (·.resolve? role)).getD role

/-- The role that a generic role stands for under a contract type. -/
def mapRole (corpus : Corpus) (contractType role : String) : String :=
  corpus.mapRoleWith none contractType role

/-- Whether a role is one to which an institution maps a generic role. -/
def isMappedRole (corpus : Corpus) (institution role : String) : Bool :=
  (corpus.roleMappings.get? institution).any (fun table ↦ table.values.any (·.contains role))

end Corpus

end Normative
