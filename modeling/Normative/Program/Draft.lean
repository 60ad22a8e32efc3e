import Normative.Program
import Normative.Schema

/-!
# The program of a schema

The program of a schema declares, in this order, the texts of the actions, the subjects, the asset
of the institution, an asset and a clause for every norm, the consequences of violations, the facts
and the agendas. Names that come from a norm carry the position of the norm, while conditions and
violations refer to norms by their identifiers. A reference to a norm that does not exist is left
out and gives a warning; a violation with such a reference is left out as a whole.

## Main definitions

* `Draft` : what the statements about a schema depend on.
* `Draft.program` : the program of a schema.
* `DanglingReference` : a reference to a norm that does not exist.
* `Schema.danglingReferences` : all of them.
-/

namespace Normative

/-- A reference to a norm that does not exist. -/
inductive DanglingReference where
  /-- A condition of a norm refers to it. -/
  | condition (norm referenced : NormId)
  /-- A violation refers to the norms, and one of them does not exist. -/
  | violation (norms : List NormId)
  deriving DecidableEq

/-- A list in brackets. -/
def bracketed (items : List String) : String := "[" ++ ", ".intercalate items ++ "]"

/-- The wording of a warning about a reference. -/
def DanglingReference.message : DanglingReference → String
  | condition norm referenced =>
    "condition references unknown norm norm=" ++ norm.decimal ++ " referenced=" ++
      referenced.decimal
  | violation norms =>
    "violation references unknown norm norms=" ++ bracketed (norms.map NormId.decimal)

namespace Schema

/-- The norms of a schema with their positions, counted from one. -/
def numberedNorms (schema : Schema) : List (Norm × Nat) := schema.norms.zipIdx 1

/-- The name of the asset of the norm with an identifier. -/
def assetOf? (schema : Schema) (id : NormId) : Option String := do
  let position ← schema.normPosition? id
  let norm ← schema.norm? id
  return Identifier.normAsset norm.action position

/-- The references to norms that do not exist: those of conditions, then those of violations. -/
def danglingReferences (schema : Schema) : List DanglingReference :=
  schema.norms.flatMap (fun norm ↦ norm.conditions.filterMap (fun
    | .norm id => if (schema.norm? id).isSome then none else some (.condition norm.id id)
    | .text _ => none)) ++
  schema.violations.filterMap (fun v ↦
    if v.norms.ids.all (fun id ↦ (schema.norm? id).isSome) then none
    else some (.violation v.norms.ids))

end Schema

/-- The subject that stands for a party if a schema has fewer than two roles. -/
def placeholder : String := "PLACEHOLDER"

/-- What the statements about a schema depend on: the schema, its institution, its roles, and the
classifier of assets. -/
structure Draft where
  schema : Schema
  institution : Institution
  roles : List String
  classifier : Classifier

/-- The draft of a schema with its institution. -/
def Schema.draft (schema : Schema) (institution : Institution) (classifier : Classifier) : Draft :=
  ⟨schema, institution, schema.roles, classifier⟩

namespace Draft

/-- The name of the text of the institution. -/
def baseText (draft : Draft) : String := Text.lowercase draft.institution.name

/-- The subjects of the first two roles. -/
def parties (draft : Draft) : String × String :=
  match draft.roles with
  | first :: second :: _ => (Identifier.subject first, Identifier.subject second)
  | _ => (placeholder, placeholder)

/-- The counterparty of a role: the second subject for the first role, and the first subject for
any other role. -/
def counterparty (draft : Draft) (role : String) : String :=
  let (first, second) := draft.parties
  if first = Identifier.subject role then second else first

/-- The texts of the institution and of the actions. -/
def texts (draft : Draft) : Program :=
  [.comment "String definitions for actions",
    .text draft.baseText ("acuerda " ++ draft.baseText)] ++
  draft.schema.numberedNorms.map (fun n ↦
    .text (Identifier.actionText n.1.action n.2) (Identifier.literal n.1.action)) ++
  [.blank]

/-- The subjects. -/
def subjects (draft : Draft) : Program :=
  [.comment "Subject declarations"] ++
  draft.roles.map (fun role ↦ .subject (Identifier.subject role) role) ++
  [.blank]

/-- The asset of the institution. -/
def baseAsset (draft : Draft) : Program :=
  [.comment "Base contract asset",
    .asset draft.institution.name .performance draft.parties.1 draft.baseText draft.parties.2,
    .blank]

/-- The part of a name that tells the position of a norm and the number of one of its conditions
in words; the first one has no number. -/
def conditionLabel (position number : Nat) : String :=
  toString position ++ if number = 1 then "" else "_" ++ toString number

/-- The premises that conditions give, when some conditions in words have been counted. -/
def conditionPremises (draft : Draft) (position : Nat) : Nat → List Condition → List Premise
  | _, [] => []
  | counted, .norm id :: rest =>
    ((draft.schema.assetOf? id).map Premise.holds).toList ++
      draft.conditionPremises position counted rest
  | counted, .text _ :: rest =>
    .holds ("Condition" ++ conditionLabel position (counted + 1)) ::
      draft.conditionPremises position (counted + 1) rest

/-- The text and the asset of a condition in words. -/
def conditionStatements (draft : Draft) (role : String) (position number : Nat)
    (description : String) : Program :=
  let label := conditionLabel position number
  [.comment "Conditional norm",
    .text ("condition" ++ label) (Identifier.literal description),
    .asset ("Condition" ++ label) .performance (Identifier.subject role) ("condition" ++ label)
      (draft.counterparty role)]

/-- The descriptions of the conditions in words. -/
def conditionTexts (conditions : List Condition) : List String :=
  conditions.filterMap (fun
    | .text description => some description
    | .norm _ => none)

/-- The asset of a norm, its conditions in words, and its clause. -/
def norm (draft : Draft) (norm : Norm) (position : Nat) : Program :=
  let asset := Identifier.normAsset norm.action position
  [.asset asset (draft.classifier.normType norm) (Identifier.subject norm.role)
      (Identifier.actionText norm.action position) (draft.counterparty norm.role)] ++
  ((conditionTexts norm.conditions).zipIdx 1).flatMap (fun c ↦
    draft.conditionStatements norm.role position c.2 c.1) ++
  [.clause ("norm" ++ toString position)
    (.holds draft.institution.name :: draft.conditionPremises position 0 norm.conditions)
    norm.deontic asset]

/-- The assets and clauses of the norms. -/
def norms (draft : Draft) : Program :=
  [.comment "Norm assets"] ++ draft.schema.numberedNorms.flatMap (fun n ↦ draft.norm n.1 n.2) ++
  [.blank]

/-- The text, the asset and the clause of a consequence. -/
def consequence (draft : Draft) (violation : Violation) (text asset clause : String)
    (violated : List String) : Program :=
  [.text text (Identifier.literal violation.consequence),
    .asset asset .performance (Identifier.subject violation.role) text
      (draft.counterparty violation.role),
    .clause clause (violated.map .fails) violation.deontic asset]

/-- The statements about a violation; there are none if one of the norms does not exist. -/
def violation (draft : Draft) (violation : Violation) (position : Nat) : Program :=
  let stem := Identifier.assetStem violation.consequence
  let number := toString position
  match violation.norms.ids.mapM draft.schema.assetOf? with
  | none => []
  | some violated =>
    match violation.norms with
    | .single _ =>
      draft.consequence violation ("violation_string_" ++ number) (stem ++ "Consequence" ++ number)
        ("viol_clause_" ++ number) violated
    | .compound first second =>
      .comment ("Compound violation for norms " ++ first.decimal ++ " and " ++ second.decimal) ::
        draft.consequence violation ("compound_violation_string_" ++ number)
          (stem ++ "CompoundConsequence" ++ number) ("compound_viol_clause_" ++ number) violated

/-- The consequences of violations. -/
def violations (draft : Draft) : Program :=
  if draft.schema.violations.isEmpty then []
  else
    [.comment "Violation clauses"] ++
    (draft.schema.violations.zipIdx 1).flatMap (fun v ↦ draft.violation v.1 v.2) ++
    [.blank]

/-- The asset to which a fact relates: that of the first norm whose action the description
mentions, and that of the institution if there is none. -/
def relatedAsset (draft : Draft) (description : String) : String :=
  match draft.schema.numberedNorms.find? (fun n ↦
    !n.1.action.isEmpty && Text.occursIn n.1.action description) with
  | some (norm, position) => Identifier.normAsset norm.action position
  | none => draft.institution.name

/-- The facts. -/
def facts (draft : Draft) : Program :=
  if draft.schema.facts.isEmpty then []
  else
    [.comment "Facts"] ++
    (draft.schema.facts.zipIdx 1).map (fun f ↦
      .fact (Identifier.fact f.1.description f.2) (draft.relatedAsset f.1.description)
        (Identifier.literal f.1.description) (Identifier.literal f.1.evidence)) ++
    [.blank]

/-- What an agenda lists: the assets of all norms, or its remedies. -/
def claim (draft : Draft) : Relief → Claim
  | .essential =>
    .assets (draft.schema.numberedNorms.map (fun n ↦ Identifier.normAsset n.1.action n.2))
  | .remedies list => .remedies list

/-- The agendas. -/
def agendas (draft : Draft) : Program :=
  if draft.schema.agendas.isEmpty then []
  else
    [.comment "Agendas"] ++
    (draft.schema.agendas.zipIdx 1).map (fun a ↦
      .agenda (Identifier.capitalize a.1.requestingRole ++ a.1.compliance.label ++ toString a.2)
        a.1.compliance draft.institution.name (draft.claim a.1.relief))

/-- The program of a schema. -/
def program (draft : Draft) : Program :=
  draft.texts ++ draft.subjects ++ draft.baseAsset ++ draft.norms ++ draft.violations ++
    draft.facts ++ draft.agendas

end Draft

/-- The program of a schema, if it has an institution. -/
def Schema.program? (classifier : Classifier) (schema : Schema) : Option Program :=
  schema.institution.map (fun institution ↦ (schema.draft institution classifier).program)

end Normative
