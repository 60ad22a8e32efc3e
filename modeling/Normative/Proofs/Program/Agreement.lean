import Normative.Program.Draft

/-!
# What the statements of a draft depend on

A draft holds a whole schema, but the statements for one norm or one violation depend on little of
it: on the institution, the parties and the classifier, and on the names of the assets of the norms
to which the norm or the violation refers. Two drafts that agree on these say the same.

## Main definitions

* `Norm.references` : the norms to which the conditions of a norm refer.
* `Draft.AgreesOn` : two drafts agree on norms.

## Main results

* `Draft.AgreesOn.norm_eq`, `Draft.AgreesOn.violation_eq`, `Draft.AgreesOn.baseAsset_eq` : drafts
  that agree have the same statements for a norm, a violation and the institution.
-/

namespace Normative

/-- The norms to which the conditions of a norm refer. -/
def Norm.references (norm : Norm) : List NormId :=
  norm.conditions.filterMap (fun
    | .norm id => some id
    | .text _ => none)

theorem Norm.mem_references_iff {norm : Norm} {id : NormId} :
    id ∈ norm.references ↔ .norm id ∈ norm.conditions := by
  rw [references, List.mem_filterMap]
  constructor
  · rintro ⟨condition, hmem, hid⟩
    cases condition with
    | norm id' => rwa [← Option.some.inj hid]
    | text description => simp at hid
  · exact fun hmem ↦ ⟨.norm id, hmem, rfl⟩

namespace Draft

variable {draft draft' : Draft} {ids : List NormId}

/-- Two drafts have the same institution, parties and classifier, and the same names for the assets
of some norms. -/
structure AgreesOn (ids : List NormId) (draft draft' : Draft) : Prop where
  institution : draft'.institution = draft.institution
  parties : draft'.parties = draft.parties
  classifier : draft'.classifier = draft.classifier
  assetOf? : ∀ id ∈ ids, draft'.schema.assetOf? id = draft.schema.assetOf? id

namespace AgreesOn

variable (h : AgreesOn ids draft draft')
include h

theorem counterparty_eq (role : String) : draft'.counterparty role = draft.counterparty role := by
  rw [counterparty, counterparty, h.parties]

theorem baseText_eq : draft'.baseText = draft.baseText := by
  rw [baseText, baseText, h.institution]

theorem baseAsset_eq : draft'.baseAsset = draft.baseAsset := by
  rw [baseAsset, baseAsset, h.institution, h.parties, h.baseText_eq]

/-- Premises depend on the names of the norms to which conditions refer. -/
theorem conditionPremises_eq {conditions : List Condition}
    (hids : ∀ id, .norm id ∈ conditions → id ∈ ids) (position counted : Nat) :
    draft'.conditionPremises position counted conditions =
      draft.conditionPremises position counted conditions := by
  induction conditions generalizing counted with
  | nil => rfl
  | cons condition conditions ih =>
    have hrest : ∀ id, .norm id ∈ conditions → id ∈ ids :=
      fun id hid ↦ hids id (List.mem_cons_of_mem condition hid)
    cases condition with
    | norm id =>
      rw [conditionPremises, conditionPremises, ih hrest,
        h.assetOf? id (hids id List.mem_cons_self)]
    | text description => rw [conditionPremises, conditionPremises, ih hrest]

theorem conditionStatements_eq (role : String) (position number : Nat) (description : String) :
    draft'.conditionStatements role position number description =
      draft.conditionStatements role position number description := by
  rw [conditionStatements, conditionStatements, h.counterparty_eq]

/-- Drafts that agree have the same statements for a norm. -/
theorem norm_eq {norm : Norm} (hids : norm.references ⊆ ids) (position : Nat) :
    draft'.norm norm position = draft.norm norm position := by
  have hconditions : ∀ id, .norm id ∈ norm.conditions → id ∈ ids :=
    fun id hid ↦ hids (Norm.mem_references_iff.mpr hid)
  simp only [Draft.norm, h.classifier, h.institution, h.counterparty_eq,
    h.conditionStatements_eq, h.conditionPremises_eq hconditions]

theorem consequence_eq (violation : Violation) (text asset clause : String)
    (violated : List String) :
    draft'.consequence violation text asset clause violated =
      draft.consequence violation text asset clause violated := by
  rw [consequence, consequence, h.counterparty_eq]

theorem mapM_assetOf?_eq {violated : List NormId} (hids : violated ⊆ ids) :
    violated.mapM draft'.schema.assetOf? = violated.mapM draft.schema.assetOf? := by
  induction violated with
  | nil => rfl
  | cons id violated ih =>
    obtain ⟨hid, hrest⟩ := List.cons_subset.mp hids
    rw [List.mapM_cons, List.mapM_cons, h.assetOf? id hid, ih hrest]

/-- Drafts that agree have the same statements for a violation. -/
theorem violation_eq {violation : Violation} (hids : violation.norms.ids ⊆ ids) (position : Nat) :
    draft'.violation violation position = draft.violation violation position := by
  simp only [Draft.violation, h.mapM_assetOf?_eq hids, h.consequence_eq]

end AgreesOn

end Draft

end Normative
