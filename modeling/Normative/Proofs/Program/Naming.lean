import Normative.Proofs.Identifier.Alphabet
import Normative.Proofs.Program.Closure
import Normative.Proofs.Program.Place

/-!
# Derived names in a program

The norms and violations of a schema refer to each other by names that are derived from their
actions, their consequences and their positions. So all names in their statements consist of
letters, digits and underscores, with the name of the institution as the only exception.

## Main results

* `Draft.over_assetOf?`, `Draft.over_conditionPremises` : the names to which norms refer.
* `Draft.relatedAsset_cases` : the asset to which a fact relates.
* `Draft.violation_names` : the names in the statements of a violation.
-/

namespace Normative

open Text (Over IsLine)

namespace Draft

open Identifier

variable {draft : Draft}

theorem over_conditionName {word : String} (hword : Over IsNameChar word)
    (position number : Nat) : Over IsNameChar (word ++ conditionLabel position number) := by
  refine hword.append ((over_toString position).append ?_)
  split
  · exact over_isNameChar _ (by decide)
  · exact (over_isNameChar _ (by decide)).append (over_toString number)

theorem over_assetOf? {schema : Schema} {id : NormId} {asset : String}
    (h : schema.assetOf? id = some asset) : Over IsNameChar asset := by
  obtain ⟨position, -, h⟩ := Option.bind_eq_some_iff.mp h
  obtain ⟨norm, -, h⟩ := Option.bind_eq_some_iff.mp h
  rw [← Option.some.inj h]
  exact over_normAsset norm.action position

theorem over_conditionPremises {position : Nat} {conditions : List Condition} :
    ∀ premise ∈ draft.conditionPremises position 0 conditions,
      Over IsNameChar premise.asset := by
  intro premise hpremise
  rcases asset_of_mem_conditionPremises hpremise with ⟨id, hid⟩ | ⟨c, -, hasset⟩
  · exact over_assetOf? hid
  · rw [hasset]
    exact over_conditionName (over_isNameChar _ (by decide)) position c.2

/-- A fact relates to an asset with a derived name, or to that of the institution. -/
theorem relatedAsset_cases (draft : Draft) (description : String) :
    Over IsNameChar (draft.relatedAsset description) ∨
      draft.relatedAsset description = draft.institution.name := by
  rw [relatedAsset]
  split
  · exact .inl (over_normAsset _ _)
  · exact .inr rfl

/-- The statements of a violation, if there are any, are those of its consequence under derived
names, after remarks on lines of their own. -/
theorem violation_names (draft : Draft) (violation : Violation) (position : Nat) :
    draft.violation violation position = [] ∨
    ∃ (remarks : List String) (text asset clause : String) (violated : List String),
      draft.violation violation position = remarks.map .comment ++
        draft.consequence violation text asset clause violated ∧
      (∀ name ∈ text :: asset :: clause :: violated, Over IsNameChar name) ∧
      ∀ remark ∈ remarks, IsLine remark := by
  rw [Draft.violation]
  -- The norms that are violated have assets, all of them, or nothing is written.
  rcases draft.schema.mapM_assetOf?_cases violation.norms.ids with
    ⟨violated, hviolated, hall⟩ | ⟨hnone, -⟩
  · right
    rw [hviolated]
    have hassets : ∀ name ∈ violated, Over IsNameChar name := by
      intro name hname
      obtain ⟨i, hi, rfl⟩ := List.getElem_of_mem hname
      exact over_assetOf? (hall.get (hall.length_eq ▸ hi) hi)
    have hnumber {word : String} (hword : Over IsNameChar word) :
        Over IsNameChar (word ++ toString position) :=
      hword.append (over_toString position)
    have hstem := over_assetStem violation.consequence
    cases violation.norms with
    | single id =>
      refine ⟨[], _, _, _, violated, rfl, ?_, by simp⟩
      simp only [List.forall_mem_cons]
      exact ⟨hnumber (over_isNameChar _ (by decide)),
        hnumber (hstem.append (over_isNameChar _ (by decide))),
        hnumber (over_isNameChar _ (by decide)), hassets⟩
    | compound first second =>
      have hid (id : NormId) : IsLine id.decimal := isLine_of_over (over_toString id.toNat)
      refine ⟨[_], _, _, _, violated, rfl, ?_, ?_⟩
      · simp only [List.forall_mem_cons]
        exact ⟨hnumber (over_isNameChar _ (by decide)),
          hnumber (hstem.append (over_isNameChar _ (by decide))),
          hnumber (over_isNameChar _ (by decide)), hassets⟩
      · simp +decide [Text.isLine_append, hid]
  · rw [hnone]
    exact .inl rfl

end Draft

end Normative
