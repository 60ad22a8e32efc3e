import Normative.Proofs.Enrichment.Interleaving
import Normative.Proofs.Text.Substitution
import Normative.Proofs.Token.Spelling

/-!
# How templates are filled in

The action of a template has places for the number and for the action of an authored norm. The
number is put in first, in the whole text, and the action is then put in for the places of the
result. This is the same as filling in both in one pass over the template: a number consists of
digits, which neither place has, so it can neither complete a place nor break one, and the action is
put in last, so that what it contains is not read again.

## Main results

* `Enrichment.instantiatedAction_eq_fill` : a template is filled in by one pass.
* `Schema.templates_filled` : the action of a norm that enrichment generates from a template.
-/

namespace Normative

namespace Enrichment

theorem toList_idPlace : idPlace.toList = '%' :: "\x7brule_id\x7d".toList := by rfl

theorem toList_actionPlace : actionPlace.toList = '%' :: "\x7brule_action\x7d".toList := by rfl

theorem notMem_actionPlace_of_isDigit {c : Char} (hc : c.isDigit = true) :
    c ∉ actionPlace.toList := by
  have hplace : actionPlace.toList.any Char.isDigit = false := by decide
  exact fun hmem ↦ List.any_eq_false.mp hplace c hmem hc

/-- The number and the action of an authored norm are put into a template in one pass. -/
theorem instantiatedAction_eq_fill (template : NormTemplate) (trigger : Norm) :
    instantiatedAction template trigger =
      Text.fill [(idPlace, trigger.id.decimal), (actionPlace, trigger.action)]
        template.action := by
  have hnumber : trigger.id.decimal.toList ≠ [] := by
    obtain ⟨c, hc⟩ := Token.exists_head_decimal trigger.id
    intro hnil
    rw [hnil] at hc
    exact absurd hc (by simp)
  have hapart : ∀ c ∈ trigger.id.decimal.toList, c ∉ actionPlace.toList := fun c hc ↦
    notMem_actionPlace_of_isDigit (Token.isDigit_of_mem_decimal hc)
  rw [toList_actionPlace] at hapart
  rw [instantiatedAction, Text.replaceAll, Text.replaceAll, Text.fill, String.toList_ofList,
    toList_actionPlace, toList_idPlace, Text.replaceFrom_replaceFrom (by decide) hnumber hapart,
    List.map_cons, List.map_singleton, toList_actionPlace, toList_idPlace]

end Enrichment

namespace Schema

open Enrichment

theorem mem_proposals_of_template {schema : Schema} {norms : AutomatedNorms} {trigger : Norm}
    {template : NormTemplate} {templates : List NormTemplate} {index : Nat}
    (hdomain : legalDomain schema ≠ "")
    (htrigger : trigger ∈ schema.authored)
    (htemplates : norms.universalTemplates.getFold? (legalDomain schema) = some templates)
    (htemplate : templates[index]? = some template) :
    ⟨template, instantiatedAction template trigger, .template trigger.id index⟩ ∈
      proposals norms schema := by
  have hplace : (template, index) ∈ templates.zipIdx :=
    List.mk_mem_zipIdx_iff_getElem?.mpr htemplate
  rw [proposals, if_neg (mt String.isEmpty_iff.mp hdomain)]
  refine List.mem_append_left _ (List.mem_append_right _ ?_)
  refine List.mem_flatMap.mpr ⟨trigger, htrigger, ?_⟩
  rw [htemplates]
  exact List.mem_map.mpr ⟨(template, index), hplace, rfl⟩

/-- The norm that enrichment generates from a template for an authored norm has the action of the
template with the number and the action of the authored norm put in by one pass, whatever the
texts are. -/
theorem templates_filled (template : NormTemplate) (trigger : Norm) :
    instantiatedAction template trigger =
      Text.fill [(idPlace, trigger.id.decimal), (actionPlace, trigger.action)] template.action ∧
    ∀ (norms : AutomatedNorms) (schema schema' : Schema) (report : Report)
      (templates : List NormTemplate) (index : Nat),
      (schema.norms.map Norm.id).Nodup → schema.enrich norms = .ok (schema', report) →
      legalDomain schema ≠ "" → trigger ∈ schema.authored →
      norms.universalTemplates.getFold? (legalDomain schema) = some templates →
      templates[index]? = some template →
      (∀ norm ∈ schema.norms, norm.origin ≠ .template trigger.id index) →
      (∃ norm ∈ schema'.norms, norm.origin = .template trigger.id index) ∧
        ∀ norm ∈ schema'.norms, norm.origin = .template trigger.id index →
          norm.action = Text.fill
            [(idPlace, trigger.id.decimal), (actionPlace, trigger.action)] template.action := by
  refine ⟨instantiatedAction_eq_fill template trigger, ?_⟩
  intro norms schema schema' report templates index hids h hdomain htrigger htemplates htemplate
    hlacks
  have hproposal := mem_proposals_of_template hdomain htrigger htemplates htemplate
  refine ⟨hasOrigin_iff.mp (hasOrigin_enrich hids h hproposal), fun norm hnorm horigin ↦ ?_⟩
  obtain ⟨first, rfl⟩ := exists_numbered_of_enrich hids h
  rcases List.mem_append.mp hnorm with hnorm | hnorm
  · exact absurd horigin (hlacks norm hnorm)
  · -- The norm comes from a proposal with the same origin, and origins tell proposals apart.
    obtain ⟨i, -, p, hp, rfl⟩ := mem_numbered hnorm
    rw [← filter_proposals] at hp
    obtain rfl := List.inj_on_of_nodup_map (nodup_origin_proposals norms hids)
      (List.mem_filter.mp hp).1 hproposal horigin
    exact instantiatedAction_eq_fill template trigger

/-- An authored norm whose action has both places and ends in the beginning of one. -/
def nestedTrigger : Norm where
  id := 7
  role := "vendedor"
  deontic := .obligation
  action := "anotar %\x7brule_id\x7d y %\x7brule_action\x7d en %\x7brule_"
  scope := none
  conditions := []
  origin := .authored

/-- A template in which one place stands inside the text of the other, and two are next to each
other. -/
def nestedTemplate : NormTemplate where
  role := "autoridad"
  deontic := "puede"
  action := "%\x7brule_%\x7brule_id\x7daction\x7d: %\x7brule_action\x7d%\x7brule_id\x7d"
  reference := none
  scope := none

/-- A sale with this norm. -/
def nestedSale : Schema :=
  ⟨some ⟨"Venta", "contrato", .single, "derecho-civil"⟩, [nestedTrigger], [], [], []⟩

/-- A configuration with this template. -/
def nestedNorms : AutomatedNorms :=
  ⟨.empty, ⟨[("Derecho-Civil", [nestedTemplate])]⟩, .empty⟩

/-- The norm that is generated. -/
def nestedGenerated : Norm where
  id := 100
  role := "autoridad"
  deontic := .privilege
  action := "%\x7brule_7action\x7d: anotar %\x7brule_id\x7d y %\x7brule_action\x7d en %\x7brule_7"
  scope := none
  conditions := []
  origin := .template 7 0

theorem templates_filled_nested :
    nestedSale.enrich nestedNorms =
      .ok ({ nestedSale with norms := [nestedTrigger, nestedGenerated] }, ⟨0, 1, 0⟩) ∧
    (∃ norm ∈ [nestedTrigger, nestedGenerated], norm.origin = .template 7 0) ∧
    nestedGenerated.action = Text.fill
      [("%\x7brule_id\x7d", "7"), ("%\x7brule_action\x7d", nestedTrigger.action)]
      nestedTemplate.action := by
  have henrich : nestedSale.enrich nestedNorms =
      .ok ({ nestedSale with norms := [nestedTrigger, nestedGenerated] }, ⟨0, 1, 0⟩) := by
    decide +kernel
  obtain ⟨hsome, hall⟩ := (templates_filled nestedTemplate nestedTrigger).2 nestedNorms nestedSale
    _ _ [nestedTemplate] 0 (by decide) henrich (by decide) List.mem_cons_self (by decide +kernel)
    rfl (by decide)
  exact ⟨henrich, hsome, hall nestedGenerated (by simp) rfl⟩

end Schema

end Normative
