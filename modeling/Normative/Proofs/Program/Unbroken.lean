import Normative.Proofs.Program.Lines
import Normative.Proofs.Program.Naming
import Normative.Proofs.Schema.Roles

/-!
# Texts that do not break lines

The program of a schema writes the texts of the schema on single lines, if these have no line
breaks. The texts of a schema that was itself written as a text have none.

## Main definitions

* `Draft.IsUnbroken` : a draft none of whose texts breaks a line.

## Main results

* `Draft.IsUnbroken.program` : no statement of its program breaks a line.
* `Schema.isUnbroken_draft_of_parse` : a schema that was written as a text gives such a draft.
-/

namespace Normative

open Text (IsLine Over)

/-! ### Parties -/

theorem Schema.mem_of_mem_numberedNorms {schema : Schema} {n : Norm × Nat}
    (h : n ∈ schema.numberedNorms) : n.1 ∈ schema.norms :=
  List.mem_of_getElem? (mem_numberedNorms_iff.mp h).2

namespace Draft

open Identifier

variable {draft : Draft}

theorem isLine_baseText : IsLine draft.baseText ↔ IsLine draft.institution.name :=
  Text.isLine_congr (Text.count_lowercase Text.isLow_newline _)

/-- A party is the subject of a role, or the placeholder. -/
theorem parties_cases (draft : Draft) : ∀ party ∈ [draft.parties.1, draft.parties.2],
    party = placeholder ∨ ∃ role ∈ draft.roles, party = subject role := by
  rw [parties]
  split
  · rename_i first second others hroles
    simp [hroles]
  · simp

theorem counterparty_cases (draft : Draft) (role : String) :
    draft.counterparty role = placeholder ∨
      ∃ other ∈ draft.roles, draft.counterparty role = subject other := by
  have hparties := draft.parties_cases
  rw [counterparty]
  dsimp only
  split
  · exact hparties _ (by simp)
  · exact hparties _ (by simp)

/-! ### Programs whose texts do not break lines -/

/-- A draft none of whose texts breaks a line. -/
structure IsUnbroken (draft : Draft) : Prop where
  institution : IsLine draft.institution.name
  roles : ∀ role ∈ draft.roles, IsLine role
  parts : ∀ part ∈ draft.schema.parts, ∀ text ∈ part.texts, IsLine text

namespace IsUnbroken

variable (h : draft.IsUnbroken)
include h

theorem isLine_counterparty (role : String) : IsLine (draft.counterparty role) := by
  rcases draft.counterparty_cases role with hparty | ⟨other, hother, hparty⟩ <;> rw [hparty]
  · exact isLine_of_over (over_isNameChar _ (by decide))
  · exact isLine_subject.mpr (h.roles other hother)

theorem texts : ∀ s ∈ draft.texts, s.IsUnbroken := by
  have hbase : IsLine draft.baseText := isLine_baseText.mpr h.institution
  simp only [Draft.texts, List.forall_mem_append, List.forall_mem_cons, List.forall_mem_map]
  refine ⟨⟨?_, fun n hn ↦ ?_⟩, by simp⟩
  · simpa +decide [Text.isLine_append] using hbase
  · have hnorm : (.inl n.1 : Part) ∈ draft.schema.parts := by
      simp [Schema.parts, Schema.mem_of_mem_numberedNorms hn]
    have haction : IsLine n.1.action := h.parts _ hnorm _ (by simp [Part.texts, Norm.texts])
    exact Statement.isUnbroken_text.mpr
      ⟨isLine_of_over (over_actionText _ _), isLine_literal.mpr haction⟩

theorem subjects : ∀ s ∈ draft.subjects, s.IsUnbroken := by
  simp only [Draft.subjects, List.forall_mem_append, List.forall_mem_map,
    List.forall_mem_singleton]
  refine ⟨⟨by simp +decide, fun role hrole ↦ ?_⟩, by simp⟩
  have hline := h.roles role hrole
  exact Statement.isUnbroken_subject.mpr ⟨isLine_subject.mpr hline, hline⟩

theorem baseAsset : ∀ s ∈ draft.baseAsset, s.IsUnbroken := by
  have hparty : ∀ party ∈ [draft.parties.1, draft.parties.2], IsLine party := by
    intro party hparty
    rcases draft.parties_cases party hparty with rfl | ⟨role, hrole, rfl⟩
    · exact isLine_of_over (over_isNameChar _ (by decide))
    · exact isLine_subject.mpr (h.roles role hrole)
  have hbase : IsLine draft.baseText := isLine_baseText.mpr h.institution
  simp +decide [Draft.baseAsset, h.institution, hbase, hparty]

theorem norm {norm : Norm} (hnorm : norm ∈ draft.schema.norms) (position : Nat) :
    ∀ s ∈ draft.norm norm position, s.IsUnbroken := by
  have htexts : ∀ text ∈ norm.texts, IsLine text :=
    h.parts (.inl norm) (by simp [Schema.parts, hnorm])
  have hrole : IsLine (subject norm.role) := isLine_subject.mpr (htexts _ (by simp [Norm.texts]))
  have hother := h.isLine_counterparty norm.role
  have hasset := isLine_of_over (over_normAsset norm.action position)
  have haction := isLine_of_over (over_actionText norm.action position)
  have hclause := isLine_of_over ((over_isNameChar "norm" (by decide)).append
    (over_toString position))
  rw [Draft.norm, List.forall_mem_append, List.forall_mem_append, List.forall_mem_flatMap,
    List.forall_mem_singleton, List.forall_mem_singleton]
  refine ⟨⟨?_, fun c hc ↦ ?_⟩, ?_⟩
  · exact Statement.isUnbroken_asset.mpr ⟨hasset, hrole, haction, hother⟩
  · have hdescription : IsLine c.1 := htexts _ (by
      simp [Norm.texts, List.fst_mem_of_mem_zipIdx hc])
    have hname {word : String} (hword : Over IsNameChar word) :
        IsLine (word ++ conditionLabel position c.2) :=
      isLine_of_over (over_conditionName hword position c.2)
    have htext := hname (over_isNameChar "condition" (by decide))
    have hasset := hname (over_isNameChar "Condition" (by decide))
    simp +decide [conditionStatements, htext, hasset, hrole, hother, isLine_literal, hdescription]
  · have hpremises : ∀ premise ∈ draft.conditionPremises position 0 norm.conditions,
        IsLine premise.asset :=
      fun premise hmem ↦ isLine_of_over (over_conditionPremises premise hmem)
    exact Statement.isUnbroken_clause.mpr
      ⟨hclause, List.forall_mem_cons.mpr ⟨h.institution, hpremises⟩, hasset⟩

theorem violation {violation : Violation} (hviolation : violation ∈ draft.schema.violations)
    (position : Nat) : ∀ s ∈ draft.violation violation position, s.IsUnbroken := by
  have htexts : ∀ text ∈ violation.texts, IsLine text :=
    h.parts (.inr (.inl violation)) (by simp [Schema.parts, hviolation])
  have hrole : IsLine (subject violation.role) :=
    isLine_subject.mpr (htexts _ (by simp [Violation.texts]))
  have hconsequence : IsLine violation.consequence := htexts _ (by simp [Violation.texts])
  rcases draft.violation_names violation position with
    hnil | ⟨remarks, text, asset, clause, violated, hblock, hnames, hremarks⟩
  · simp [hnil]
  · simp only [List.forall_mem_cons] at hnames
    obtain ⟨htext, hasset, hclause, hviolated⟩ := hnames
    rw [hblock, List.forall_mem_append, List.forall_mem_map]
    refine ⟨fun remark hremark ↦ Statement.isUnbroken_comment.mpr (hremarks remark hremark), ?_⟩
    simpa [consequence, isLine_of_over htext, isLine_of_over hasset, isLine_of_over hclause,
      isLine_literal, hconsequence, hrole, h.isLine_counterparty violation.role, Premise.asset]
      using fun name hname ↦ isLine_of_over (hviolated name hname)

theorem fact {fact : LegalFact} (hfact : fact ∈ draft.schema.facts) (position : Nat) :
    (Statement.fact (Identifier.fact fact.description position)
      (draft.relatedAsset fact.description) (literal fact.description)
      (literal fact.evidence)).IsUnbroken := by
  have htexts : ∀ text ∈ fact.texts, IsLine text :=
    h.parts (.inr (.inr (.inl fact))) (by simp [Schema.parts, hfact])
  have hrelated : IsLine (draft.relatedAsset fact.description) := by
    rcases draft.relatedAsset_cases fact.description with hover | hname
    · exact isLine_of_over hover
    · exact hname ▸ h.institution
  exact Statement.isUnbroken_fact.mpr ⟨isLine_of_over (over_fact _ _), hrelated,
    isLine_literal.mpr (htexts _ (by simp [LegalFact.texts])),
    isLine_literal.mpr (htexts _ (by simp [LegalFact.texts]))⟩

theorem agenda {agenda : Agenda} (hagenda : agenda ∈ draft.schema.agendas) (position : Nat) :
    (Statement.agenda (capitalize agenda.requestingRole ++ agenda.compliance.label ++
      toString position) agenda.compliance draft.institution.name
      (draft.claim agenda.relief)).IsUnbroken := by
  have htexts : ∀ text ∈ agenda.texts, IsLine text :=
    h.parts (.inr (.inr (.inr agenda))) (by simp [Schema.parts, hagenda])
  have hlabel : IsLine agenda.compliance.label := by cases agenda.compliance <;> decide
  have hname : IsLine (capitalize agenda.requestingRole ++ agenda.compliance.label ++
      toString position) := by
    rw [Text.isLine_append, Text.isLine_append]
    exact ⟨⟨isLine_capitalize.mpr (htexts _ (by simp [Agenda.texts])), hlabel⟩,
      isLine_of_over (over_toString position)⟩
  cases hrelief : agenda.relief with
  | essential =>
    refine Statement.isUnbroken_assets.mpr ⟨hname, h.institution, List.forall_mem_map.mpr ?_⟩
    exact fun n _ ↦ isLine_of_over (over_normAsset _ _)
  | remedies list =>
    refine Statement.isUnbroken_remedies.mpr ⟨hname, h.institution, fun text htext ↦ ?_⟩
    exact htexts _ (by simp [Agenda.texts, hrelief, Relief.texts, htext])

/-- The program of a draft none of whose texts breaks a line has no statement that does. -/
theorem program : ∀ s ∈ draft.program, s.IsUnbroken := by
  simp only [Draft.program, List.forall_mem_append]
  refine ⟨⟨⟨⟨⟨⟨h.texts, h.subjects⟩, h.baseAsset⟩, ?_⟩, ?_⟩, ?_⟩, ?_⟩
  · rw [norms, List.forall_mem_append, List.forall_mem_append, List.forall_mem_flatMap]
    exact ⟨⟨by simp +decide, fun n hn ↦ h.norm (Schema.mem_of_mem_numberedNorms hn) n.2⟩, by simp⟩
  · rw [violations]
    split
    · simp
    · rw [List.forall_mem_append, List.forall_mem_append, List.forall_mem_flatMap]
      exact ⟨⟨by simp +decide, fun v hv ↦ h.violation (List.fst_mem_of_mem_zipIdx hv) v.2⟩, by simp⟩
  · rw [facts]
    split
    · simp
    · rw [List.forall_mem_append, List.forall_mem_append, List.forall_mem_map]
      exact ⟨⟨by simp +decide, fun f hf ↦ h.fact (List.fst_mem_of_mem_zipIdx hf) f.2⟩, by simp⟩
  · rw [agendas]
    split
    · simp
    · rw [List.forall_mem_append, List.forall_mem_map]
      exact ⟨by simp +decide, fun a ha ↦ h.agenda (List.fst_mem_of_mem_zipIdx ha) a.2⟩

end IsUnbroken

end Draft

namespace Schema

/-- A schema that was written as a text has no text that breaks a line. -/
theorem isUnbroken_draft_of_parse {text : String} {schema : Schema} {institution : Institution}
    (h : parse text = .ok schema) (hinstitution : schema.institution = some institution)
    (classifier : Classifier) : (schema.draft institution classifier).IsUnbroken := by
  obtain ⟨hname, hparts⟩ := List.forall_mem_append.mp (isLine_of_parse h)
  have hpart : ∀ part ∈ schema.parts, ∀ t ∈ part.texts, IsLine t := fun part hpart t ht ↦
    hparts t (List.mem_flatMap.mpr ⟨part, hpart, ht⟩)
  refine ⟨hname _ (by simp [hinstitution, Schema.draft]), fun role hrole ↦ ?_, hpart⟩
  obtain ⟨part, hmem, ht⟩ :=
    exists_part_of_mem_mentionedRoles (mem_mentionedRoles_of_mem_roles hrole)
  exact hpart part hmem role ht

end Schema

end Normative
