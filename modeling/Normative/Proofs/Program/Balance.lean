import Normative.Proofs.Program.Quotation
import Normative.Proofs.Program.Stability
import Normative.Proofs.Program.Unbroken

/-!
# Quotation marks that come from a schema

Actions, conditions, consequences and facts are written as literals, or under names that are derived
from them, and leave no quotation mark in a program. The name of the institution and the roles are
written as they are. A quotation mark within a word is part of that word, so they may have some, and
then a line of the program may have an odd number of quotation marks.

The lines of a program have quotation marks in pairs exactly if the roles and the name of the
institution have. The name may also have an odd number of them if there are neither norms nor facts
nor agendas, since the other statements write it twice.

## Main results

* `Schema.even_program_iff` : when the texts of a program have quotation marks in pairs.
* `Schema.isBalanced_iff_of_parse` : when the lines of the program of a schema have, if the schema
  was written as a text.
-/

namespace Normative

open Text (quotes Over IsLow)

/-! ### Names and literals -/

theorem Text.isLow_quote : IsLow '"' := by decide

namespace Identifier

theorem quotes_of_over {name : String} (h : Over IsNameChar name) : quotes name = 0 :=
  Text.quotes_eq_zero h (by simp [IsNameChar])

/-- No text leaves a quotation mark in the literal that is made of it. -/
theorem quotes_literal (text : String) : quotes (literal text) = 0 := by
  have hover : Over _ (literal text) := over_literal (p := fun _ ↦ True) (fun _ _ ↦ trivial) trivial
  exact Text.quotes_eq_zero hover (by simp [isDelimiter])

theorem quotes_subject (role : String) : quotes (subject role) = quotes role :=
  Text.count_upper Text.isLow_quote role

theorem quotes_capitalize (word : String) : quotes (capitalize word) = quotes word :=
  count_capitalize Text.isLow_quote word

end Identifier

namespace Draft

open Identifier

variable {draft : Draft}

theorem quotes_baseText (draft : Draft) :
    quotes draft.baseText = quotes draft.institution.name :=
  Text.count_lowercase Text.isLow_quote _

/-! ### Parity -/

section Parity

variable (hlisted : ∀ role ∈ draft.roles, Even (quotes role))
include hlisted

theorem even_counterparty (role : String) : Even (quotes (draft.counterparty role)) := by
  rcases draft.counterparty_cases role with hparty | ⟨other, hother, hparty⟩ <;> rw [hparty]
  · decide
  · rw [quotes_subject]
    exact hlisted other hother

theorem even_baseAsset : ∀ s ∈ draft.baseAsset, Even s.codeQuotes := by
  have hparty : ∀ party ∈ [draft.parties.1, draft.parties.2], Even (quotes party) := by
    intro party hparty
    rcases draft.parties_cases party hparty with rfl | ⟨role, hrole, rfl⟩
    · decide
    · rw [quotes_subject]
      exact hlisted role hrole
  have hfirst := hparty draft.parties.1 (by simp)
  have hsecond := hparty draft.parties.2 (by simp)
  simp [baseAsset, quotes_baseText, Nat.even_add, hfirst, hsecond]

/-- An asset between two parties under derived names. -/
theorem even_asset {name text : String} (type : AssetType) {role : String}
    (hname : Over IsNameChar name) (htext : Over IsNameChar text) (hrole : Even (quotes role)) :
    Even (Statement.asset name type (subject role) text (draft.counterparty role)).codeQuotes := by
  have hother := even_counterparty hlisted role
  simp [quotes_of_over hname, quotes_of_over htext, quotes_subject, Nat.even_add, hrole, hother]

theorem even_norm_iff {norm : Norm} (hrole : Even (quotes norm.role)) (position : Nat) :
    (∀ s ∈ draft.norm norm position, Even s.codeQuotes) ↔
      Even (quotes draft.institution.name) := by
  -- All names are derived, except that the institution is a premise of the clause.
  have hasset := over_normAsset norm.action position
  have haction := over_actionText norm.action position
  have hclause : Over IsNameChar ("norm" ++ toString position) :=
    (over_isNameChar "norm" (by decide)).append (over_toString position)
  have hpremises : ((draft.conditionPremises position 0 norm.conditions).map
      fun p ↦ quotes p.asset).sum = 0 := by
    refine List.sum_eq_zero_iff_forall_eq_nat.mpr fun n hn ↦ ?_
    obtain ⟨premise, hmem, rfl⟩ := List.mem_map.mp hn
    exact quotes_of_over (over_conditionPremises premise hmem)
  have hconditions : ∀ c ∈ (conditionTexts norm.conditions).zipIdx 1,
      ∀ s ∈ draft.conditionStatements norm.role position c.2 c.1, Even s.codeQuotes := by
    intro c _
    have hname {word : String} (hword : Over IsNameChar word) :=
      over_conditionName hword position c.2
    have htext := hname (over_isNameChar "condition" (by decide))
    have hasset := hname (over_isNameChar "Condition" (by decide))
    simp only [conditionStatements, List.forall_mem_cons, Statement.codeQuotes_text,
      quotes_of_over htext, quotes_literal]
    exact ⟨by decide, by decide, even_asset hlisted _ hasset htext hrole, by simp⟩
  rw [Draft.norm, List.forall_mem_append, List.forall_mem_append, List.forall_mem_flatMap,
    List.forall_mem_singleton, List.forall_mem_singleton, and_iff_right
      ⟨even_asset hlisted _ hasset haction hrole, hconditions⟩, Statement.codeQuotes_clause,
    List.map_cons, List.sum_cons, hpremises, quotes_of_over hclause, quotes_of_over hasset]
  simp [Premise.asset]

theorem even_violation {violation : Violation} (hrole : Even (quotes violation.role))
    (position : Nat) : ∀ s ∈ draft.violation violation position, Even s.codeQuotes := by
  rcases draft.violation_names violation position with
    hnil | ⟨remarks, text, asset, clause, violated, hblock, hnames, -⟩
  · simp [hnil]
  · simp only [List.forall_mem_cons] at hnames
    obtain ⟨htext, hasset, hclause, hviolated⟩ := hnames
    have hfails : ((violated.map Premise.fails).map fun p ↦ quotes p.asset).sum = 0 := by
      refine List.sum_eq_zero_iff_forall_eq_nat.mpr fun n hn ↦ ?_
      obtain ⟨premise, hmem, rfl⟩ := List.mem_map.mp hn
      obtain ⟨name, hname, rfl⟩ := List.mem_map.mp hmem
      exact quotes_of_over (hviolated name hname)
    rw [hblock, List.forall_mem_append, List.forall_mem_map]
    refine ⟨fun remark _ ↦ by simp, ?_⟩
    simp only [consequence, List.forall_mem_cons, Statement.codeQuotes_text,
      Statement.codeQuotes_clause, quotes_of_over htext, quotes_literal, quotes_of_over hclause,
      quotes_of_over hasset, hfails]
    exact ⟨by decide, even_asset hlisted _ hasset htext hrole, by decide, by simp⟩

end Parity

/-- The texts of a program have quotation marks in pairs, whatever the name of the institution. -/
theorem even_texts (draft : Draft) : ∀ s ∈ draft.texts, Even s.codeQuotes := by
  have hwords : quotes "acuerda " = 0 := rfl
  simp only [texts, List.forall_mem_append, List.forall_mem_cons, List.forall_mem_map]
  refine ⟨⟨⟨by decide, ?_, by simp⟩, fun n _ ↦ ?_⟩, by simp⟩
  · simp [hwords]
  · simp [quotes_of_over (over_actionText n.1.action n.2), quotes_literal]

theorem even_subjects_iff : (∀ s ∈ draft.subjects, Even s.codeQuotes) ↔
    ∀ role ∈ draft.roles, Even (quotes role) := by
  simp only [subjects, List.forall_mem_append, List.forall_mem_singleton, List.forall_mem_map]
  simp [quotes_subject, Nat.even_add]

theorem even_fact_iff (description evidence : String) (position : Nat) :
    Even (Statement.fact (Identifier.fact description position) (draft.relatedAsset description)
      (literal description) (literal evidence)).codeQuotes ↔
    Even (quotes (draft.relatedAsset description)) := by
  simp [quotes_of_over (over_fact description position), quotes_literal]

theorem even_agenda_iff {agenda : Agenda} (hrole : Even (quotes agenda.requestingRole))
    (position : Nat) :
    Even (Statement.agenda (capitalize agenda.requestingRole ++ agenda.compliance.label ++
      toString position) agenda.compliance draft.institution.name
      (draft.claim agenda.relief)).codeQuotes ↔ Even (quotes draft.institution.name) := by
  have hname : Even (quotes (capitalize agenda.requestingRole ++ agenda.compliance.label ++
      toString position)) := by
    have hlabel : quotes agenda.compliance.label = 0 := by cases agenda.compliance <;> rfl
    rw [Text.quotes_append, Text.quotes_append, quotes_capitalize, hlabel,
      quotes_of_over (over_toString position)]
    exact hrole
  cases agenda.relief with
  | essential =>
    have hassets : ((draft.schema.numberedNorms.map fun n ↦
        normAsset n.1.action n.2).map quotes).sum = 0 := by
      refine List.sum_eq_zero_iff_forall_eq_nat.mpr fun q hq ↦ ?_
      obtain ⟨asset, hmem, rfl⟩ := List.mem_map.mp hq
      obtain ⟨n, -, rfl⟩ := List.mem_map.mp hmem
      exact quotes_of_over (over_normAsset n.1.action n.2)
    rw [claim, Statement.codeQuotes_assets, hassets, Nat.add_zero, Nat.even_add,
      iff_true_left hname]
  | remedies list =>
    rw [claim, Statement.codeQuotes_remedies, Nat.even_add, iff_true_left hname]

end Draft

namespace Schema

/-- The roles that are listed have quotation marks in pairs exactly if all mentioned roles do. -/
theorem even_quotes_roles_iff {schema : Schema} :
    (∀ role ∈ schema.roles, Even (quotes role)) ↔
      ∀ role ∈ schema.mentionedRoles, Even (quotes role) := by
  refine ⟨fun h role hrole ↦ ?_, fun h role hrole ↦ h role (mem_mentionedRoles_of_mem_roles hrole)⟩
  by_cases hempty : role = ""
  · rw [hempty]
    decide
  · obtain ⟨other, hother, hsubject⟩ :=
      List.mem_map.mp (subject_mem_foldl_addRole hempty hrole [])
    rw [← Identifier.quotes_subject, ← hsubject, Identifier.quotes_subject]
    exact h other hother

section Program

variable {schema : Schema} {institution : Institution} {classifier : Classifier}

/-- The norms have quotation marks in pairs exactly if there are none or the name of the institution
has, which their clauses repeat. -/
theorem even_norms_iff (hroles : ∀ role ∈ schema.roles, Even (quotes role)) :
    (∀ s ∈ (schema.draft institution classifier).norms, Even s.codeQuotes) ↔
      schema.norms = [] ∨ Even (quotes institution.name) := by
  have hnorm {n : Norm × Nat} (hn : n ∈ schema.numberedNorms) :
      (∀ s ∈ (schema.draft institution classifier).norm n.1 n.2, Even s.codeQuotes) ↔
        Even (quotes institution.name) := by
    refine Draft.even_norm_iff hroles (even_quotes_roles_iff.mp hroles _ ?_) n.2
    simp [mentionedRoles, List.mem_map_of_mem (f := Norm.role) (mem_of_mem_numberedNorms hn)]
  rw [Draft.norms, List.forall_mem_append, List.forall_mem_append, List.forall_mem_flatMap,
    and_iff_left (by simp), and_iff_right (by simp)]
  constructor
  · intro h
    cases hnorms : schema.norms with
    | nil => exact .inl rfl
    | cons norm norms =>
      have hfirst : (norm, 1) ∈ schema.numberedNorms := by simp [numberedNorms, hnorms]
      exact .inr ((hnorm hfirst).mp (h _ hfirst))
  · rintro (hnil | hname) n hn
    · simp [Schema.draft, numberedNorms, hnil] at hn
    · exact (hnorm hn).mpr hname

theorem even_violations (hroles : ∀ role ∈ schema.roles, Even (quotes role)) :
    ∀ s ∈ (schema.draft institution classifier).violations, Even s.codeQuotes := by
  rw [Draft.violations]
  split
  · simp
  · rw [List.forall_mem_append, List.forall_mem_append, List.forall_mem_flatMap]
    refine ⟨⟨by simp, fun v hv ↦ ?_⟩, by simp⟩
    refine Draft.even_violation hroles (even_quotes_roles_iff.mp hroles _ ?_) v.2
    have hmem : v.1 ∈ schema.violations := List.fst_mem_of_mem_zipIdx hv
    simp [mentionedRoles, List.mem_map_of_mem (f := Violation.role) hmem]

/-- The facts have quotation marks in pairs if the name of the institution has, and only then if
there are no norms to which they could relate. -/
theorem even_facts_iff (h : Even (quotes institution.name) ∨ schema.norms = []) :
    (∀ s ∈ (schema.draft institution classifier).facts, Even s.codeQuotes) ↔
      schema.facts = [] ∨ Even (quotes institution.name) := by
  rw [Draft.facts]
  by_cases hfacts : schema.facts = []
  · simp [Schema.draft, hfacts]
  · rw [if_neg (by simpa [Schema.draft] using hfacts), List.forall_mem_append,
      List.forall_mem_append, List.forall_mem_map, and_iff_left (by simp), and_iff_right (by simp),
      or_iff_right hfacts]
    constructor
    · intro hall
      rcases h with hname | hnil
      · exact hname
      · obtain ⟨fact, facts, hcons⟩ := List.exists_cons_of_ne_nil hfacts
        have hfirst := hall (fact, 1) (by simp [Schema.draft, hcons])
        rw [Draft.even_fact_iff] at hfirst
        simpa [Draft.relatedAsset, Schema.draft, numberedNorms, hnil] using hfirst
    · intro hname f _
      rw [Draft.even_fact_iff]
      rcases Draft.relatedAsset_cases (schema.draft institution classifier) f.1.description with
        hover | hrelated
      · rw [Identifier.quotes_of_over hover]
        decide
      · rw [hrelated]
        exact hname

theorem even_agendas_iff (hroles : ∀ role ∈ schema.roles, Even (quotes role)) :
    (∀ s ∈ (schema.draft institution classifier).agendas, Even s.codeQuotes) ↔
      schema.agendas = [] ∨ Even (quotes institution.name) := by
  have hagenda {a : Agenda × Nat} (ha : a ∈ schema.agendas.zipIdx 1) :
      Even (quotes a.1.requestingRole) := by
    refine even_quotes_roles_iff.mp hroles _ (List.mem_append_right _ ?_)
    exact List.mem_flatMap.mpr ⟨a.1, List.fst_mem_of_mem_zipIdx ha, List.mem_cons_self⟩
  rw [Draft.agendas]
  by_cases hagendas : schema.agendas = []
  · simp [Schema.draft, hagendas]
  · rw [if_neg (by simpa [Schema.draft] using hagendas), List.forall_mem_append,
      List.forall_mem_map, and_iff_right (by simp), or_iff_right hagendas]
    constructor
    · intro hall
      obtain ⟨agenda, agendas, hcons⟩ := List.exists_cons_of_ne_nil hagendas
      have hmem : (agenda, 1) ∈ schema.agendas.zipIdx 1 := by simp [hcons]
      have hfirst := hall _ hmem
      rw [Draft.even_agenda_iff (hagenda hmem)] at hfirst
      exact hfirst
    · intro hname a ha
      rw [Draft.even_agenda_iff (hagenda ha)]
      exact hname

/-- The texts in the code of a program have quotation marks in pairs exactly if the roles and the
name of the institution have. Only a program that states nothing but subjects and an asset of the
institution need not have them in its name. -/
theorem even_program_iff :
    (∀ s ∈ (schema.draft institution classifier).program, Even s.codeQuotes) ↔
      (∀ role ∈ schema.roles, Even (quotes role)) ∧
        (Even (quotes institution.name) ∨
          schema.norms = [] ∧ schema.facts = [] ∧ schema.agendas = []) := by
  simp only [Draft.program, List.forall_mem_append]
  constructor
  · rintro ⟨⟨⟨⟨⟨⟨-, hsubjects⟩, -⟩, hnorms⟩, -⟩, hfacts⟩, hagendas⟩
    have hroles : ∀ role ∈ schema.roles, Even (quotes role) := Draft.even_subjects_iff.mp hsubjects
    refine ⟨hroles, ?_⟩
    -- Facts may relate to a norm instead of the institution, so the norms are considered first.
    rcases (even_norms_iff hroles).mp hnorms with hnil | hname
    · rcases (even_facts_iff (.inr hnil)).mp hfacts with hnofacts | hname
      · exact ((even_agendas_iff hroles).mp hagendas).symm.imp_right fun h ↦ ⟨hnil, hnofacts, h⟩
      · exact .inl hname
    · exact .inl hname
  · rintro ⟨hroles, hname⟩
    have hnorms : schema.norms = [] ∨ Even (quotes institution.name) :=
      hname.symm.imp_left fun h ↦ h.1
    have hfacts : schema.facts = [] ∨ Even (quotes institution.name) :=
      hname.symm.imp_left fun h ↦ h.2.1
    have hagendas : schema.agendas = [] ∨ Even (quotes institution.name) :=
      hname.symm.imp_left fun h ↦ h.2.2
    exact ⟨⟨⟨⟨⟨⟨Draft.even_texts _, Draft.even_subjects_iff.mpr hroles⟩,
      Draft.even_baseAsset hroles⟩, (even_norms_iff hroles).mpr hnorms⟩, even_violations hroles⟩,
      (even_facts_iff hnorms.symm).mpr hfacts⟩, (even_agendas_iff hroles).mpr hagendas⟩

end Program

/-- The program of a schema that was written as a text has quotation marks in pairs on every line of
code exactly if the roles of the schema have, and the name of the institution, unless there are
neither norms nor facts nor agendas. -/
theorem isBalanced_iff_of_parse {text : String} {schema : Schema} (classifier : Classifier)
    (h : parse text = .ok schema) :
    ∃ institution program, schema.institution = some institution ∧
      schema.program? classifier = some program ∧
      (program.IsBalanced ↔ (∀ role ∈ schema.roles, Even (quotes role)) ∧
        (Even (quotes institution.name) ∨
          schema.norms = [] ∧ schema.facts = [] ∧ schema.agendas = [])) := by
  obtain ⟨institution, hinstitution⟩ := exists_institution_of_parse h
  have hunbroken := isUnbroken_draft_of_parse h hinstitution classifier
  exact ⟨institution, _, hinstitution, program?_eq_some hinstitution classifier,
    (Program.isBalanced_iff hunbroken.program).trans even_program_iff⟩

/-- A schema whose only role has two quotation marks. -/
def pairedQuotes : Schema where
  institution := some ⟨"Venta", "contrato", .multiple, ""⟩
  norms := [⟨1, "comp\"rad\"or", .obligation, "pagar", none, [], .authored⟩]
  violations := []
  facts := []
  agendas := []

/-- The text of this schema. -/
def pairedQuotesText : String := "Institution Venta\n1 el-comp\"rad\"or debe pagar\n"

theorem parse_pairedQuotesText : parse pairedQuotesText = .ok pairedQuotes := by decide +kernel

theorem isBalanced_iff_of_parse_pairedQuotes :
    parse pairedQuotesText = .ok pairedQuotes ∧
      ∃ program, pairedQuotes.program? .byKeyword = some program ∧ program.IsBalanced := by
  obtain ⟨institution, program, hinstitution, hprogram, hbalanced⟩ :=
    isBalanced_iff_of_parse .byKeyword parse_pairedQuotesText
  obtain rfl : (⟨"Venta", "contrato", .multiple, ""⟩ : Institution) = institution :=
    Option.some.inj hinstitution
  have hroles : ∀ role ∈ pairedQuotes.roles, Even (quotes role) := by decide +kernel
  exact ⟨parse_pairedQuotesText, program, hprogram, hbalanced.mpr ⟨hroles, .inl (by decide)⟩⟩

/-- A schema whose only role has a quotation mark. -/
def strayQuote : Schema :=
  { pairedQuotes with
    norms := [⟨1, "comp\"rador", .obligation, "pagar", none, [], .authored⟩] }

/-- The text of this schema. -/
def strayQuoteText : String := "Institution Venta\n1 el-comp\"rador debe pagar\n"

/-- The line of its subject: the role ends one of the literals and the rest is read as code. -/
def strayQuoteLine : String :=
  "subject COMP\"RADOR = \"Placeholder comp\"rador\", \"Placeholder address\", 12345678, " ++
    "\"placeholdercomp\"rador@example.com\";"

/-- A quotation mark in a role is written as it is, so a line of code has nine of them. -/
theorem strayQuote_not_isBalanced :
    parse strayQuoteText = .ok strayQuote ∧
      ∃ program, strayQuote.program? .byKeyword = some program ∧
        strayQuoteLine.toList ∈ Text.lines program.render ∧ quotes strayQuoteLine = 9 ∧
        ¬ program.IsBalanced := by
  have hparse : parse strayQuoteText = .ok strayQuote := by decide +kernel
  have hinstitution : strayQuote.institution = some ⟨"Venta", "contrato", .multiple, ""⟩ := rfl
  have hroles : strayQuote.roles = ["comp\"rador"] := by decide +kernel
  have hlines : (Statement.subject (Identifier.subject "comp\"rador") "comp\"rador").lines =
      [strayQuoteLine] := by decide +kernel
  have hquotes : quotes strayQuoteLine = 9 := by decide +kernel
  have hcode : Text.isComment strayQuoteLine.toList = false := by decide +kernel
  have hsubject : Statement.subject (Identifier.subject "comp\"rador") "comp\"rador" ∈
      (strayQuote.draft ⟨"Venta", "contrato", .multiple, ""⟩ .byKeyword).program := by
    simp [Draft.program, Draft.subjects, Schema.draft, hroles]
  -- The line is found through its statement; the whole program would be long to split.
  have hline : Text.lines strayQuoteLine = [strayQuoteLine.toList] :=
    Text.lines_of_isLine (by decide +kernel)
  have hmem := Program.mem_lines_render hsubject (hlines ▸ List.mem_singleton_self strayQuoteLine)
    (hline ▸ List.mem_singleton_self strayQuoteLine.toList)
  refine ⟨hparse, _, program?_eq_some hinstitution .byKeyword, hmem, hquotes, fun h ↦ ?_⟩
  have heven : Even (quotes strayQuoteLine) := h _ hmem hcode
  rw [hquotes] at heven
  exact absurd heven (by decide)

end Schema

end Normative
