import Normative.Proofs.Enrichment.Exhaustion
import Normative.Proofs.Enrichment.Interleaving
import Normative.Proofs.Program.Declaration
import Normative.Proofs.Schema.History
import Normative.Transpile

/-!
# What comes of a text

A text has a program unless it cannot be parsed, or the numbers for generated norms run out. There
is no third reason: every schema that a text writes has an institution, enrichment keeps it, and a
schema with an institution has a program, be it extended by a corpus or not.

The numbers that are returned with a program are those of the norms that were parsed, of the norms
that were generated, and of the issues that the review of the parsed schema has. A corpus only adds
to the end of the program.

## Main results

* `enrichUnless_eq_ok`, `enrichUnless_eq_error_iff` : what enrichment does, unless it is skipped.
* `Schema.programWith?_eq_some` : the program of a schema, with a corpus or without.
* `transpile_cases` : all that can come of a text.
* `transpile_accounting` : the faults and the numbers of a text.
-/

namespace Normative

open Enrichment

/-! ### Enrichment unless it is skipped -/

namespace Schema

variable {schema : Schema} {norms : AutomatedNorms}

theorem isHighestId_maxNormId (schema : Schema) : schema.IsHighestId schema.maxNormId := by
  by_cases hnil : schema.norms = []
  · exact .inl ⟨hnil, maxNormId_of_norms_eq_nil hnil⟩
  · exact .inr ⟨maxNormId_mem hnil, fun _ ↦ id_le_maxNormId⟩

/-- Enrichment fails exactly if the norms that are lacking exhaust the numbers. -/
theorem enrich_eq_error_iff (hids : (schema.norms.map Norm.id).Nodup) {e : IdsExhausted} :
    schema.enrich norms = .error e ↔ schema.IsHighestId e.above ∧
      Exhausts e.above (missing norms schema).length := by
  constructor
  · intro h
    rcases enrich_eq_ok_or_error norms hids with ⟨hexhausts, herror⟩ | ⟨-, _, _, hok⟩
    · obtain rfl := Except.error.inj (herror.symm.trans h)
      exact ⟨schema.isHighestId_maxNormId, hexhausts⟩
    · simp [hok] at h
  · rintro ⟨hhighest, hexhausts⟩
    rw [hhighest.eq_maxNormId] at hexhausts
    obtain ⟨-, herror⟩ :=
      (enrich_eq_ok_or_error norms hids).resolve_right fun h ↦ h.1 hexhausts
    rw [herror, ← hhighest.eq_maxNormId]

/-- Enrichment adds norms at the end and reports how many. -/
theorem exists_added_of_enrich (hids : (schema.norms.map Norm.id).Nodup) {schema' : Schema}
    {report : Report} (h : schema.enrich norms = .ok (schema', report)) :
    ∃ added, schema' = { schema with norms := schema.norms ++ added } ∧
      report.total = added.length := by
  rw [enrich_eq norms hids] at h
  split at h
  · obtain ⟨rfl, rfl⟩ := Prod.mk.inj (Except.ok.inj h)
    refine ⟨_, rfl, ?_⟩
    rw [tally_missing, Report.total, numbered, List.length_mapIdx, missing, List.length_append,
      List.length_append]
  · simp at h

end Schema

section EnrichUnless

variable {skip : Bool} {norms : AutomatedNorms} {parsed schema : Schema} {generated : Nat}
  (hids : (parsed.norms.map Norm.id).Nodup)
include hids

/-- Enrichment fails exactly if it is not skipped and exhausts the numbers. -/
theorem enrichUnless_eq_error_iff {e : IdsExhausted} :
    enrichUnless skip norms parsed = .error e ↔ skip = false ∧ parsed.IsHighestId e.above ∧
      Exhausts e.above (missing norms parsed).length := by
  cases skip with
  | true => simp [enrichUnless]
  | false =>
    rw [enrichUnless, ← Schema.enrich_eq_error_iff hids]
    cases parsed.enrich norms <;> simp [Except.map]

/-- If enrichment succeeds or is skipped, norms have been added at the end and counted. -/
theorem enrichUnless_eq_ok (h : enrichUnless skip norms parsed = .ok (schema, generated)) :
    ∃ added, schema = { parsed with norms := parsed.norms ++ added } ∧
      generated = added.length ∧ (skip = true → added = []) ∧
      (skip = false → ∃ report, parsed.enrich norms = .ok (schema, report)) := by
  cases skip with
  | true =>
    obtain ⟨rfl, rfl⟩ := Prod.mk.inj (Except.ok.inj h)
    exact ⟨[], by simp, rfl, fun _ ↦ rfl, by simp⟩
  | false =>
    rw [enrichUnless] at h
    cases henrich : parsed.enrich norms with
    | error e =>
      rw [henrich] at h
      simp [Except.map] at h
    | ok result =>
      rw [henrich] at h
      obtain ⟨hschema, rfl⟩ := Prod.mk.inj (Except.ok.inj h)
      obtain ⟨added, hadded, htotal⟩ := Schema.exists_added_of_enrich hids henrich
      exact ⟨added, hschema.symm.trans hadded, htotal, by simp,
        fun _ ↦ ⟨result.2, by rw [← hschema]⟩⟩

end EnrichUnless

/-! ### The program -/

/-- A schema with an institution has a program, and a corpus adds to the end of it. -/
theorem Schema.programWith?_eq_some {schema : Schema} {institution : Institution}
    (hinstitution : schema.institution = some institution) (corpus : Option Corpus) :
    ∃ base more, schema.programWith? none = some base ∧
      schema.programWith? corpus = some (base ++ more) := by
  have hbase : schema.programWith? none =
      some (schema.draft institution .byKeyword).program := program?_eq_some hinstitution _
  cases corpus with
  | none => exact ⟨_, [], hbase, by rw [hbase, List.append_nil]⟩
  | some corpus => exact ⟨_, _, hbase, extendedProgram?_eq_some hinstitution _ corpus⟩

/-! ### Texts -/

variable (configuration : Configuration) (corpus : Option Corpus) (skip : Bool) (text : String)

/-- All that can come of a text: it cannot be parsed, its norms exhaust the numbers, or it has a
program, which begins with the one that it has without a corpus. -/
theorem transpile_cases :
    (∃ e, Schema.parse text = .error e ∧
      (transpile configuration corpus skip text).result = .error (.parsing e)) ∨
    (∃ parsed e, Schema.parse text = .ok parsed ∧
      enrichUnless skip configuration.automatedNorms parsed = .error e ∧
      (transpile configuration corpus skip text).result = .error (.enriching e)) ∨
    ∃ parsed schema generated base more, Schema.parse text = .ok parsed ∧
      enrichUnless skip configuration.automatedNorms parsed = .ok (schema, generated) ∧
      (transpile configuration none skip text).result =
        .ok (base, ⟨schema.norms.length, generated, (configuration.review parsed).length⟩) ∧
      (transpile configuration corpus skip text).result =
        .ok (base ++ more,
          ⟨schema.norms.length, generated, (configuration.review parsed).length⟩) := by
  simp only [transpile]
  cases hparse : Schema.parse text with
  | error e => exact .inl ⟨e, rfl, rfl⟩
  | ok parsed =>
    have hids := (Schema.ascending_of_parse hparse).isNumbered.nodup
    obtain ⟨institution, hinstitution⟩ := Schema.exists_institution_of_parse hparse
    refine .inr ?_
    cases henrich : enrichUnless skip configuration.automatedNorms parsed with
    | error e => exact .inl ⟨parsed, e, rfl, henrich, by simp only [henrich]⟩
    | ok enriched =>
      obtain ⟨schema, generated⟩ := enriched
      obtain ⟨added, rfl, -⟩ := enrichUnless_eq_ok hids henrich
      have hkept : ({ parsed with norms := parsed.norms ++ added } : Schema).institution =
          some institution := hinstitution
      obtain ⟨base, more, hbase, hmore⟩ := Schema.programWith?_eq_some hkept corpus
      exact .inr ⟨parsed, _, generated, base, more, rfl, henrich,
        by simp only [henrich, hbase], by simp only [henrich, hmore]⟩

/-! ### Faults -/

section Faults

variable {configuration corpus skip text}

theorem transpile_eq_parsing_iff {e : ParseError} :
    (transpile configuration corpus skip text).result = .error (.parsing e) ↔
      Schema.parse text = .error e := by
  rcases transpile_cases configuration corpus skip text with
    ⟨e', hparse, hresult⟩ | ⟨parsed, e', hparse, -, hresult⟩ |
      ⟨parsed, schema, generated, base, more, hparse, -, -, hresult⟩ <;> simp [hparse, hresult]

theorem transpile_eq_enriching_iff {e : IdsExhausted} :
    (transpile configuration corpus skip text).result = .error (.enriching e) ↔
      skip = false ∧ ∃ parsed, Schema.parse text = .ok parsed ∧ parsed.IsHighestId e.above ∧
        Exhausts e.above (missing configuration.automatedNorms parsed).length := by
  have henriching : (transpile configuration corpus skip text).result = .error (.enriching e) ↔
      ∃ parsed, Schema.parse text = .ok parsed ∧
        enrichUnless skip configuration.automatedNorms parsed = .error e := by
    rcases transpile_cases configuration corpus skip text with
      ⟨e', hparse, hresult⟩ | ⟨parsed, e', hparse, henrich, hresult⟩ |
        ⟨parsed, schema, generated, base, more, hparse, henrich, -, hresult⟩
    · simp [hparse, hresult]
    · simp [hparse, hresult, henrich]
    · simp [hparse, hresult, henrich]
  rw [henriching, ← exists_and_left]
  refine exists_congr fun parsed ↦ ?_
  rw [and_left_comm (a := skip = false)]
  refine and_congr_right fun hparse ↦ ?_
  exact enrichUnless_eq_error_iff (Schema.ascending_of_parse hparse).isNumbered.nodup

/-- A text that can be parsed has an institution. -/
theorem transpile_ne_missingInstitution :
    (transpile configuration corpus skip text).result ≠ .error .missingInstitution := by
  rcases transpile_cases configuration corpus skip text with
    ⟨e, -, hresult⟩ | ⟨parsed, e, -, -, hresult⟩ |
      ⟨parsed, schema, generated, base, more, -, -, -, hresult⟩ <;> simp [hresult]

end Faults

/-- A text fails exactly if it cannot be parsed, or if enrichment is not skipped and the norms that
the parsed schema lacks exhaust the numbers above its highest. If it has a program, the numbers that
come with it are those of the parsed norms together with the generated ones, of the generated ones,
and of the issues of the parsed schema; and the program as it is written begins with the one that
the text has without a corpus, with the same numbers. -/
theorem transpile_accounting :
    (∀ e, (transpile configuration corpus skip text).result = .error (.parsing e) ↔
      Schema.parse text = .error e) ∧
    (∀ e, (transpile configuration corpus skip text).result = .error (.enriching e) ↔
      skip = false ∧ ∃ parsed, Schema.parse text = .ok parsed ∧ parsed.IsHighestId e.above ∧
        Exhausts e.above (missing configuration.automatedNorms parsed).length) ∧
    (transpile configuration corpus skip text).result ≠ .error .missingInstitution ∧
    ∀ program stats, (transpile configuration corpus skip text).result = .ok (program, stats) →
      ∃ parsed added, Schema.parse text = .ok parsed ∧
        (skip = true → added = []) ∧
        (skip = false → ∃ report, parsed.enrich configuration.automatedNorms =
          .ok ({ parsed with norms := parsed.norms ++ added }, report)) ∧
        stats.generated = added.length ∧
        stats.norms = parsed.norms.length + stats.generated ∧
        stats.issues = (configuration.review parsed).length ∧
        ∃ base, (transpile configuration none skip text).result = .ok (base, stats) ∧
          ∃ rest, program.render = base.render ++ rest := by
  refine ⟨fun _ ↦ transpile_eq_parsing_iff, fun _ ↦ transpile_eq_enriching_iff,
    transpile_ne_missingInstitution, fun program stats hok ↦ ?_⟩
  rcases transpile_cases configuration corpus skip text with
    ⟨e, -, hresult⟩ | ⟨parsed, e, -, -, hresult⟩ |
      ⟨parsed, schema, generated, base, more, hparse, henrich, hbase, hresult⟩
  · simp [hresult] at hok
  · simp [hresult] at hok
  · have hids := (Schema.ascending_of_parse hparse).isNumbered.nodup
    obtain ⟨added, rfl, rfl, hskip, hadded⟩ := enrichUnless_eq_ok hids henrich
    obtain ⟨rfl, rfl⟩ := Prod.mk.inj (Except.ok.inj (hresult.symm.trans hok))
    exact ⟨parsed, added, hparse, hskip, hadded, rfl, List.length_append, rfl, base, hbase,
      more.render, Program.render_append base more⟩

end Normative
