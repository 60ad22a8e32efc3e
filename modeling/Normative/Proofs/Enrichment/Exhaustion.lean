import Normative.Proofs.Enrichment.Effect

/-!
# When enrichment runs out of numbers

Enrichment fails for one reason only: the numbers that it would need, one for each norm that the
schema lacks, run past the greatest number of 32 bits. If there is nothing to be generated it does
not fail, even if no full hundred is left above the numbers in use. A schema that cannot be enriched
is kept as it is.

The numbers are 32-bit words. They are computed without a loss: the division and the addition that
give the number of hundreds always fit, and the other operations give no result where a word is too
small.

## Main definitions

* `Schema.IsHighestId` : the highest number of a schema, zero if it has no norms.
* `Enrichment.Exhausts` : so many numbers above a number run past the greatest.

## Main results

* `Schema.enrich_eq_ok_or_error` : an attempt fails exactly if it exhausts the numbers.
* `Schema.enrich_fails_iff_exhausts` : the same with what is kept and what is computed.
-/

namespace Normative

namespace Enrichment

/-- The greatest number is passed if `count` numbers are taken from the first full hundred above
`highest`. -/
def Exhausts (highest : NormId) (count : Nat) : Prop :=
  0 < count ∧ 4294967295 < (highest.toNat / 100 + 1) * 100 + count - 1

instance (highest : NormId) (count : Nat) : Decidable (Exhausts highest count) :=
  inferInstanceAs (Decidable (_ ∧ _))

theorem not_exhausts_iff {highest : NormId} {ps : List Proposal} :
    ¬ Exhausts highest ps.length ↔
      ps = [] ∨ (highest.toNat / 100 + 1) * 100 + ps.length ≤ UInt32.size := by
  have hsize : UInt32.size = 4294967296 := rfl
  have hlength : ps = [] ↔ ps.length = 0 := List.length_eq_zero_iff.symm
  rw [Exhausts, hlength]
  omega

/-! ### Words -/

/-- The number of hundreds fits into a word. -/
theorem toNat_hundreds (id : NormId) : (id / 100 + 1).toNat = id.toNat / 100 + 1 := by
  have hid : id.toNat < 4294967296 := id.toNat_lt
  rw [UInt32.toNat_add, UInt32.toNat_div]
  change (id.toNat / 100 + 1) % 4294967296 = id.toNat / 100 + 1
  omega

theorem firstId?_eq_some_iff {highest id : NormId} :
    firstId? highest = some id ↔ id.toNat = (highest / 100 + 1).toNat * 100 := by
  rw [firstId?, idOfNat?_eq_some_iff, toNat_hundreds]

theorem nextId?_eq_some_iff {id next : NormId} :
    nextId? id = some next ↔ next.toNat = id.toNat + 1 :=
  idOfNat?_eq_some_iff

end Enrichment

namespace Schema

open Enrichment

variable {schema : Schema} {norms : AutomatedNorms} {m : NormId}

/-- The highest number of a schema, which is zero if there are no norms. -/
def IsHighestId (schema : Schema) (id : NormId) : Prop :=
  (schema.norms = [] ∧ id = 0) ∨
    (∃ norm ∈ schema.norms, norm.id = id) ∧ ∀ norm ∈ schema.norms, norm.id ≤ id

instance (schema : Schema) : DecidablePred schema.IsHighestId := fun _ ↦
  inferInstanceAs (Decidable (_ ∨ _))

theorem IsHighestId.eq_maxNormId (h : schema.IsHighestId m) : m = schema.maxNormId := by
  rcases h with ⟨hnil, rfl⟩ | ⟨⟨norm, hnorm, rfl⟩, hall⟩
  · exact (maxNormId_of_norms_eq_nil hnil).symm
  · obtain ⟨last, hlast, hid⟩ := maxNormId_mem (List.ne_nil_of_mem hnorm)
    exact UInt32.le_antisymm (id_le_maxNormId hnorm) (hid ▸ hall last hlast)

/-- Enrichment fails exactly if it exhausts the numbers. -/
theorem enrich_eq_ok_or_error (norms : AutomatedNorms) (hids : (schema.norms.map Norm.id).Nodup) :
    (Exhausts schema.maxNormId (missing norms schema).length ∧
        schema.enrich norms = .error ⟨schema.maxNormId⟩) ∨
      (¬ Exhausts schema.maxNormId (missing norms schema).length ∧
        ∃ enriched report, schema.enrich norms = .ok (enriched, report)) := by
  rw [enrich_eq norms hids]
  by_cases hfits : Exhausts schema.maxNormId (missing norms schema).length
  · rw [if_neg (mt not_exhausts_iff.mpr (not_not_intro hfits))]
    exact .inl ⟨hfits, rfl⟩
  · rw [if_pos (not_exhausts_iff.mp hfits)]
    exact .inr ⟨hfits, _, _, rfl⟩

/-- Enrichment fails exactly if the norms that the schema lacks exhaust the numbers above its
highest. The call then leaves the schema as it was, whatever had been generated by then. The words
that it computes are those numbers. -/
theorem enrich_fails_iff_exhausts (norms : AutomatedNorms)
    (hids : (schema.norms.map Norm.id).Nodup) (hm : schema.IsHighestId m) :
    (schema.enrich norms = .error ⟨m⟩ ↔ Exhausts m (missing norms schema).length) ∧
      (Exhausts m (missing norms schema).length → (applyNorms norms).leaves schema = schema) ∧
      (¬ Exhausts m (missing norms schema).length →
        ∃ enriched report, schema.enrich norms = .ok (enriched, report)) ∧
      (m / 100 + 1).toNat = m.toNat / 100 + 1 ∧
      (∀ id, firstId? m = some id ↔ id.toNat = (m / 100 + 1).toNat * 100) ∧
      ∀ id next, nextId? id = some next ↔ next.toNat = id.toNat + 1 := by
  obtain rfl := hm.eq_maxNormId
  refine ⟨?_, ?_, ?_, toNat_hundreds _, fun _ ↦ firstId?_eq_some_iff,
    fun _ _ ↦ nextId?_eq_some_iff⟩
  · rcases enrich_eq_ok_or_error norms hids with ⟨hexhausts, herror⟩ | ⟨hnot, enriched, report, hok⟩
    · exact iff_of_true herror hexhausts
    · exact iff_of_false (by simp [hok]) hnot
  · intro hexhausts
    obtain ⟨-, herror⟩ := (enrich_eq_ok_or_error norms hids).resolve_right fun h ↦ h.1 hexhausts
    exact (isAtomic_applyNorms norms).leaves_eq herror
  · intro hnot
    exact ((enrich_eq_ok_or_error norms hids).resolve_left fun h ↦ hnot h.1).2

/-- A schema with one norm, above whose number there is one full hundred with 96 numbers left. -/
def nearlyFull : Schema where
  institution := some ⟨"Compraventa", "contrato", .multiple, "derecho-civil"⟩
  norms := [⟨4294967199, "comprador", .obligation, "pagar", none, [], .authored⟩]
  violations := []
  facts := []
  agendas := []

/-- So many defaults of a legal domain. -/
def defaultNorms (count : Nat) : AutomatedNorms where
  domainDefaults := ⟨[("derecho-civil",
    List.replicate count ⟨"juez", "debe", "resolver", none, none⟩)]⟩
  universalTemplates := .empty
  conditionalOnId := .empty

theorem enrich_fails_iff_exhausts_nearlyFull :
    (nearlyFull.norms.map Norm.id).Nodup ∧ nearlyFull.IsHighestId 4294967199 ∧
      nearlyFull.enrich (defaultNorms 97) = .error ⟨4294967199⟩ ∧
      (applyNorms (defaultNorms 97)).leaves nearlyFull = nearlyFull ∧
      ∃ enriched report, nearlyFull.enrich (defaultNorms 96) = .ok (enriched, report) := by
  have hids : (nearlyFull.norms.map Norm.id).Nodup := by decide
  have hm : nearlyFull.IsHighestId 4294967199 := by decide
  have hexhausts : Exhausts 4294967199 (missing (defaultNorms 97) nearlyFull).length := by
    decide +kernel
  have hfits : ¬ Exhausts 4294967199 (missing (defaultNorms 96) nearlyFull).length := by
    decide +kernel
  obtain ⟨hfails, hkept, -⟩ := enrich_fails_iff_exhausts (defaultNorms 97) hids hm
  obtain ⟨-, -, hsucceeds, -⟩ := enrich_fails_iff_exhausts (defaultNorms 96) hids hm
  exact ⟨hids, hm, hfails.mpr hexhausts, hkept hexhausts, hsucceeds hfits⟩

end Schema

end Normative
