import Mathlib.Data.List.Nodup
import Normative.Proofs.Enrichment.Effect

/-!
# Enrichment in between additions

An author may enrich a schema, add norms to it, and enrich it again. The norms that have been
generated in the end do not depend on when this was done: apart from their numbers and their order
they are those of one enrichment after all additions. Nothing is generated twice, and an
enrichment that follows another adds nothing, so it succeeds even if no numbers are left.

The reason is that the norms that a configuration has for a schema depend on its institution and
its authored norms only, and that generated norms can be told apart by their origins. After an
enrichment there is a generated norm for each of those, and for no other.

## Main definitions

* `Schema.generated` : the generated norms of a schema.
* `Norm.content` : a norm apart from its number.
* `Schema.Interleaving` : additions of authored norms with enrichments in between.

## Main results

* `Schema.IsGrown.perm_proposals` : what has been generated after an enrichment.
* `Schema.enrich_of_enriched` : an enrichment that follows another.
* `Schema.enrich_interleaving` : enrichment in between additions and after them.
-/

namespace Normative

/-- A norm apart from its number. -/
def Norm.content (norm : Norm) :
    Origin × String × Deontic × String × Option String × List Condition :=
  (norm.origin, norm.role, norm.deontic, norm.action, norm.scope, norm.conditions)

namespace Schema

open Enrichment

/-- The generated norms. -/
def generated (schema : Schema) : List Norm := schema.norms.filter (fun n ↦ !n.isAuthored)

/-- The schemas that are made from `start` by additions of authored norms, in the order of the list,
with any enrichments in between. -/
inductive Interleaving (norms : AutomatedNorms) (start : Schema) : List Norm → Schema → Prop
  | start : Interleaving norms start [] start
  | add {added : List Norm} {schema schema' : Schema} {norm : Norm}
      (before : Interleaving norms start added schema) (hauthored : norm.isAuthored = true)
      (hadd : schema.addNorm norm = .ok schema') :
      Interleaving norms start (added ++ [norm]) schema'
  | enrich {added : List Norm} {schema schema' : Schema} {report : Report}
      (before : Interleaving norms start added schema)
      (henrich : schema.enrich norms = .ok (schema', report)) :
      Interleaving norms start added schema'

variable {norms : AutomatedNorms} {schema schema' start : Schema} {report : Report}

theorem mem_generated_iff {norm : Norm} :
    norm ∈ schema.generated ↔ norm ∈ schema.norms ∧ norm.origin ≠ .authored := by
  simp [generated, Norm.isAuthored]

/-! ### The norms that a configuration has for a schema -/

theorem proposals_congr (hinstitution : schema'.institution = schema.institution)
    (hauthored : schema'.authored = schema.authored) :
    proposals norms schema' = proposals norms schema := by
  rw [proposals, proposals, legalDomain, legalDomain, hinstitution, hauthored]

/-- More authored norms mean more norms to be generated. -/
theorem proposals_subset (hinstitution : schema'.institution = schema.institution)
    (hauthored : schema.authored ⊆ schema'.authored) :
    proposals norms schema ⊆ proposals norms schema' := by
  have hdomain : legalDomain schema' = legalDomain schema := by
    rw [legalDomain, legalDomain, hinstitution]
  have hflatMap (f : Norm → List Proposal) :
      schema.authored.flatMap f ⊆ schema'.authored.flatMap f := fun p hp ↦ by
    obtain ⟨trigger, htrigger, hp⟩ := List.mem_flatMap.mp hp
    exact List.mem_flatMap.mpr ⟨trigger, hauthored htrigger, hp⟩
  intro p hp
  rw [proposals, List.mem_append] at hp ⊢
  rw [hdomain]
  refine hp.imp (fun hp ↦ ?_) fun hp ↦ hflatMap _ hp
  by_cases hempty : (legalDomain schema).isEmpty = true
  · rw [if_pos hempty] at hp ⊢
    exact hp
  · rw [if_neg hempty, List.mem_append] at hp ⊢
    exact hp.imp_right fun hp ↦ hflatMap _ hp

/-! ### What an enrichment adds -/

theorem exists_mem_numbered {p : Proposal} {ps : List Proposal} (hp : p ∈ ps) (first : Nat) :
    ∃ id, p.norm id ∈ numbered first ps := by
  obtain ⟨i, hi, rfl⟩ := List.getElem_of_mem hp
  exact ⟨_, List.mem_mapIdx.mpr ⟨i, hi, rfl⟩⟩

theorem map_origin_numbered (first : Nat) (ps : List Proposal) :
    (numbered first ps).map Norm.origin = ps.map Proposal.origin :=
  List.ext_getElem (by simp [numbered]) (by simp [numbered, Proposal.norm])

/-- What is left of an enrichment if the numbers are forgotten: the norms that were lacking stand
after the others. -/
theorem exists_numbered_of_enrich (hids : (schema.norms.map Norm.id).Nodup)
    (h : schema.enrich norms = .ok (schema', report)) :
    ∃ first, schema' =
      { schema with norms := schema.norms ++ numbered first (missing norms schema) } := by
  rw [enrich_eq norms hids] at h
  split at h
  · exact ⟨_, (Prod.mk.inj (Except.ok.inj h)).1.symm⟩
  · simp at h

/-- The norms that an enrichment adds are generated. -/
theorem origin_ne_authored_of_mem_numbered {first : Nat} {norm : Norm}
    (h : norm ∈ numbered first (missing norms schema)) : norm.origin ≠ .authored := by
  obtain ⟨i, -, p, hp, rfl⟩ := mem_numbered h
  rw [← filter_proposals] at hp
  exact origin_ne_authored (List.mem_filter.mp hp).1

theorem authored_enrich (hids : (schema.norms.map Norm.id).Nodup)
    (h : schema.enrich norms = .ok (schema', report)) : schema'.authored = schema.authored := by
  obtain ⟨first, rfl⟩ := exists_numbered_of_enrich hids h
  have hnone : (numbered first (missing norms schema)).filter Norm.isAuthored = [] :=
    List.filter_eq_nil_iff.mpr fun n hn ↦ by
      simpa [Norm.isAuthored] using origin_ne_authored_of_mem_numbered hn
  rw [authored, List.filter_append, hnone, List.append_nil, authored]

theorem generated_enrich (hids : (schema.norms.map Norm.id).Nodup)
    (h : schema.enrich norms = .ok (schema', report)) :
    ∃ first, schema'.generated = schema.generated ++ numbered first (missing norms schema) := by
  obtain ⟨first, rfl⟩ := exists_numbered_of_enrich hids h
  have hall : (numbered first (missing norms schema)).filter (fun n ↦ !n.isAuthored) =
      numbered first (missing norms schema) := List.filter_eq_self.mpr fun n hn ↦ by
    simpa [Norm.isAuthored] using origin_ne_authored_of_mem_numbered hn
  exact ⟨first, by rw [generated, List.filter_append, hall, generated]⟩

theorem institution_enrich (h : schema.enrich norms = .ok (schema', report)) :
    schema'.institution = schema.institution :=
  enrich_keeps (P := fun s ↦ s.institution = schema.institution) (fun s norm s' hs hadd ↦ by
    obtain ⟨-, -, rfl⟩ := addNorm_eq_ok_iff.mp hadd
    exact hs) rfl h

theorem proposals_enrich (hids : (schema.norms.map Norm.id).Nodup)
    (h : schema.enrich norms = .ok (schema', report)) :
    proposals norms schema' = proposals norms schema :=
  proposals_congr (institution_enrich h) (authored_enrich hids h)

/-- After an enrichment there is a norm for every proposal. -/
theorem hasOrigin_enrich (hids : (schema.norms.map Norm.id).Nodup)
    (h : schema.enrich norms = .ok (schema', report)) {p : Proposal}
    (hp : p ∈ proposals norms schema) : schema'.hasOrigin p.origin = true := by
  obtain ⟨first, rfl⟩ := exists_numbered_of_enrich hids h
  rw [hasOrigin_iff]
  by_cases hold : schema.hasOrigin p.origin = true
  · obtain ⟨norm, hnorm, horigin⟩ := hasOrigin_iff.mp hold
    exact ⟨norm, List.mem_append_left _ hnorm, horigin⟩
  · have hmissing : p ∈ missing norms schema := by
      rw [← filter_proposals]
      exact List.mem_filter.mpr ⟨hp, by simpa using hold⟩
    obtain ⟨id, hid⟩ := exists_mem_numbered hmissing first
    exact ⟨p.norm id, List.mem_append_right _ hid, rfl⟩

theorem nodup_enrich (hids : (schema.norms.map Norm.id).Nodup)
    (h : schema.enrich norms = .ok (schema', report)) : (schema'.norms.map Norm.id).Nodup :=
  enrich_keeps (P := fun s ↦ (s.norms.map Norm.id).Nodup) (fun _ _ _ ↦ nodup_addNorm) hids h

/-- An enrichment that follows another adds nothing. -/
theorem enrich_of_enriched (hids : (schema.norms.map Norm.id).Nodup)
    (h : schema.enrich norms = .ok (schema', report)) :
    schema'.enrich norms = .ok (schema', ⟨0, 0, 0⟩) := by
  have hnone : missing norms schema' = [] := by
    rw [← filter_proposals, List.filter_eq_nil_iff, proposals_enrich hids h]
    intro p hp
    simp [hasOrigin_enrich hids h hp]
  rw [enrich_eq norms (nodup_enrich hids h), hnone, if_pos (.inl rfl), numbered, List.mapIdx_nil,
    List.append_nil]
  rfl

/-! ### What has been generated -/

/-- Numbers and origins of generated norms are used once, and every generated norm is one that the
configuration has for the schema. -/
structure IsGrown (norms : AutomatedNorms) (schema : Schema) : Prop where
  nodup_id : (schema.norms.map Norm.id).Nodup
  nodup_origin : (schema.generated.map Norm.origin).Nodup
  proposed : ∀ n ∈ schema.generated, ∃ p ∈ proposals norms schema, n = p.norm n.id

theorem isGrown_of_authored (hids : (schema.norms.map Norm.id).Nodup)
    (hauthored : ∀ n ∈ schema.norms, n.isAuthored = true) : schema.IsGrown norms := by
  have hnone : schema.generated = [] :=
    List.filter_eq_nil_iff.mpr fun n hn ↦ by simp [hauthored n hn]
  exact ⟨hids, by simp [hnone], by simp [hnone]⟩

theorem IsGrown.addNorm {norm : Norm} (hs : schema.IsGrown norms)
    (hauthored : norm.isAuthored = true) (h : schema.addNorm norm = .ok schema') :
    schema'.IsGrown norms := by
  have hids := nodup_addNorm hs.nodup_id h
  obtain ⟨-, -, rfl⟩ := addNorm_eq_ok_iff.mp h
  have hsame : generated { schema with norms := schema.norms ++ [norm] } = schema.generated := by
    simp [generated, hauthored]
  have hmore : proposals norms schema ⊆
      proposals norms { schema with norms := schema.norms ++ [norm] } := by
    refine proposals_subset rfl ?_
    rw [authored, authored, List.filter_append]
    exact List.subset_append_left _ _
  refine ⟨hids, by rw [hsame]; exact hs.nodup_origin, fun n hn ↦ ?_⟩
  obtain ⟨p, hp, hn⟩ := hs.proposed n (hsame ▸ hn)
  exact ⟨p, hmore hp, hn⟩

theorem IsGrown.enrich (hs : schema.IsGrown norms)
    (h : schema.enrich norms = .ok (schema', report)) : schema'.IsGrown norms := by
  obtain ⟨first, hgenerated⟩ := generated_enrich hs.nodup_id h
  have hmissing : missing norms schema =
      (proposals norms schema).filter fun p ↦ !schema.hasOrigin p.origin :=
    (filter_proposals norms schema).symm
  refine ⟨nodup_enrich hs.nodup_id h, ?_, fun n hn ↦ ?_⟩
  · rw [hgenerated, List.map_append, map_origin_numbered, List.nodup_append]
    refine ⟨hs.nodup_origin, ?_, ?_⟩
    · rw [hmissing]
      exact (nodup_origin_proposals norms hs.nodup_id).sublist (List.filter_sublist.map _)
    · intro o ho o' ho' heq
      obtain ⟨n, hn, rfl⟩ := List.mem_map.mp ho
      obtain ⟨p, hp, rfl⟩ := List.mem_map.mp ho'
      have hlacks : schema.hasOrigin p.origin = false := by
        rw [hmissing] at hp
        simpa using (List.mem_filter.mp hp).2
      have hhas : schema.hasOrigin p.origin = true :=
        hasOrigin_iff.mpr ⟨n, (mem_generated_iff.mp hn).1, heq⟩
      simp [hlacks] at hhas
  · rw [proposals_enrich hs.nodup_id h]
    rw [hgenerated, List.mem_append] at hn
    rcases hn with hn | hn
    · exact hs.proposed n hn
    · obtain ⟨i, -, p, hp, rfl⟩ := mem_numbered hn
      rw [hmissing] at hp
      exact ⟨p, (List.mem_filter.mp hp).1, rfl⟩

/-- After an enrichment the generated norms are, numbers and order apart, those that the
configuration has for the schema. -/
theorem IsGrown.perm_proposals (hs : schema.IsGrown norms)
    (h : schema.enrich norms = .ok (schema', report)) :
    (schema'.generated.map Norm.content).Perm
      ((proposals norms schema').map fun p ↦ (p.norm 0).content) := by
  have hs' := hs.enrich h
  have horigins := nodup_origin_proposals norms hs'.nodup_id
  refine (List.perm_ext_iff_of_nodup ?_ ?_).mpr fun content ↦ ⟨fun hc ↦ ?_, fun hc ↦ ?_⟩
  · refine List.Nodup.of_map Prod.fst ?_
    rw [List.map_map]
    exact hs'.nodup_origin
  · refine List.Nodup.of_map Prod.fst ?_
    rw [List.map_map]
    exact horigins
  · obtain ⟨n, hn, rfl⟩ := List.mem_map.mp hc
    obtain ⟨p, hp, hnp⟩ := hs'.proposed n hn
    exact List.mem_map.mpr ⟨p, hp, by rw [hnp]; rfl⟩
  · obtain ⟨p, hp, rfl⟩ := List.mem_map.mp hc
    rw [proposals_enrich hs.nodup_id h] at hp
    obtain ⟨n, hn, horigin⟩ := hasOrigin_iff.mp (hasOrigin_enrich hs.nodup_id h hp)
    have hgenerated : n ∈ schema'.generated :=
      mem_generated_iff.mpr ⟨hn, horigin ▸ origin_ne_authored hp⟩
    -- The norm with this origin comes from the same proposal, since origins tell proposals apart.
    obtain ⟨q, hq, hnq⟩ := hs'.proposed n hgenerated
    have hpq : q.origin = p.origin := by
      rw [← horigin, hnq]
      rfl
    rw [← proposals_enrich hs.nodup_id h] at hp
    obtain rfl := List.inj_on_of_nodup_map horigins hq hp hpq
    exact List.mem_map.mpr ⟨n, hgenerated, by rw [hnq]; rfl⟩

/-- The origin of a generated norm occurs once in a schema. -/
theorem IsGrown.count_origin (hs : schema.IsGrown norms) {n : Norm} (hn : n ∈ schema.generated) :
    (schema.norms.map Norm.origin).count n.origin = 1 := by
  have hgenerated : schema.generated.map Norm.origin =
      (schema.norms.map Norm.origin).filter (fun o ↦ !decide (o = .authored)) := by
    rw [List.filter_map]
    rfl
  have hone := List.count_eq_one_of_mem hs.nodup_origin (List.mem_map_of_mem hn)
  rw [hgenerated, List.count_filter] at hone
  · exact hone
  · simpa using (mem_generated_iff.mp hn).2

/-! ### Additions with enrichments in between -/

section Interleaving

variable (hids : (start.norms.map Norm.id).Nodup)
  (hauthored : ∀ n ∈ start.norms, n.isAuthored = true) {added : List Norm}
include hids hauthored

theorem Interleaving.isGrown (h : Interleaving norms start added schema) :
    schema.IsGrown norms := by
  induction h with
  | start => exact isGrown_of_authored hids hauthored
  | add _ hnorm hadd ih => exact ih.addNorm hnorm hadd
  | enrich _ henrich ih => exact ih.enrich henrich

/-- The authored norms are those of the start and those that have been added. -/
theorem Interleaving.authored_eq (h : Interleaving norms start added schema) :
    schema.institution = start.institution ∧ schema.authored = start.norms ++ added := by
  induction h with
  | start =>
    rw [authored, List.filter_eq_self.mpr hauthored]
    simp
  | add _ hnorm hadd ih =>
    obtain ⟨-, -, rfl⟩ := addNorm_eq_ok_iff.mp hadd
    refine ⟨ih.1, ?_⟩
    rw [authored, List.filter_append, ← authored, ih.2, List.filter_cons_of_pos hnorm,
      List.filter_nil, List.append_assoc]
  | enrich before henrich ih =>
    have hs := before.isGrown hids hauthored
    exact ⟨(institution_enrich henrich).trans ih.1,
      (authored_enrich hs.nodup_id henrich).trans ih.2⟩

/-- Norms that are accepted in between enrichments are accepted without them. -/
theorem Interleaving.foldlM_addNorm (h : Interleaving norms start added schema) :
    added.foldlM addNorm start = .ok { start with norms := start.norms ++ added } := by
  induction h with
  | start =>
    rw [List.append_nil]
    rfl
  | @add added schema schema' norm before hnorm hadd ih =>
    obtain ⟨hnew, hle, -⟩ := addNorm_eq_ok_iff.mp hadd
    have hknown := (before.authored_eq hids hauthored).2
    have hfirst : addNorm { start with norms := start.norms ++ added } norm =
        .ok { start with norms := start.norms ++ (added ++ [norm]) } := by
      refine addNorm_eq_ok_iff.mpr ⟨fun n hn ↦ ?_, fun _ n hn ↦ ?_, by simp⟩
      · exact hnew n (List.mem_filter.mp (hknown ▸ hn)).1
      · exact hle hnorm n (hknown ▸ (List.mem_filter.mp hn).1)
    rw [List.foldlM_append, ih]
    exact congrArg (· >>= pure) hfirst
  | enrich _ _ ih => exact ih

end Interleaving

/-- Let authored norms be added to a schema that has only authored norms, with enrichments in
between, and let the result be enriched. The generated norms are, numbers and order apart, those
that one enrichment gives after the same additions, if it succeeds. Every origin of a generated norm
occurs once, and a further enrichment succeeds and changes nothing. -/
theorem enrich_interleaving {added : List Norm} (hids : (start.norms.map Norm.id).Nodup)
    (hauthored : ∀ n ∈ start.norms, n.isAuthored = true)
    (h : Interleaving norms start added schema)
    (henrich : schema.enrich norms = .ok (schema', report)) :
    (∃ first, added.foldlM addNorm start = .ok first ∧
        ∀ once report', first.enrich norms = .ok (once, report') →
          (schema'.generated.map Norm.content).Perm (once.generated.map Norm.content)) ∧
      (∀ n ∈ schema'.generated, (schema'.norms.map Norm.origin).count n.origin = 1) ∧
      ∃ report', schema'.enrich norms = .ok (schema', report') ∧ report'.total = 0 := by
  have hs := h.isGrown hids hauthored
  refine ⟨⟨_, h.foldlM_addNorm hids hauthored, fun once report' honce ↦ ?_⟩,
    fun n hn ↦ (hs.enrich henrich).count_origin hn, _, enrich_of_enriched hs.nodup_id henrich, rfl⟩
  obtain ⟨hinstitution, hknown⟩ := h.authored_eq hids hauthored
  have hall : ∀ n ∈ start.norms ++ added, n.isAuthored = true := fun n hn ↦
    (List.mem_filter.mp (hknown ▸ hn)).2
  have hfirst : IsGrown norms { start with norms := start.norms ++ added } := by
    refine isGrown_of_authored ?_ hall
    rw [← hknown]
    exact hs.nodup_id.sublist (List.filter_sublist.map Norm.id)
  have hsame : proposals norms once = proposals norms schema' := calc
    proposals norms once = proposals norms { start with norms := start.norms ++ added } :=
      proposals_enrich hfirst.nodup_id honce
    _ = proposals norms schema :=
      proposals_congr hinstitution.symm ((List.filter_eq_self.mpr hall).trans hknown.symm)
    _ = proposals norms schema' := (proposals_enrich hs.nodup_id henrich).symm
  have honce' := hfirst.perm_proposals honce
  rw [hsame] at honce'
  exact (hs.perm_proposals henrich).trans honce'.symm

/-- The sale of which only the payment has been written. -/
def payment : Schema :=
  { sale with norms := [⟨1, "comprador", .obligation, "pagar", none, [], .authored⟩] }

/-- The delivery, which is written later. -/
def delivery : Norm := ⟨7, "vendedor", .obligation, "entregar", none, [.norm 1], .authored⟩

/-- What is generated for the payment alone. -/
def paymentEnriched : Schema :=
  { payment with
    norms := payment.norms ++
      [⟨100, "juez", .obligation, "resolver [Ref: art. 1]", none, [],
          .domainDefault "derecho-civil" 0⟩,
        ⟨101, "autoridad", .privilege, "revisar pagar", none, [], .template 1 0⟩] }

/-- What is generated for the delivery after that. -/
def deliveryEnriched : Schema :=
  { paymentEnriched with
    norms := paymentEnriched.norms ++
      [delivery,
        ⟨200, "autoridad", .privilege, "revisar entregar", none, [], .template 7 0⟩,
        ⟨201, "vendedor", .prohibition, "demorar", some "bien", [], .conditional 7 0⟩] }

/-- What is generated for both at once. -/
def bothEnriched : Schema :=
  { payment with
    norms := payment.norms ++
      [delivery,
        ⟨100, "juez", .obligation, "resolver [Ref: art. 1]", none, [],
          .domainDefault "derecho-civil" 0⟩,
        ⟨101, "autoridad", .privilege, "revisar pagar", none, [], .template 1 0⟩,
        ⟨102, "autoridad", .privilege, "revisar entregar", none, [], .template 7 0⟩,
        ⟨103, "vendedor", .prohibition, "demorar", some "bien", [], .conditional 7 0⟩] }

theorem enrich_interleaving_sale :
    (payment.norms.map Norm.id).Nodup ∧ (∀ n ∈ payment.norms, n.isAuthored = true) ∧
      ∃ schema, Interleaving saleNorms payment [delivery] schema ∧
        schema.enrich saleNorms = .ok (deliveryEnriched, ⟨0, 1, 1⟩) ∧
        (deliveryEnriched.generated.map Norm.content).Perm
          (bothEnriched.generated.map Norm.content) ∧
        (∀ n ∈ deliveryEnriched.generated,
          (deliveryEnriched.norms.map Norm.origin).count n.origin = 1) ∧
        ∃ report, deliveryEnriched.enrich saleNorms = .ok (deliveryEnriched, report) ∧
          report.total = 0 := by
  have hids : (payment.norms.map Norm.id).Nodup := by decide
  have hauthored : ∀ n ∈ payment.norms, n.isAuthored = true := by decide
  have hpayment : payment.enrich saleNorms = .ok (paymentEnriched, ⟨1, 1, 0⟩) := by rfl
  have hadd : paymentEnriched.addNorm delivery =
      .ok { paymentEnriched with norms := paymentEnriched.norms ++ [delivery] } := by rfl
  have hdelivery : enrich saleNorms
      { paymentEnriched with norms := paymentEnriched.norms ++ [delivery] } =
        .ok (deliveryEnriched, ⟨0, 1, 1⟩) := by rfl
  have hfirst : [delivery].foldlM addNorm payment =
      .ok { payment with norms := payment.norms ++ [delivery] } := by rfl
  have hboth : enrich saleNorms { payment with norms := payment.norms ++ [delivery] } =
      .ok (bothEnriched, ⟨1, 2, 1⟩) := by rfl
  have hrun : Interleaving saleNorms payment [delivery] _ := .add (.enrich .start hpayment) rfl hadd
  obtain ⟨⟨first, hfirst', hperm⟩, hcount, hagain⟩ :=
    enrich_interleaving hids hauthored hrun hdelivery
  obtain rfl := Except.ok.inj (hfirst.symm.trans hfirst')
  exact ⟨hids, hauthored, _, hrun, hdelivery, hperm _ _ hboth, hcount, hagain⟩

end Schema

end Normative
