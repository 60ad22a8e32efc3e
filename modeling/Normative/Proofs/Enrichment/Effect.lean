import Mathlib.Order.Bounds.Defs
import Normative.Enrichment
import Normative.Proofs.Schema.Numbering

/-!
# The effect of enrichment

Enrichment adds to a schema the configured norms that it lacks, under consecutive numbers, or
nothing at all. Which norms are lacking is told from the schema as it was before: the norms that
are generated in one run differ in their origins, so that none of them stands in the way of
another. For the same reason none is refused, since the numbers count upwards from above every
number in use.

The run is described by one equation, from which all the rest follows. After some norms have been
generated the state of the run is known (`Enrichment.Progress.after`), and a step either leaves it,
or generates one more norm, or finds the numbers exhausted.

## Main definitions

* `Enrichment.missing` : the configured norms that a schema lacks, in three tiers.
* `Enrichment.numbered` : proposed norms under consecutive numbers.

## Main results

* `Enrichment.run_generate_forM` : a run from a known state.
* `Schema.enrich_eq` : what enrichment returns.
* `Schema.enrich_keeps` : what every addition of a norm keeps, enrichment keeps.
* `Schema.enrich_adds_missing` : what a successful run adds to a schema.
-/

namespace Normative

namespace Enrichment

variable {schema : Schema} {norms : AutomatedNorms} {n first : Nat} {id : NormId}

/-! ### Numbers -/

theorem idOfNat?_eq_some_iff : idOfNat? n = some id ↔ id.toNat = n := by
  have hid : id.toNat < UInt32.size := id.toNat_lt
  rw [idOfNat?]
  split
  · rename_i hn
    rw [Option.some_inj, ← UInt32.toNat_inj, UInt32.toNat_ofNat_of_lt' hn, eq_comm]
  · simp only [reduceCtorEq, false_iff]
    omega

theorem idOfNat?_of_lt (hn : n < UInt32.size) : idOfNat? n = some (UInt32.ofNat n) := if_pos hn

theorem idOfNat?_of_le (hn : UInt32.size ≤ n) : idOfNat? n = none := if_neg (Nat.not_lt.mpr hn)

/-! ### The norms that a schema lacks -/

/-- The norms of a list of templates that a schema lacks. The origin of a norm is told from the
place of its template. -/
def missingFrom (schema : Schema) (templates : List NormTemplate) (action : NormTemplate → String)
    (origin : Nat → Origin) : List Proposal :=
  templates.zipIdx.filterMap fun t ↦
    if ∃ norm ∈ schema.norms, norm.origin = origin t.2 then none
    else some ⟨t.1, action t.1, origin t.2⟩

/-- The defaults of its legal domain that a schema lacks. -/
def missingDefaults (norms : AutomatedNorms) (schema : Schema) : List Proposal :=
  if legalDomain schema = "" then []
  else
    missingFrom schema ((norms.domainDefaults.getFold? (legalDomain schema)).getD []) citedAction
      (.domainDefault (legalDomain schema))

/-- The templates of its legal domain, applied to authored norms, that a schema lacks. -/
def missingTemplates (norms : AutomatedNorms) (schema : Schema) : List Proposal :=
  if legalDomain schema = "" then []
  else
    schema.authored.flatMap fun trigger ↦
      missingFrom schema ((norms.universalTemplates.getFold? (legalDomain schema)).getD [])
        (instantiatedAction · trigger) (.template trigger.id)

/-- The norms that belong to the identifiers of authored norms and that a schema lacks. -/
def missingConditional (norms : AutomatedNorms) (schema : Schema) : List Proposal :=
  schema.authored.flatMap fun trigger ↦
    missingFrom schema ((norms.conditionalOnId.get? trigger.id.decimal).getD []) citedAction
      (.conditional trigger.id)

/-- The configured norms that a schema lacks. -/
def missing (norms : AutomatedNorms) (schema : Schema) : List Proposal :=
  missingDefaults norms schema ++ missingTemplates norms schema ++
    missingConditional norms schema

theorem hasOrigin_iff {origin : Origin} :
    schema.hasOrigin origin = true ↔ ∃ norm ∈ schema.norms, norm.origin = origin := by
  simp [Schema.hasOrigin]

theorem filter_zipIdx_map (schema : Schema) (templates : List NormTemplate)
    (action : NormTemplate → String) (origin : Nat → Origin) :
    (templates.zipIdx.map fun t ↦ (⟨t.1, action t.1, origin t.2⟩ : Proposal)).filter
      (fun p ↦ !schema.hasOrigin p.origin) = missingFrom schema templates action origin := by
  rw [missingFrom, ← List.filterMap_eq_filter, List.filterMap_map]
  congr 1
  funext t
  by_cases h : schema.hasOrigin (origin t.2) = true
  · rw [if_pos (hasOrigin_iff.mp h)]
    simp [h]
  · rw [if_neg (mt hasOrigin_iff.mpr h)]
    simp [h]

/-- The proposals whose origins a schema does not have are the norms that it lacks. -/
theorem filter_proposals (norms : AutomatedNorms) (schema : Schema) :
    (proposals norms schema).filter (fun p ↦ !schema.hasOrigin p.origin) =
      missing norms schema := by
  have hdomain : (legalDomain schema).isEmpty = true ↔ legalDomain schema = "" :=
    String.isEmpty_iff
  rw [proposals, missing, missingDefaults, missingTemplates, missingConditional,
    conditionalProposals, List.filter_append, List.filter_flatMap]
  simp only [filter_zipIdx_map]
  congr 1
  by_cases h : legalDomain schema = ""
  · rw [if_pos (hdomain.mpr h), if_pos h, if_pos h]
    rfl
  · have happlied (trigger : Norm) := filter_zipIdx_map schema
      ((norms.universalTemplates.getFold? (legalDomain schema)).getD [])
      (instantiatedAction · trigger) (.template trigger.id)
    rw [if_neg (mt hdomain.mp h), if_neg h, if_neg h, List.filter_append, domainProposals,
      templateProposals, List.filter_flatMap, filter_zipIdx_map]
    simp only [happlied]

/-! ### Origins -/

/-- Norms of a list of templates differ in their origins. -/
theorem nodup_zipIdx_map (templates : List NormTemplate) (origin : Nat → Origin)
    (horigin : ∀ i j, origin i = origin j → i = j) :
    (templates.zipIdx.map fun t ↦ origin t.2).Nodup := by
  have hplaces : (templates.zipIdx.map Prod.snd).Nodup := by
    rw [List.zipIdx_map_snd]
    exact List.nodup_range'
  refine List.pairwise_map.mpr ((List.pairwise_map.mp hplaces).imp fun hne h ↦ ?_)
  exact hne (horigin _ _ h)

/-- Norms that belong to different authored norms differ in their origins. -/
theorem nodup_flatMap_origin {triggers : List Norm} (hids : (triggers.map Norm.id).Nodup)
    (templates : Norm → List NormTemplate) (origin : NormId → Nat → Origin)
    (horigin : ∀ id id' i j, origin id i = origin id' j → id = id' ∧ i = j) :
    (triggers.flatMap fun trigger ↦
      (templates trigger).zipIdx.map fun t ↦ origin trigger.id t.2).Nodup := by
  refine List.pairwise_flatMap.mpr ⟨fun trigger _ ↦ ?_, ?_⟩
  · exact nodup_zipIdx_map _ _ fun i j h ↦ (horigin _ _ i j h).2
  · refine (List.pairwise_map.mp hids).imp fun hne x hx y hy hxy ↦ ?_
    obtain ⟨t, -, rfl⟩ := List.mem_map.mp hx
    obtain ⟨t', -, rfl⟩ := List.mem_map.mp hy
    exact hne (horigin _ _ _ _ hxy).1

theorem origin_of_mem_domainProposals {domain : String} {p : Proposal}
    (h : p ∈ domainProposals norms domain) : ∃ i, p.origin = .domainDefault domain i := by
  obtain ⟨t, -, rfl⟩ := List.mem_map.mp h
  exact ⟨t.2, rfl⟩

theorem origin_of_mem_templateProposals {domain : String} {triggers : List Norm} {p : Proposal}
    (h : p ∈ templateProposals norms domain triggers) : ∃ id i, p.origin = .template id i := by
  obtain ⟨trigger, -, hp⟩ := List.mem_flatMap.mp h
  obtain ⟨t, -, rfl⟩ := List.mem_map.mp hp
  exact ⟨trigger.id, t.2, rfl⟩

theorem origin_of_mem_conditionalProposals {triggers : List Norm} {p : Proposal}
    (h : p ∈ conditionalProposals norms triggers) : ∃ id i, p.origin = .conditional id i := by
  obtain ⟨trigger, -, hp⟩ := List.mem_flatMap.mp h
  obtain ⟨t, -, rfl⟩ := List.mem_map.mp hp
  exact ⟨trigger.id, t.2, rfl⟩

theorem mem_proposals {p : Proposal} (h : p ∈ proposals norms schema) :
    p ∈ domainProposals norms (legalDomain schema) ∨
      p ∈ templateProposals norms (legalDomain schema) schema.authored ∨
      p ∈ conditionalProposals norms schema.authored := by
  rw [proposals, List.mem_append] at h
  split at h <;> simp_all [or_assoc]

/-- No generated norm is authored. -/
theorem origin_ne_authored {p : Proposal} (h : p ∈ proposals norms schema) :
    p.origin ≠ .authored := by
  intro hp
  rcases mem_proposals h with h | h | h
  · obtain ⟨i, hi⟩ := origin_of_mem_domainProposals h
    simp [hp] at hi
  · obtain ⟨id, i, hi⟩ := origin_of_mem_templateProposals h
    simp [hp] at hi
  · obtain ⟨id, i, hi⟩ := origin_of_mem_conditionalProposals h
    simp [hp] at hi

/-- All norms that a configuration has for a schema differ in their origins. -/
theorem nodup_origin_proposals (norms : AutomatedNorms)
    (hids : (schema.norms.map Norm.id).Nodup) :
    ((proposals norms schema).map Proposal.origin).Nodup := by
  have hauthored : (schema.authored.map Norm.id).Nodup :=
    hids.sublist (List.filter_sublist.map Norm.id)
  have hdefaults : ((domainProposals norms (legalDomain schema)).map Proposal.origin).Nodup := by
    rw [domainProposals, List.map_map]
    exact nodup_zipIdx_map _ (.domainDefault (legalDomain schema)) (by simp)
  have htemplates : ((templateProposals norms (legalDomain schema) schema.authored).map
      Proposal.origin).Nodup := by
    rw [templateProposals, List.map_flatMap]
    simp only [List.map_map]
    exact nodup_flatMap_origin hauthored _ .template (by simp)
  have hconditional : ((conditionalProposals norms schema.authored).map
      Proposal.origin).Nodup := by
    rw [conditionalProposals, List.map_flatMap]
    simp only [List.map_map]
    exact nodup_flatMap_origin hauthored _ .conditional (by simp)
  have htiers : ((domainProposals norms (legalDomain schema) ++
      templateProposals norms (legalDomain schema) schema.authored ++
      conditionalProposals norms schema.authored).map Proposal.origin).Nodup := by
    simp only [List.map_append, List.nodup_append, List.mem_append, List.mem_map]
    refine ⟨⟨hdefaults, htemplates, ?_⟩, hconditional, ?_⟩
    · rintro _ ⟨p, hp, rfl⟩ _ ⟨q, hq, rfl⟩ h
      obtain ⟨i, hi⟩ := origin_of_mem_domainProposals hp
      obtain ⟨id, j, hj⟩ := origin_of_mem_templateProposals hq
      simp [hi, hj] at h
    · rintro _ (⟨p, hp, rfl⟩ | ⟨p, hp, rfl⟩) _ ⟨q, hq, rfl⟩ h
      · obtain ⟨i, hi⟩ := origin_of_mem_domainProposals hp
        obtain ⟨id, j, hj⟩ := origin_of_mem_conditionalProposals hq
        simp [hi, hj] at h
      · obtain ⟨id, i, hi⟩ := origin_of_mem_templateProposals hp
        obtain ⟨id', j, hj⟩ := origin_of_mem_conditionalProposals hq
        simp [hi, hj] at h
  rw [proposals]
  split
  · exact hconditional
  · exact htiers

/-! ### The state of a run -/

/-- Proposed norms under consecutive numbers. -/
def numbered (first : Nat) (ps : List Proposal) : List Norm :=
  ps.mapIdx fun i p ↦ p.norm (UInt32.ofNat (first + i))

/-- The report on proposed norms. -/
def tally (ps : List Proposal) : Report :=
  ps.foldl (fun report p ↦ report.count p.origin) ⟨0, 0, 0⟩

/-- The state of a run in which norms have been generated. -/
def Progress.after (schema : Schema) (first : Nat) (generated : List Proposal) : Progress where
  schema := { schema with norms := schema.norms ++ numbered first generated }
  next := idOfNat? (first + generated.length)
  report := tally generated

theorem numbered_concat (first : Nat) (ps : List Proposal) (p : Proposal) :
    numbered first (ps ++ [p]) =
      numbered first ps ++ [p.norm (UInt32.ofNat (first + ps.length))] := by
  rw [numbered, List.mapIdx_concat, numbered]

theorem mem_numbered {ps : List Proposal} {norm : Norm} (h : norm ∈ numbered first ps) :
    ∃ i < ps.length, ∃ p ∈ ps, norm = p.norm (UInt32.ofNat (first + i)) := by
  obtain ⟨i, hi, rfl⟩ := List.mem_mapIdx.mp h
  exact ⟨i, hi, _, List.getElem_mem hi, rfl⟩

/-- A norm whose origin has not been generated is in the schema as it has grown exactly if it was
there before. -/
theorem hasOrigin_after {done : List Proposal} {origin : Origin}
    (hnew : origin ∉ done.map Proposal.origin) :
    (Progress.after schema first done).schema.hasOrigin origin = schema.hasOrigin origin := by
  rw [Bool.eq_iff_iff, hasOrigin_iff, hasOrigin_iff]
  constructor
  · rintro ⟨norm, hnorm, rfl⟩
    rcases List.mem_append.mp hnorm with hnorm | hnorm
    · exact ⟨norm, hnorm, rfl⟩
    · obtain ⟨i, -, p, hp, rfl⟩ := mem_numbered hnorm
      exact absurd (List.mem_map_of_mem hp) hnew
  · rintro ⟨norm, hnorm, rfl⟩
    exact ⟨norm, List.mem_append_left _ hnorm, rfl⟩

/-- A norm with the next number is accepted. -/
theorem addNorm_after (habove : ∀ norm ∈ schema.norms, norm.id.toNat < first)
    {done : List Proposal} (hsize : first + done.length < UInt32.size) {p : Proposal}
    (hp : p.origin ≠ .authored) :
    (Progress.after schema first done).schema.addNorm
        (p.norm (UInt32.ofNat (first + done.length))) =
      .ok (Progress.after schema first (done ++ [p])).schema := by
  have hnext : (UInt32.ofNat (first + done.length)).toNat = first + done.length :=
    UInt32.toNat_ofNat_of_lt' hsize
  refine Schema.addNorm_eq_ok_iff.mpr ⟨fun norm hnorm h ↦ ?_, fun h ↦ ?_, ?_⟩
  · -- The number is above those of the schema, and generated norms have smaller ones.
    have hid : norm.id.toNat = first + done.length := by
      rw [h]
      exact hnext
    rcases List.mem_append.mp hnorm with hnorm | hnorm
    · have hlt := habove norm hnorm
      omega
    · obtain ⟨i, hi, q, -, rfl⟩ := mem_numbered hnorm
      have hi' : (UInt32.ofNat (first + i)).toNat = first + i :=
        UInt32.toNat_ofNat_of_lt' (by omega)
      have hsame : first + i = first + done.length := hi'.symm.trans hid
      omega
  · exact absurd (of_decide_eq_true h) hp
  · simp only [Progress.after, numbered_concat, List.append_assoc]

/-- A step of a run. -/
theorem run_generate (greatest : NormId) (p : Proposal) (progress : Progress) :
    (generate greatest p).run progress =
      if progress.schema.hasOrigin p.origin then .ok () progress
      else
        match progress.next with
        | none => .error ⟨greatest⟩ progress
        | some id =>
          match (Schema.pushNorm (p.norm id)).run progress.schema with
          | .ok _ grown => .ok () ⟨grown, nextId? id, progress.report.count p.origin⟩
          | .error _ kept => .ok () ⟨kept, nextId? id, progress.report⟩ := by
  simp only [generate, takeId, EStateM.run_bind, EStateM.run_get]
  split
  · rfl
  · simp only [EStateM.run_bind, EStateM.run_get]
    cases progress.next with
    | none => rfl
    | some id =>
      simp only [EStateM.run_bind, EStateM.run_modify, EStateM.run_pure, pushGenerated]
      cases (Schema.pushNorm (p.norm id)).run progress.schema <;> rfl

theorem run_generate_cons (greatest : NormId) (p : Proposal) (ps : List Proposal)
    (progress : Progress) :
    (forM (p :: ps) (generate greatest)).run progress =
      match (generate greatest p).run progress with
      | .ok _ next => (forM ps (generate greatest)).run next
      | .error e last => .error e last := by
  rw [List.forM_cons, EStateM.run_bind]
  cases (generate greatest p).run progress <;> rfl

/-- A step of a run from a known state: a norm that the schema had before is passed over, and any
other is generated if there is a number left. -/
theorem run_generate_after (habove : ∀ norm ∈ schema.norms, norm.id.toNat < first)
    {done : List Proposal} {p : Proposal} (hnew : p.origin ∉ done.map Proposal.origin)
    (hp : p.origin ≠ .authored) (greatest : NormId) :
    (generate greatest p).run (.after schema first done) =
      if schema.hasOrigin p.origin then .ok () (.after schema first done)
      else if first + done.length < UInt32.size then .ok () (.after schema first (done ++ [p]))
      else .error ⟨greatest⟩ (.after schema first done) := by
  rw [run_generate, hasOrigin_after hnew]
  by_cases hold : schema.hasOrigin p.origin = true
  · rw [if_pos hold, if_pos hold]
  · rw [if_neg hold, if_neg hold]
    by_cases hsize : first + done.length < UInt32.size
    · have hnext : (Progress.after schema first done).next =
          some (UInt32.ofNat (first + done.length)) := idOfNat?_of_lt hsize
      have hlater : nextId? (UInt32.ofNat (first + done.length)) =
          (Progress.after schema first (done ++ [p])).next := by
        rw [nextId?, UInt32.toNat_ofNat_of_lt' hsize, Progress.after, List.length_append,
          List.length_singleton, Nat.add_assoc]
      have hpush := Schema.Call.map_outcome_eq_ok_iff.mp (addNorm_after habove hsize hp)
      have hreport : (Progress.after schema first done).report.count p.origin =
          (Progress.after schema first (done ++ [p])).report := by
        rw [Progress.after, Progress.after, tally, tally, List.foldl_append]
        rfl
      simp only [hnext, hpush, if_pos hsize, hlater, hreport]
    · have hnext : (Progress.after schema first done).next = none :=
        idOfNat?_of_le (Nat.not_lt.mp hsize)
      simp only [hnext, if_neg hsize]

/-- If there is a number for the first of some norms, there are enough for all of them exactly if
there are enough for the others from the next one on. -/
theorem fits_cons_iff (hn : n < UInt32.size) {p : Proposal} {ps : List Proposal} :
    (p :: ps = [] ∨ n + (p :: ps).length ≤ UInt32.size) ↔
      (ps = [] ∨ n + 1 + ps.length ≤ UInt32.size) := by
  rw [List.length_cons]
  constructor
  · rintro (hcons | hle)
    · exact absurd hcons (List.cons_ne_nil p ps)
    · omega
  · rintro (rfl | hle)
    · rw [List.length_nil]
      omega
    · omega

/-- A run generates the norms that the schema lacks if there are enough numbers for all of them. It
fails otherwise, after as many of them as there are numbers. -/
theorem run_generate_forM (habove : ∀ norm ∈ schema.norms, norm.id.toNat < first)
    (greatest : NormId) (done : List Proposal) {ps : List Proposal}
    (hnodup : ((done ++ ps).map Proposal.origin).Nodup) (hps : ∀ p ∈ ps, p.origin ≠ .authored) :
    (forM ps (generate greatest)).run (.after schema first done) =
      if ps.filter (fun p ↦ !schema.hasOrigin p.origin) = [] ∨
          first + done.length + (ps.filter fun p ↦ !schema.hasOrigin p.origin).length ≤ UInt32.size
      then .ok () (.after schema first (done ++ ps.filter fun p ↦ !schema.hasOrigin p.origin))
      else .error ⟨greatest⟩ (.after schema first
        (done ++ (ps.filter fun p ↦ !schema.hasOrigin p.origin).take
          (UInt32.size - (first + done.length)))) := by
  -- Along the proposals that are left; those that have been generated grow with each step.
  induction ps generalizing done with
  | nil =>
    rw [List.filter_nil, if_pos (.inl rfl), List.append_nil]
    rfl
  | cons p ps ih =>
    have hps' : ∀ p' ∈ ps, p'.origin ≠ .authored := fun p' hp' ↦
      hps p' (List.mem_cons_of_mem p hp')
    have hnew : p.origin ∉ done.map Proposal.origin := by
      rw [List.map_append, List.map_cons, List.nodup_append] at hnodup
      exact fun hmem ↦ hnodup.2.2 _ hmem _ List.mem_cons_self rfl
    rw [run_generate_cons, run_generate_after habove hnew (hps p List.mem_cons_self)]
    by_cases hold : schema.hasOrigin p.origin = true
    · have hrest : ((done ++ ps).map Proposal.origin).Nodup :=
        hnodup.sublist (((List.sublist_cons_self p ps).append_left done).map _)
      rw [if_pos hold, List.filter_cons_of_neg (by simp [hold]), ← ih done hrest hps']
    · rw [if_neg hold, List.filter_cons_of_pos (by simp [hold])]
      by_cases hsize : first + done.length < UInt32.size
      · have hrest : (((done ++ [p]) ++ ps).map Proposal.origin).Nodup := by
          rwa [List.append_assoc, List.singleton_append]
        have hleft : UInt32.size - (first + done.length) =
            UInt32.size - (first + (done ++ [p]).length) + 1 := by
          rw [List.length_append, List.length_singleton]
          omega
        rw [if_pos hsize, hleft, List.take_succ_cons]
        refine (ih (done ++ [p]) hrest hps').trans
          (ite_congr (propext ?_) (fun _ ↦ ?_) fun _ ↦ ?_)
        · rw [List.length_append, List.length_singleton, ← Nat.add_assoc, fits_cons_iff hsize]
        · rw [List.append_assoc, List.singleton_append]
        · rw [List.append_assoc, List.singleton_append]
      · have hnone : UInt32.size - (first + done.length) = 0 := by omega
        rw [if_neg hsize, if_neg, hnone, List.take_zero, List.append_nil]
        simp only [List.cons_ne_nil, List.length_cons, false_or]
        omega

section Keeps

variable {P : Schema → Prop}
  (hadd : ∀ (s : Schema) (norm : Norm) (s' : Schema), P s → s.addNorm norm = .ok s' → P s')
include hadd

/-- A step of a run adds one norm or none. -/
theorem generate_keeps {progress progress' : Progress} {p : Proposal} {greatest : NormId}
    (hP : P progress.schema) (h : (generate greatest p).run progress = .ok () progress') :
    P progress'.schema := by
  rw [run_generate] at h
  split at h
  · cases h
    exact hP
  · split at h
    · cases h
    · split at h
      · rename_i hpush
        cases h
        exact hadd _ _ _ hP (Schema.Call.map_outcome_eq_ok_iff.mpr hpush)
      · rename_i refusal kept hpush
        cases h
        obtain rfl := Schema.isAtomic_pushNorm _ _ _ _ hpush
        exact hP

theorem generate_forM_keeps {progress progress' : Progress} {ps : List Proposal}
    {greatest : NormId} (hP : P progress.schema)
    (h : (forM ps (generate greatest)).run progress = .ok () progress') : P progress'.schema := by
  induction ps generalizing progress with
  | nil =>
    cases h
    exact hP
  | cons p ps ih =>
    rw [run_generate_cons] at h
    cases hstep : (generate greatest p).run progress with
    | error e last => simp [hstep] at h
    | ok _ next =>
      rw [hstep] at h
      exact ih (generate_keeps hadd hP hstep) h

end Keeps

/-! ### The report -/

/-- Norms of one tier are counted in one place. -/
theorem foldl_count {a b c : Nat} {ps : List Proposal}
    (hps : ∀ p ∈ ps, ∀ report : Report, report.count p.origin =
      ⟨report.domainDefaults + a, report.templates + b, report.conditional + c⟩)
    (report : Report) :
    ps.foldl (fun report p ↦ report.count p.origin) report =
      ⟨report.domainDefaults + ps.length * a, report.templates + ps.length * b,
        report.conditional + ps.length * c⟩ := by
  induction ps generalizing report with
  | nil => simp
  | cons p ps ih =>
    rw [List.foldl_cons, hps p List.mem_cons_self,
      ih fun p' hp' ↦ hps p' (List.mem_cons_of_mem p hp')]
    simp only [List.length_cons, Nat.add_mul, Nat.one_mul, Report.mk.injEq]
    omega

theorem count_of_mem_missingFrom {a b c : Nat} {templates : List NormTemplate}
    {action : NormTemplate → String} {origin : Nat → Origin}
    (horigin : ∀ i, ∀ report : Report, report.count (origin i) =
      ⟨report.domainDefaults + a, report.templates + b, report.conditional + c⟩)
    {p : Proposal} (hp : p ∈ missingFrom schema templates action origin) (report : Report) :
    report.count p.origin =
      ⟨report.domainDefaults + a, report.templates + b, report.conditional + c⟩ := by
  obtain ⟨t, -, ht⟩ := List.mem_filterMap.mp hp
  split at ht
  · simp at ht
  · obtain rfl := Option.some.inj ht
    exact horigin t.2 report

/-- The report counts the norms of each tier. -/
theorem tally_missing (norms : AutomatedNorms) (schema : Schema) :
    tally (missing norms schema) =
      ⟨(missingDefaults norms schema).length, (missingTemplates norms schema).length,
        (missingConditional norms schema).length⟩ := by
  have hdefaults : ∀ p ∈ missingDefaults norms schema, ∀ report : Report, report.count p.origin =
      ⟨report.domainDefaults + 1, report.templates + 0, report.conditional + 0⟩ := by
    intro p hp report
    rw [missingDefaults] at hp
    split at hp
    · simp at hp
    · exact count_of_mem_missingFrom (fun _ _ ↦ rfl) hp report
  have htemplates : ∀ p ∈ missingTemplates norms schema, ∀ report : Report,
      report.count p.origin =
        ⟨report.domainDefaults + 0, report.templates + 1, report.conditional + 0⟩ := by
    intro p hp report
    rw [missingTemplates] at hp
    split at hp
    · simp at hp
    · obtain ⟨trigger, -, hp⟩ := List.mem_flatMap.mp hp
      exact count_of_mem_missingFrom (fun _ _ ↦ rfl) hp report
  have hconditional : ∀ p ∈ missingConditional norms schema, ∀ report : Report,
      report.count p.origin =
        ⟨report.domainDefaults + 0, report.templates + 0, report.conditional + 1⟩ := by
    intro p hp report
    obtain ⟨trigger, -, hp⟩ := List.mem_flatMap.mp hp
    exact count_of_mem_missingFrom (fun _ _ ↦ rfl) hp report
  rw [tally, missing, List.foldl_append, List.foldl_append, foldl_count hdefaults,
    foldl_count htemplates, foldl_count hconditional]
  simp

end Enrichment

namespace Schema

open Enrichment

variable {schema : Schema} {norms : AutomatedNorms}

theorem toNat_lt_first {norm : Norm} (h : norm ∈ schema.norms) :
    norm.id.toNat < (schema.maxNormId.toNat / 100 + 1) * 100 := by
  have hle := UInt32.le_iff_toNat_le.mp (id_le_maxNormId h)
  omega

/-- The schema that is held after enrichment is the copy if the work on it has been completed, and
the schema as it was if the work has been broken off. -/
theorem run_applyNorms (norms : AutomatedNorms) (schema : Schema) :
    (applyNorms norms).run schema =
      match (forM (proposals norms schema) (generate schema.maxNormId)).run
          ⟨schema, firstId? schema.maxNormId, ⟨0, 0, 0⟩⟩ with
      | .error e _ => .error e schema
      | .ok _ grown => .ok grown.report grown.schema := by
  simp only [applyNorms, EStateM.run_bind, EStateM.run_get]
  cases (forM (proposals norms schema) (generate schema.maxNormId)).run _ <;> rfl

theorem isAtomic_applyNorms (norms : AutomatedNorms) : (applyNorms norms).IsAtomic := by
  intro schema e left h
  rw [run_applyNorms] at h
  split at h
  · cases h
    rfl
  · cases h

/-- What enrichment returns: the schema with all norms that it lacks under consecutive numbers,
unless the numbers run out. -/
theorem enrich_eq (norms : AutomatedNorms) (hids : (schema.norms.map Norm.id).Nodup) :
    schema.enrich norms =
      if missing norms schema = [] ∨
          (schema.maxNormId.toNat / 100 + 1) * 100 + (missing norms schema).length ≤ UInt32.size
      then .ok (
        { schema with
          norms := schema.norms ++
            numbered ((schema.maxNormId.toNat / 100 + 1) * 100) (missing norms schema) },
        tally (missing norms schema))
      else .error ⟨schema.maxNormId⟩ := by
  have habove : ∀ norm ∈ schema.norms,
      norm.id.toNat < (schema.maxNormId.toNat / 100 + 1) * 100 := fun _ ↦ toNat_lt_first
  have hstart : (⟨schema, firstId? schema.maxNormId, ⟨0, 0, 0⟩⟩ : Progress) =
      .after schema ((schema.maxNormId.toNat / 100 + 1) * 100) [] := by
    simp [Progress.after, numbered, tally, firstId?]
  have hnodup : (([] ++ proposals norms schema).map Proposal.origin).Nodup :=
    nodup_origin_proposals norms hids
  have hrun := run_generate_forM habove schema.maxNormId [] hnodup fun p hp ↦ origin_ne_authored hp
  rw [filter_proposals] at hrun
  rw [enrich, Call.outcome, run_applyNorms, hstart, hrun, List.length_nil, Nat.add_zero,
    List.nil_append]
  by_cases hfits : missing norms schema = [] ∨
      (schema.maxNormId.toNat / 100 + 1) * 100 + (missing norms schema).length ≤ UInt32.size
  · rw [if_pos hfits, if_pos hfits]
    rfl
  · rw [if_neg hfits, if_neg hfits]

/-- Enrichment adds norms one by one, so it keeps what every addition keeps. -/
theorem enrich_keeps {P : Schema → Prop}
    (hadd : ∀ (s : Schema) (norm : Norm) (s' : Schema), P s → s.addNorm norm = .ok s' → P s')
    {schema' : Schema} {report : Report} (hP : P schema)
    (h : schema.enrich norms = .ok (schema', report)) : P schema' := by
  rw [enrich, Call.outcome, run_applyNorms] at h
  cases hrun : (forM (proposals norms schema) (generate schema.maxNormId)).run
      ⟨schema, firstId? schema.maxNormId, ⟨0, 0, 0⟩⟩ with
  | error e last => simp [hrun] at h
  | ok _ grown =>
    rw [hrun] at h
    cases h
    exact generate_forM_keeps hadd hP hrun

/-! ### The norms that are added -/

/-- Numbering starts at the least full hundred above every number in use. -/
theorem isLeast_first (schema : Schema) :
    IsLeast {n | 100 ∣ n ∧ 0 < n ∧ ∀ norm ∈ schema.norms, norm.id.toNat < n}
      ((schema.maxNormId.toNat / 100 + 1) * 100) := by
  refine ⟨⟨Nat.dvd_mul_left _ _, by omega, fun norm hnorm ↦ toNat_lt_first hnorm⟩, ?_⟩
  rintro n ⟨⟨c, rfl⟩, hpos, habove⟩
  have hmax : schema.maxNormId.toNat < 100 * c := by
    by_cases hnil : schema.norms = []
    · rw [maxNormId_of_norms_eq_nil hnil]
      exact hpos
    · obtain ⟨norm, hnorm, hid⟩ := maxNormId_mem hnil
      rw [← hid]
      exact habove norm hnorm
  omega

theorem getElem?_numbered {first i : Nat} {ps : List Proposal} {norm : Norm}
    (h : (numbered first ps)[i]? = some norm) :
    ∃ p, ps[i]? = some p ∧ norm = p.norm (UInt32.ofNat (first + i)) := by
  rw [numbered, List.getElem?_mapIdx] at h
  obtain ⟨p, hp, rfl⟩ := Option.map_eq_some_iff.mp h
  exact ⟨p, hp, rfl⟩

/-- If enrichment succeeds, the norms that the schema lacked stand after its own, in the order of
the tiers and under consecutive numbers from the least full hundred above every number in use. The
report has their numbers by tier, and nothing else changes. -/
theorem enrich_adds_missing {schema' : Schema} {report : Report}
    (hids : (schema.norms.map Norm.id).Nodup) (h : schema.enrich norms = .ok (schema', report)) :
    ∃ (first : Nat) (generated : List Norm),
      IsLeast {n | 100 ∣ n ∧ 0 < n ∧ ∀ norm ∈ schema.norms, norm.id.toNat < n} first ∧
      schema' = { schema with norms := schema.norms ++ generated } ∧
      generated.length = (missing norms schema).length ∧
      (∀ i norm, generated[i]? = some norm → norm.id.toNat = first + i ∧
        ∃ p, (missing norms schema)[i]? = some p ∧ norm = p.norm norm.id) ∧
      report = ⟨(missingDefaults norms schema).length, (missingTemplates norms schema).length,
        (missingConditional norms schema).length⟩ ∧
      report.total = generated.length := by
  rw [enrich_eq norms hids] at h
  split at h
  · rename_i hfits
    obtain ⟨rfl, rfl⟩ := Prod.mk.inj (Except.ok.inj h)
    have hlength : ∀ first, (numbered first (missing norms schema)).length =
        (missing norms schema).length := fun _ ↦ List.length_mapIdx
    refine ⟨_, _, isLeast_first schema, rfl, hlength _, fun i norm hnorm ↦ ?_,
      tally_missing norms schema, ?_⟩
    · obtain ⟨p, hp, rfl⟩ := getElem?_numbered hnorm
      obtain ⟨hi, -⟩ := List.getElem?_eq_some_iff.mp hp
      have hsize : (schema.maxNormId.toNat / 100 + 1) * 100 + i < UInt32.size := by
        rcases hfits with hnil | hle
        · rw [hnil, List.length_nil] at hi
          omega
        · omega
      exact ⟨UInt32.toNat_ofNat_of_lt' hsize, p, hp, rfl⟩
    · rw [tally_missing, hlength, missing, List.length_append, List.length_append, Report.total]
  · exact absurd h (by simp)

/-- A sale for which a template has been applied to one of two authored norms. -/
def sale : Schema where
  institution := some ⟨"Compraventa", "contrato", .multiple, "derecho-civil"⟩
  norms :=
    [⟨1, "comprador", .obligation, "pagar", none, [], .authored⟩,
      ⟨7, "vendedor", .obligation, "entregar", none, [.norm 1], .authored⟩,
      ⟨100, "autoridad", .privilege, "revisar pagar", none, [], .template 1 0⟩]
  violations := [⟨.single 1, "comprador", .claimRight, "indemnizar"⟩]
  facts := []
  agendas := []

/-- A norm of each tier, under keys that differ from the legal domain in letter case. -/
def saleNorms : AutomatedNorms where
  domainDefaults := ⟨[("Derecho-Civil", [⟨"juez", "debe", "resolver", some "art. 1", none⟩])]⟩
  universalTemplates :=
    ⟨[("DERECHO-CIVIL", [⟨"autoridad", "puede", "revisar %\x7brule_action\x7d", none, none⟩])]⟩
  conditionalOnId := ⟨[("7", [⟨"vendedor", "no-debe", "demorar", none, some "bien"⟩])]⟩

/-- The sale with its generated norms. -/
def saleEnriched : Schema :=
  { sale with
    norms := sale.norms ++
      [⟨200, "juez", .obligation, "resolver [Ref: art. 1]", none, [],
          .domainDefault "derecho-civil" 0⟩,
        ⟨201, "autoridad", .privilege, "revisar entregar", none, [], .template 7 0⟩,
        ⟨202, "vendedor", .prohibition, "demorar", some "bien", [], .conditional 7 0⟩] }

theorem enrich_adds_missing_sale :
    (sale.norms.map Norm.id).Nodup ∧ sale.enrich saleNorms = .ok (saleEnriched, ⟨1, 1, 1⟩) ∧
      ∃ (first : Nat) (generated : List Norm),
        IsLeast {n | 100 ∣ n ∧ 0 < n ∧ ∀ norm ∈ sale.norms, norm.id.toNat < n} first ∧
        saleEnriched = { sale with norms := sale.norms ++ generated } ∧
        generated.length = (missing saleNorms sale).length ∧
        ∀ i norm, generated[i]? = some norm → norm.id.toNat = first + i := by
  have hids : (sale.norms.map Norm.id).Nodup := by decide
  have hok : sale.enrich saleNorms = .ok (saleEnriched, ⟨1, 1, 1⟩) := by rfl
  obtain ⟨first, generated, hfirst, hschema, hlength, hnumbers, -⟩ := enrich_adds_missing hids hok
  exact ⟨hids, hok, first, generated, hfirst, hschema, hlength,
    fun i norm hnorm ↦ (hnumbers i norm hnorm).1⟩

end Schema

end Normative
