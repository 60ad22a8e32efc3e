import Normative.Proofs.Enrichment.Effect
import Normative.Proofs.Grammar.Acceptance

/-!
# Histories of a schema

A schema is made from the empty one by changes: its institution is set, norms, violations, facts
and agendas are added, it is enriched, or it is replaced by the schema that a text writes. A change
that fails leaves the schema as it is, and any change may follow any other. Whatever the changes
were, no number is used twice, and the numbers of the authored norms increase, although generated
norms with greater numbers may stand between them.

The invariant speaks of numbers and origins only. Additions of norms are the only changes that
touch these; enrichment and the reading of a text consist of such additions.

## Main definitions

* `Schema.Operation` : the changes, with `Operation.call` for the calls that make them,
  `Operation.attempt` for what they give or why they fail, and `Operation.perform` for the schema
  that they leave.
* `Schema.history` : the schema that a list of changes makes.
* `Schema.IsNumbered` : the invariant.

## Main results

* `Schema.Operation.isAtomic_call` : a change that fails leaves the schema as it was.
* `Schema.Operation.isNumbered_perform`, `Schema.isNumbered_history` : one change, and any number of
  changes, keep the invariant.
* `Schema.numbers_along_history` : what the numbers of a schema are good for at any time.
-/

namespace Normative.Schema

open Enrichment (IdsExhausted)

/-- A change of a schema. -/
inductive Operation where
  | setInstitution (institution : Institution)
  /-- Add a norm, and change the object on which its action bears if one is given. -/
  | addNorm (norm : Norm) (scope : Option (Option String))
  | addViolation (violation : Violation)
  | addFact (fact : LegalFact)
  | addAgenda (agenda : Agenda)
  | enrich (norms : AutomatedNorms)
  /-- Replace the schema by the one that a text writes. -/
  | replace (text : String)
  deriving DecidableEq

/-- Why a change fails. -/
inductive Failure where
  | refused (refusal : NormRefusal)
  | exhausted (e : IdsExhausted)
  | unread (e : ParseError)

namespace Operation

/-- The call that makes a change. -/
def call : Operation → Call Failure Unit
  | setInstitution institution =>
    modify fun schema ↦ { schema with institution := some institution }
  | addNorm norm scope => do
    EStateM.adaptExcept .refused (pushNorm norm)
    modify fun schema ↦ scope.elim schema (schema.setScope norm.id)
  | addViolation violation => modify fun schema ↦ schema.addViolation violation
  | addFact fact => modify fun schema ↦ schema.addFact fact
  | addAgenda agenda => modify fun schema ↦ schema.addAgenda agenda
  | enrich norms => do
    let _ ← EStateM.adaptExcept .exhausted (applyNorms norms)
  | replace text =>
    match parse text with
    | .error e => throw (.unread e)
    | .ok parsed => set parsed

/-- The schema that a change gives, or why it fails. -/
def attempt (schema : Schema) (op : Operation) : Except Failure Schema :=
  (op.call.outcome schema).map Prod.fst

/-- The schema after a change has been tried. -/
def perform (schema : Schema) (op : Operation) : Schema := op.call.leaves schema

end Operation

/-- The schema that a list of changes makes from the empty one. -/
def history (ops : List Operation) : Schema := ops.foldl Operation.perform empty

/-- No number is used twice, and the numbers of the authored norms increase. -/
structure IsNumbered (schema : Schema) : Prop where
  nodup : (schema.norms.map Norm.id).Nodup
  increasing : (schema.authored.map Norm.id).Pairwise (· < ·)

variable {schema schema' : Schema}

/-! ### Additions of norms -/

theorem IsNumbered.addNorm {norm : Norm} (hs : schema.IsNumbered)
    (h : schema.addNorm norm = .ok schema') : schema'.IsNumbered where
  nodup := nodup_addNorm hs.nodup h
  increasing := by
    obtain ⟨hnew, hle, rfl⟩ := addNorm_eq_ok_iff.mp h
    rw [authored, List.filter_append, ← authored]
    cases hauthored : norm.isAuthored with
    | false => simpa [hauthored] using hs.increasing
    | true =>
      rw [List.filter_cons_of_pos hauthored, List.filter_nil, List.map_append, List.pairwise_append]
      refine ⟨hs.increasing, List.pairwise_singleton _ _, ?_⟩
      intro id hid id' hid'
      obtain ⟨n, hn, rfl⟩ := List.mem_map.mp hid
      obtain rfl : id' = norm.id := List.mem_singleton.mp hid'
      exact UInt32.lt_of_le_of_ne (hle hauthored n hn) (hnew n (List.mem_filter.mp hn).1)

/-- A change of scope touches neither numbers nor origins. -/
theorem IsNumbered.setScope (hs : schema.IsNumbered) (id : NormId) (scope : Option String) :
    (schema.setScope id scope).IsNumbered := by
  have hid (n : Norm) : (if n.id = id then { n with scope := scope } else n).id = n.id := by
    split <;> rfl
  have hauthored (n : Norm) :
      (if n.id = id then { n with scope := scope } else n).isAuthored = n.isAuthored := by
    split <;> rfl
  constructor
  · simpa [Schema.setScope, Function.comp_def, hid] using hs.nodup
  · simpa [Schema.setScope, authored, List.filter_map, Function.comp_def, hid, hauthored]
      using hs.increasing

theorem prefix_addNorm {norm : Norm} (h : schema.addNorm norm = .ok schema') :
    schema.norms <+: schema'.norms := by
  obtain ⟨-, -, rfl⟩ := addNorm_eq_ok_iff.mp h
  exact List.prefix_append _ _

/-- The norms before an added one are not touched by a change of its scope. -/
theorem prefix_setScope_addNorm {norm : Norm} (h : schema.addNorm norm = .ok schema')
    (scope : Option String) : schema.norms <+: (schema'.setScope norm.id scope).norms := by
  obtain ⟨hnew, -, rfl⟩ := addNorm_eq_ok_iff.mp h
  have hsame : schema.norms.map
      (fun n ↦ if n.id = norm.id then { n with scope := scope } else n) = schema.norms :=
    (List.map_congr_left fun n hn ↦ if_neg (hnew n hn)).trans (List.map_id' _)
  rw [setScope, List.map_append, hsame]
  exact List.prefix_append _ _

/-! ### Texts -/

/-- The schema that a text writes has an institution, and items whose numbers increase. -/
theorem exists_withItems_of_parse {text : String} (h : parse text = .ok schema) :
    ∃ (institution : Institution) (ds : List Grammar.ItemTree),
      (Grammar.itemNumbers ds).Pairwise (· < ·) ∧
      withItems institution.name { empty with institution := some institution } ds = schema := by
  rw [parse_eq_ok_iff, ofLexemes, Grammar.bind_eq_ok] at h
  obtain ⟨⟨institution, rest⟩, -, hitems⟩ := h
  obtain ⟨ds, -, hincreasing, hwith⟩ := addItems_sound (ascending_of_institution institution) hitems
  exact ⟨institution, ds, hincreasing, hwith⟩

theorem ascending_of_parse {text : String} (h : parse text = .ok schema) : schema.Ascending := by
  obtain ⟨institution, ds, hincreasing, rfl⟩ := exists_withItems_of_parse h
  exact (ascending_of_institution institution).withItems hincreasing

theorem exists_institution_of_parse {text : String} (h : parse text = .ok schema) :
    ∃ institution, schema.institution = some institution := by
  obtain ⟨institution, ds, -, rfl⟩ := exists_withItems_of_parse h
  exact ⟨institution, rfl⟩

theorem parse_eq_ok_iff_toOption {text : String} :
    parse text = .ok schema ↔ (parse text).toOption = some schema := by
  cases parse text <;> simp [Except.toOption]

/-- Which schema a text writes can be decided, although faults are not compared. -/
instance {text : String} : Decidable (parse text = .ok schema) :=
  decidable_of_iff _ parse_eq_ok_iff_toOption.symm

theorem Ascending.isNumbered (hs : schema.Ascending) : schema.IsNumbered where
  nodup := hs.increasing.imp UInt32.ne_of_lt
  increasing := by
    rw [Schema.authored, List.filter_eq_self.mpr hs.authored]
    exact hs.increasing

/-! ### One change and many -/

namespace Operation

theorem attempt_addNorm_eq_ok {norm : Norm} {scope : Option (Option String)} :
    (addNorm norm scope).attempt schema = .ok schema' ↔
      ∃ added, schema.addNorm norm = .ok added ∧
        scope.elim added (added.setScope norm.id) = schema' := by
  rw [attempt, Call.map_outcome_eq_ok_iff, call, EStateM.run_bind, EStateM.run_adaptExcept]
  simp only [Schema.addNorm, Call.map_outcome_eq_ok_iff]
  cases (pushNorm norm).run schema <;> simp [EStateM.run_modify]

theorem attempt_enrich_eq_ok {norms : AutomatedNorms} :
    (enrich norms).attempt schema = .ok schema' ↔
      ∃ report, schema.enrich norms = .ok (schema', report) := by
  rw [attempt, Call.map_outcome_eq_ok_iff, call, EStateM.run_bind, EStateM.run_adaptExcept]
  simp only [Schema.enrich, Call.outcome_eq_ok_iff]
  cases (applyNorms norms).run schema <;> simp

theorem attempt_replace_eq_ok {text : String} :
    (replace text).attempt schema = .ok schema' ↔ parse text = .ok schema' := by
  rw [attempt, Call.map_outcome_eq_ok_iff, call]
  cases parse text <;> simp

/-- All that a change can do to the norms: leave them, add one norm, enrich the schema, or replace
it. -/
theorem attempt_cases {op : Operation} (h : op.attempt schema = .ok schema') :
    schema'.norms = schema.norms ∨
      (∃ norm added, schema.addNorm norm = .ok added ∧
        (schema' = added ∨ ∃ scope, schema' = added.setScope norm.id scope)) ∨
      (∃ norms report, schema.enrich norms = .ok (schema', report)) ∨
      ∃ text, op = replace text ∧ parse text = .ok schema' := by
  cases op with
  | setInstitution institution =>
    obtain rfl := Except.ok.inj h
    exact .inl rfl
  | addNorm norm scope =>
    obtain ⟨added, hadded, rfl⟩ := attempt_addNorm_eq_ok.mp h
    refine .inr (.inl ⟨norm, added, hadded, ?_⟩)
    cases scope with
    | none => exact .inl rfl
    | some scope => exact .inr ⟨scope, rfl⟩
  | addViolation violation =>
    obtain rfl := Except.ok.inj h
    exact .inl rfl
  | addFact fact =>
    obtain rfl := Except.ok.inj h
    exact .inl rfl
  | addAgenda agenda =>
    obtain rfl := Except.ok.inj h
    exact .inl rfl
  | enrich norms =>
    obtain ⟨report, henrich⟩ := attempt_enrich_eq_ok.mp h
    exact .inr (.inr (.inl ⟨norms, report, henrich⟩))
  | replace text =>
    exact .inr (.inr (.inr ⟨text, rfl, attempt_replace_eq_ok.mp h⟩))

theorem isNumbered_attempt {op : Operation} (hs : schema.IsNumbered)
    (h : op.attempt schema = .ok schema') : schema'.IsNumbered := by
  rcases attempt_cases h with hnorms | ⟨norm, added, hadded, rfl | ⟨scope, rfl⟩⟩ |
    ⟨norms, report, henrich⟩ | ⟨text, -, hparse⟩
  · constructor
    · rw [hnorms]
      exact hs.nodup
    · rw [authored, hnorms]
      exact hs.increasing
  · exact hs.addNorm hadded
  · exact (hs.addNorm hadded).setScope norm.id scope
  · exact enrich_keeps (fun _ _ _ ↦ IsNumbered.addNorm) hs henrich
  · exact (ascending_of_parse hparse).isNumbered

/-- A change other than a replacement keeps the norms that are there. -/
theorem prefix_of_attempt {op : Operation} (hop : ∀ text, op ≠ replace text)
    (h : op.attempt schema = .ok schema') : schema.norms <+: schema'.norms := by
  rcases attempt_cases h with hnorms | ⟨norm, added, hadded, rfl | ⟨scope, rfl⟩⟩ |
    ⟨norms, report, henrich⟩ | ⟨text, htext, -⟩
  · exact hnorms ▸ List.prefix_rfl
  · exact prefix_addNorm hadded
  · exact prefix_setScope_addNorm hadded scope
  · exact enrich_keeps (P := fun s ↦ schema.norms <+: s.norms)
      (fun _ _ _ hs hadd ↦ hs.trans (prefix_addNorm hadd)) List.prefix_rfl henrich
  · exact absurd htext (hop text)

/-- The calls that can fail are those that add a norm, enrich the schema or read a text. The first
two leave the schema as it was, and a text is read before anything is replaced. -/
theorem isAtomic_call (op : Operation) : op.call.IsAtomic := by
  cases op with
  | addNorm norm scope =>
    exact ((isAtomic_pushNorm norm).adaptExcept _).bind fun _ _ ↦ ⟨_, _, rfl⟩
  | enrich norms =>
    exact ((isAtomic_applyNorms norms).adaptExcept _).bind fun _ _ ↦ ⟨_, _, rfl⟩
  | replace text =>
    intro schema failure left h
    rw [call] at h
    cases hparse : parse text with
    | ok parsed => simp [hparse] at h
    | error e =>
      rw [hparse] at h
      cases h
      rfl
  | setInstitution institution => exact fun _ _ _ h ↦ nomatch h
  | addViolation violation => exact fun _ _ _ h ↦ nomatch h
  | addFact fact => exact fun _ _ _ h ↦ nomatch h
  | addAgenda agenda => exact fun _ _ _ h ↦ nomatch h

theorem perform_of_attempt_eq_error {op : Operation} {failure : Failure}
    (h : op.attempt schema = .error failure) : op.perform schema = schema := by
  rw [attempt] at h
  cases houtcome : op.call.outcome schema with
  | ok result => simp [houtcome, Except.map] at h
  | error failure => exact op.isAtomic_call.leaves_eq houtcome

theorem perform_of_attempt_eq_ok {op : Operation} (h : op.attempt schema = .ok schema') :
    op.perform schema = schema' := by
  rw [perform, Call.leaves, Call.map_outcome_eq_ok_iff.mp h]

theorem isNumbered_perform (op : Operation) (hs : schema.IsNumbered) :
    (op.perform schema).IsNumbered := by
  cases h : op.attempt schema with
  | error failure => rwa [perform_of_attempt_eq_error h]
  | ok changed =>
    rw [perform_of_attempt_eq_ok h]
    exact isNumbered_attempt hs h

end Operation

theorem isNumbered_history (ops : List Operation) : (history ops).IsNumbered := by
  have hrun : ∀ s : Schema, s.IsNumbered → (ops.foldl Operation.perform s).IsNumbered := by
    induction ops with
    | nil => exact fun s hs ↦ hs
    | cons op ops ih => exact fun s hs ↦ ih _ (op.isNumbered_perform hs)
  exact hrun empty ⟨List.nodup_nil, List.Pairwise.nil⟩

/-- At any time numbers are distinct and those of the authored norms increase. Look-up by a number
finds the norm that has it, the position is the place of that norm, and nothing is found exactly if
no norm has the number. A norm is refused exactly if its number is in use or if it is authored and
the greatest authored number exceeds its own. A change that fails leaves the schema as it is, and
one that does not, other than a replacement, keeps the norms and their order. -/
theorem numbers_along_history (ops : List Operation) :
    ((history ops).norms.map Norm.id).Nodup ∧
      ((history ops).authored.map Norm.id).Pairwise (· < ·) ∧
      (∀ id norm, (history ops).norm? id = some norm ↔
        norm ∈ (history ops).norms ∧ norm.id = id) ∧
      (∀ id p, (history ops).normPosition? id = some p ↔
        0 < p ∧ ∃ norm, (history ops).norms[p - 1]? = some norm ∧
          (history ops).norm? id = some norm) ∧
      (∀ id, ((history ops).norm? id = none ↔ ∀ norm ∈ (history ops).norms, norm.id ≠ id) ∧
        ((history ops).normPosition? id = none ↔ ∀ norm ∈ (history ops).norms, norm.id ≠ id)) ∧
      (∀ norm id, (history ops).addNorm norm = .error (.duplicate id) ↔
        norm.id = id ∧ ∃ n ∈ (history ops).norms, n.id = norm.id) ∧
      (∀ norm id previous, (history ops).addNorm norm = .error (.outOfOrder id previous) ↔
        norm.id = id ∧ (∀ n ∈ (history ops).norms, n.id ≠ norm.id) ∧ norm.isAuthored = true ∧
          IsGreatest {i | ∃ n ∈ (history ops).authored, n.id = i} previous ∧ norm.id < previous) ∧
      ∀ op : Operation,
        (∀ failure, op.attempt (history ops) = .error failure →
          op.perform (history ops) = history ops) ∧
        ∀ schema, op.attempt (history ops) = .ok schema →
          op.perform (history ops) = schema ∧
            ((∀ text, op ≠ .replace text) → (history ops).norms <+: schema.norms) := by
  have hs := isNumbered_history ops
  refine ⟨hs.nodup, hs.increasing, fun id norm ↦ norm?_eq_some_iff hs.nodup, fun id p ↦ ?_,
    fun id ↦ ⟨norm?_eq_none_iff, normPosition?_eq_none_iff⟩, fun norm id ↦ addNorm_eq_duplicate_iff,
    fun norm id previous ↦ ?_, fun op ↦ ⟨fun failure h ↦ ?_, fun schema h ↦ ⟨?_, fun hop ↦ ?_⟩⟩⟩
  · rw [normPosition?_eq_some_iff hs.nodup]
    refine and_congr_right fun _ ↦ exists_congr fun norm ↦ and_congr_right fun hnorm ↦ ?_
    rw [norm?_eq_some_iff hs.nodup]
    exact (and_iff_right (List.mem_of_getElem? hnorm)).symm
  · have hgreatest : IsGreatest {i | ∃ n ∈ (history ops).authored, n.id = i} previous ↔
        (∃ n ∈ (history ops).authored, n.id = previous) ∧
          ∀ n ∈ (history ops).authored, n.id ≤ previous := by
      refine and_congr_right fun _ ↦ ⟨fun hle n hn ↦ hle ⟨n, hn, rfl⟩, ?_⟩
      rintro hle _ ⟨n, hn, rfl⟩
      exact hle n hn
    rw [addNorm_eq_outOfOrder_iff, hgreatest]
  · exact Operation.perform_of_attempt_eq_error h
  · exact Operation.perform_of_attempt_eq_ok h
  · exact Operation.prefix_of_attempt hop h

end Normative.Schema
