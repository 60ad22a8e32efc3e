import Normative.Schema

/-!
# The numbers of the norms of a schema

A norm is refused for its number alone: because another norm has it, or because an authored norm
comes after an authored norm with a greater one. The conditions under which a norm is accepted or
refused are stated here without reference to the order in which they are tested, together with what
the greatest number of a schema is and what is found under a number.

A call may change the schema before it fails. One that does not is called atomic, and the addition
of a norm is such a call.

## Main definitions

* `Schema.Call.IsAtomic` : a call that leaves the schema as it was if it fails.

## Main results

* `Schema.addNorm_eq_ok_iff` : when a norm is accepted, and the schema that results.
* `Schema.addNorm_eq_duplicate_iff`, `Schema.addNorm_eq_outOfOrder_iff` : when a norm is refused.
* `Schema.Call.IsAtomic.bind`, `Schema.isAtomic_pushNorm` : atomic calls.
* `Schema.id_le_maxNormId`, `Schema.maxNormId_mem` : the greatest number in use.
* `Schema.norm?_eq_some_iff`, `Schema.normPosition?_eq_some_iff` : what is found under a number.
-/

namespace Normative

/-! ### The greatest of a list of numbers -/

private theorem id_max_eq (a b : NormId) : max a b = if a ≤ b then b else a := rfl

private theorem le_foldl_max (ids : List NormId) (start : NormId) :
    start ≤ ids.foldl max start ∧ ∀ id ∈ ids, id ≤ ids.foldl max start := by
  induction ids generalizing start with
  | nil => exact ⟨UInt32.le_refl start, by simp⟩
  | cons a ids ih =>
    obtain ⟨hstart, hall⟩ := ih (max start a)
    have hmax : start ≤ max start a ∧ a ≤ max start a := by
      rw [id_max_eq]
      grind
    refine ⟨UInt32.le_trans hmax.1 hstart, ?_⟩
    rintro id (_ | ⟨_, hid⟩)
    · exact UInt32.le_trans hmax.2 hstart
    · exact hall id hid

private theorem foldl_max_mem (ids : List NormId) (start : NormId) :
    ids.foldl max start ∈ start :: ids := by
  induction ids generalizing start with
  | nil => exact List.mem_cons_self
  | cons a ids ih =>
    have hmem := ih (max start a)
    have hmax : max start a = start ∨ max start a = a := by
      rw [id_max_eq]
      grind
    simp only [List.foldl_cons, List.mem_cons] at hmem ⊢
    rcases hmem with h | h
    · rcases hmax with hs | ha
      · exact Or.inl (h.trans hs)
      · exact Or.inr (Or.inl (h.trans ha))
    · exact Or.inr (Or.inr h)

theorem greatestId?_eq_none_iff {ids : List NormId} : greatestId? ids = none ↔ ids = [] := by
  cases ids <;> simp [greatestId?]

/-- The greatest of a list of numbers is one of them, and no other exceeds it. -/
theorem greatestId?_eq_some {ids : List NormId} {greatest : NormId}
    (h : greatestId? ids = some greatest) : greatest ∈ ids ∧ ∀ id ∈ ids, id ≤ greatest := by
  cases ids with
  | nil => simp [greatestId?] at h
  | cons a ids =>
    obtain rfl : ids.foldl max a = greatest := Option.some.inj h
    refine ⟨foldl_max_mem ids a, ?_⟩
    rintro id (_ | ⟨_, hid⟩)
    · exact (le_foldl_max ids a).1
    · exact (le_foldl_max ids a).2 id hid

theorem greatestId?_eq_some_iff {ids : List NormId} {greatest : NormId} :
    greatestId? ids = some greatest ↔ greatest ∈ ids ∧ ∀ id ∈ ids, id ≤ greatest := by
  refine ⟨greatestId?_eq_some, fun ⟨hmem, hle⟩ ↦ ?_⟩
  cases hg : greatestId? ids with
  | none =>
    rw [greatestId?_eq_none_iff] at hg
    simp [hg] at hmem
  | some other =>
    obtain ⟨hother, hmax⟩ := greatestId?_eq_some hg
    rw [UInt32.le_antisymm (hle other hother) (hmax greatest hmem)]

namespace Schema

variable {schema schema' : Schema} {norm : Norm} {id : NormId}

/-! ### The greatest number of a schema -/

theorem id_le_maxNormId (h : norm ∈ schema.norms) : norm.id ≤ schema.maxNormId := by
  have hmem : norm.id ∈ schema.norms.map Norm.id := List.mem_map_of_mem h
  cases hg : greatestId? (schema.norms.map Norm.id) with
  | none =>
    rw [greatestId?_eq_none_iff] at hg
    simp [hg] at hmem
  | some greatest =>
    rw [maxNormId, hg, Option.getD_some]
    exact (greatestId?_eq_some hg).2 _ hmem

theorem maxNormId_of_norms_eq_nil (h : schema.norms = []) : schema.maxNormId = 0 := by
  rw [maxNormId, h]
  rfl

theorem maxNormId_mem (h : schema.norms ≠ []) :
    ∃ norm ∈ schema.norms, norm.id = schema.maxNormId := by
  cases hg : greatestId? (schema.norms.map Norm.id) with
  | none =>
    rw [greatestId?_eq_none_iff, List.map_eq_nil_iff] at hg
    exact absurd hg h
  | some greatest =>
    obtain ⟨norm, hnorm, hid⟩ := List.mem_map.mp (greatestId?_eq_some hg).1
    exact ⟨norm, hnorm, by rw [maxNormId, hg, Option.getD_some, hid]⟩

/-! ### Calls -/

namespace Call

variable {ε ε' α β : Type}

theorem outcome_eq_ok_iff {call : Call ε α} {answer : α} :
    call.outcome schema = .ok (schema', answer) ↔ call.run schema = .ok answer schema' := by
  rw [outcome]
  cases call.run schema <;> simp [and_comm]

theorem map_outcome_eq_ok_iff {call : Call ε Unit} :
    (call.outcome schema).map Prod.fst = .ok schema' ↔ call.run schema = .ok () schema' := by
  rw [← outcome_eq_ok_iff]
  cases call.outcome schema <;> simp [Except.map, Prod.ext_iff]

/-- A call that leaves the schema as it was if it fails. -/
def IsAtomic (call : Call ε α) : Prop :=
  ∀ schema e left, call.run schema = .error e left → left = schema

theorem IsAtomic.leaves_eq {call : Call ε α} {e : ε} (hcall : call.IsAtomic)
    (h : call.outcome schema = .error e) : call.leaves schema = schema := by
  rw [outcome] at h
  rw [leaves]
  cases hrun : call.run schema with
  | ok answer changed => simp [hrun] at h
  | error e left => exact hcall schema e left hrun

/-- Another name for the failure changes nothing. -/
theorem IsAtomic.adaptExcept {call : Call ε α} (hcall : call.IsAtomic) (f : ε → ε') :
    IsAtomic (EStateM.adaptExcept f call) := by
  intro schema e left h
  rw [EStateM.run_adaptExcept] at h
  cases hrun : call.run schema with
  | ok answer changed => simp [hrun] at h
  | error e left =>
    rw [hrun] at h
    cases h
    exact hcall schema e left hrun

/-- Only the first of two calls may fail: after it the schema has been changed. -/
theorem IsAtomic.bind {call : Call ε α} (hcall : call.IsAtomic) {next : α → Call ε β}
    (hnext : ∀ answer schema, ∃ result changed, (next answer).run schema = .ok result changed) :
    IsAtomic (call >>= next) := by
  intro schema e left h
  rw [EStateM.run_bind] at h
  cases hrun : call.run schema with
  | ok answer changed =>
    obtain ⟨result, last, hlast⟩ := hnext answer changed
    simp [hrun, hlast] at h
  | error e left =>
    rw [hrun] at h
    cases h
    exact hcall schema e left hrun

end Call

/-! ### Acceptance of a norm -/

theorem norm?_isSome_iff :
    (schema.norm? id).isSome = true ↔ ∃ n ∈ schema.norms, n.id = id := by
  simp [norm?]

/-- A norm is accepted exactly if its number is not in use and, for an authored norm, no authored
norm has a greater one. -/
theorem refusal?_eq_none_iff :
    schema.refusal? norm = none ↔ (∀ n ∈ schema.norms, n.id ≠ norm.id) ∧
      (norm.isAuthored = true → ∀ n ∈ schema.authored, n.id ≤ norm.id) := by
  have hused : ¬ (schema.norm? norm.id).isSome = true ↔ ∀ n ∈ schema.norms, n.id ≠ norm.id := by
    rw [norm?_isSome_iff]
    simp
  rw [← hused, refusal?]
  split
  · rename_i h
    simp [h]
  · rename_i h
    split
    · rename_i ha
      cases hg : greatestId? (schema.authored.map Norm.id) with
      | none =>
        rw [greatestId?_eq_none_iff, List.map_eq_nil_iff] at hg
        simp [h, hg]
      | some previous =>
        obtain ⟨hmem, hle⟩ := greatestId?_eq_some hg
        obtain ⟨last, hlast, rfl⟩ := List.mem_map.mp hmem
        have hiff : (∀ n ∈ schema.authored, n.id ≤ norm.id) ↔ ¬ norm.id < last.id := by
          rw [UInt32.not_lt]
          exact ⟨fun hall ↦ hall last hlast,
            fun hl n hn ↦ UInt32.le_trans (hle _ (List.mem_map_of_mem hn)) hl⟩
        simp [h, ha, hiff]
    · rename_i ha
      simp [h, ha]

/-- A norm is put at the end unless there is a reason to refuse it. The schema is then left as it
was. -/
theorem run_pushNorm (norm : Norm) (schema : Schema) :
    (pushNorm norm).run schema =
      match schema.refusal? norm with
      | some refusal => .error refusal schema
      | none => .ok () { schema with norms := schema.norms ++ [norm] } := by
  simp only [pushNorm, EStateM.run_bind, EStateM.run_get]
  cases schema.refusal? norm with
  | none => rfl
  | some refusal => rfl

theorem addNorm_eq (schema : Schema) (norm : Norm) :
    schema.addNorm norm =
      match schema.refusal? norm with
      | some refusal => .error refusal
      | none => .ok { schema with norms := schema.norms ++ [norm] } := by
  rw [addNorm, Call.outcome, run_pushNorm]
  cases schema.refusal? norm with
  | none => rfl
  | some refusal => rfl

theorem isAtomic_pushNorm (norm : Norm) : (pushNorm norm).IsAtomic := by
  intro schema refusal left h
  rw [run_pushNorm] at h
  cases hrefusal : schema.refusal? norm with
  | none => simp [hrefusal] at h
  | some refusal =>
    rw [hrefusal] at h
    cases h
    rfl

/-- An accepted norm is put at the end, and nothing else changes. -/
theorem addNorm_eq_ok_iff :
    schema.addNorm norm = .ok schema' ↔ (∀ n ∈ schema.norms, n.id ≠ norm.id) ∧
      (norm.isAuthored = true → ∀ n ∈ schema.authored, n.id ≤ norm.id) ∧
      schema' = { schema with norms := schema.norms ++ [norm] } := by
  rw [← and_assoc, ← refusal?_eq_none_iff, addNorm_eq]
  cases schema.refusal? norm with
  | none => simp [eq_comm]
  | some refusal => simp

theorem nodup_addNorm (hids : (schema.norms.map Norm.id).Nodup)
    (h : schema.addNorm norm = .ok schema') : (schema'.norms.map Norm.id).Nodup := by
  obtain ⟨hnew, -, rfl⟩ := addNorm_eq_ok_iff.mp h
  rw [List.map_append, List.nodup_append]
  refine ⟨hids, List.pairwise_singleton _ _, ?_⟩
  intro id hid id' hid' heq
  obtain ⟨n, hn, rfl⟩ := List.mem_map.mp hid
  obtain rfl : id' = norm.id := List.mem_singleton.mp hid'
  exact hnew n hn heq

/-! ### Refusal of a norm -/

theorem addNorm_eq_error_iff {refusal : NormRefusal} :
    schema.addNorm norm = .error refusal ↔ schema.refusal? norm = some refusal := by
  rw [addNorm_eq]
  cases schema.refusal? norm with
  | none => simp
  | some refusal => simp

/-- A norm is refused as a duplicate exactly if its number is in use. -/
theorem addNorm_eq_duplicate_iff :
    schema.addNorm norm = .error (.duplicate id) ↔
      norm.id = id ∧ ∃ n ∈ schema.norms, n.id = norm.id := by
  rw [addNorm_eq_error_iff, ← norm?_isSome_iff, refusal?]
  split
  · rename_i hused
    simp [hused]
  · rename_i hfree
    rw [iff_false_right (fun h ↦ hfree h.2)]
    split
    · split
      · split <;> simp
      · simp
    · simp

/-- A norm is refused for the order exactly if its number is not in use, it is authored, and the
greatest number of an authored norm exceeds its own. -/
theorem addNorm_eq_outOfOrder_iff {previous : NormId} :
    schema.addNorm norm = .error (.outOfOrder id previous) ↔
      norm.id = id ∧ (∀ n ∈ schema.norms, n.id ≠ norm.id) ∧ norm.isAuthored = true ∧
        ((∃ n ∈ schema.authored, n.id = previous) ∧ ∀ n ∈ schema.authored, n.id ≤ previous) ∧
        norm.id < previous := by
  have hgreatest : ((∃ n ∈ schema.authored, n.id = previous) ∧
      ∀ n ∈ schema.authored, n.id ≤ previous) ↔
        greatestId? (schema.authored.map Norm.id) = some previous := by
    simp [greatestId?_eq_some_iff]
  have hfree : (∀ n ∈ schema.norms, n.id ≠ norm.id) ↔ (schema.norm? norm.id).isSome = false := by
    rw [Bool.eq_false_iff, ne_eq, norm?_isSome_iff]
    simp
  rw [addNorm_eq_error_iff, hgreatest, hfree, refusal?]
  cases (schema.norm? norm.id).isSome with
  | true => simp
  | false =>
    cases norm.isAuthored with
    | false => simp
    | true =>
      cases greatestId? (schema.authored.map Norm.id) with
      | none => simp
      | some greatest =>
        by_cases hlt : norm.id < greatest <;> grind

/-! ### What is found under a number -/

theorem norm?_eq_none_iff : schema.norm? id = none ↔ ∀ n ∈ schema.norms, n.id ≠ id := by
  simp [norm?]

theorem normPosition?_eq_none_iff :
    schema.normPosition? id = none ↔ ∀ n ∈ schema.norms, n.id ≠ id := by
  simp [normPosition?]

theorem id_getElem_ne (hids : (schema.norms.map Norm.id).Nodup) {i j : Nat}
    (hi : i < schema.norms.length) (hj : j < i) : schema.norms[j].id ≠ schema.norms[i].id :=
  List.pairwise_iff_getElem.mp (List.pairwise_map.mp hids) j i (Nat.lt_trans hj hi) hi hj

/-- Look-up finds the norm that has a number. -/
theorem norm?_eq_some_iff (hids : (schema.norms.map Norm.id).Nodup) :
    schema.norm? id = some norm ↔ norm ∈ schema.norms ∧ norm.id = id := by
  constructor
  · intro h
    exact ⟨List.mem_of_find?_eq_some h, by simpa using List.find?_some h⟩
  · rintro ⟨hmem, rfl⟩
    obtain ⟨i, hi, rfl⟩ := List.getElem_of_mem hmem
    refine List.find?_eq_some_iff_getElem.mpr ⟨beq_self_eq_true _, i, hi, rfl, fun j hj ↦ ?_⟩
    simpa using id_getElem_ne hids hi hj

/-- The position of a number is the place of the norm that has it. -/
theorem normPosition?_eq_some_iff (hids : (schema.norms.map Norm.id).Nodup) {p : Nat} :
    schema.normPosition? id = some p ↔
      0 < p ∧ ∃ norm, schema.norms[p - 1]? = some norm ∧ norm.id = id := by
  rw [normPosition?, Option.map_eq_some_iff]
  constructor
  · rintro ⟨i, hi, rfl⟩
    obtain ⟨hlt, hid, -⟩ := List.findIdx?_eq_some_iff_getElem.mp hi
    exact ⟨Nat.succ_pos i, schema.norms[i], List.getElem?_eq_getElem hlt, eq_of_beq hid⟩
  · rintro ⟨hp, norm, hnorm, rfl⟩
    obtain ⟨hlt, rfl⟩ := List.getElem?_eq_some_iff.mp hnorm
    refine ⟨p - 1, List.findIdx?_eq_some_iff_getElem.mpr ⟨hlt, beq_self_eq_true _, ?_⟩, by omega⟩
    intro j hj
    simpa using id_getElem_ne hids hlt hj

end Schema

end Normative
