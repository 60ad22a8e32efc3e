import Mathlib.Data.List.Induction
import Mathlib.Data.List.Nodup
import Normative.Corpus.RoleTable

/-!
# Inferred tables of roles are closed under inversion

The table that the norms of a corpus give is walked in order while roles are entered at its end.
What is walked is the table as it was before, so the walk is a run over its pairs of a role and the
key that names it. A role that is already a key is passed over, be it a key of the table or one that
was entered a moment ago. So the first key that names a role decides, and no entry changes.

## Main definitions

* `RoleTable.IsProper` : distinct keys, each with one or more distinct roles.
* `RoleTable.inversions` : the roles that a table names, each with the key that names it.

## Main results

* `RoleTable.IsProper.record`, `RoleTable.IsProper.recordNew` : what each entry preserves.
* `Corpus.isProper_scan` : what all norms of a corpus preserve.
* `RoleTable.get?_foldl_recordNew` : the entries after a run over some pairs.
* `Corpus.infer?_closed` : the table that is inferred for a contract type.
-/

namespace Normative

open Text (occursIn)

namespace RoleTable

variable {table : RoleTable} {label role key : String}

/-- The keys of a table are distinct, and each has one or more distinct roles. -/
structure IsProper (table : RoleTable) : Prop where
  nodup_keys : table.keys.Nodup
  values : ∀ e ∈ table.entries, e.2.values ≠ [] ∧ e.2.values.Nodup

theorem isProper_empty : IsProper .empty where
  nodup_keys := List.nodup_nil
  values := fun _ he ↦ absurd he List.not_mem_nil

namespace IsProper

theorem insert_single (h : IsProper table) (hlabel : label ∉ table.keys) (role : String) :
    IsProper (table.insert label (.single role)) where
  nodup_keys := OrderedMap.nodup_keys_insert h.nodup_keys _ _
  values := by
    rw [OrderedMap.entries_insert_of_notMem hlabel]
    refine List.forall_mem_append.mpr ⟨h.values, List.forall_mem_singleton.mpr ?_⟩
    exact ⟨List.cons_ne_nil _ _, List.nodup_singleton _⟩

theorem replace_many (h : IsProper table) {roles : List String} (hroles : roles ≠ [])
    (hnodup : roles.Nodup) (label : String) : IsProper (table.replace label (.many roles)) where
  nodup_keys := by rw [OrderedMap.keys_replace]; exact h.nodup_keys
  values := by
    intro e he
    rcases OrderedMap.mem_entries_of_mem_replace he with he | rfl
    · exact h.values e he
    · exact ⟨hroles, hnodup⟩

theorem record (h : IsProper table) (label role : String) : IsProper (table.record label role) := by
  unfold RoleTable.record
  split
  · rename_i hnone
    refine h.insert_single (fun hlabel ↦ ?_) role
    have hsome := OrderedMap.mem_keys_iff.mp hlabel
    rw [OrderedMap.contains, hnone] at hsome
    exact absurd hsome (by simp)
  · rename_i found _
    split
    · exact h
    · rename_i hne
      exact h.replace_many (List.cons_ne_nil _ _) (by simpa using hne) label
  · rename_i found hfound
    split
    · exact h
    · rename_i hnew
      have hrole : role ∉ found := by simpa using hnew
      have hnodup : found.Nodup := (h.values _ (OrderedMap.mem_entries_of_get?_eq_some hfound)).2
      exact h.replace_many (by simp)
        (List.nodup_append_comm.mp (List.nodup_cons.mpr ⟨hrole, hnodup⟩)) label

theorem recordNew (h : IsProper table) (label role : String) :
    IsProper (table.recordNew label role) := by
  rw [RoleTable.recordNew]
  split
  · exact h
  · rename_i hnew
    exact h.insert_single (fun hlabel ↦ hnew (OrderedMap.mem_keys_iff.mp hlabel)) role

end IsProper

/-! ### The run over the pairs of a table -/

theorem get?_recordNew (table : RoleTable) (label role key : String) :
    (table.recordNew label role).get? key =
      (table.get? key).or (if key = label then some (.single role) else none) := by
  rw [recordNew]
  split
  · rename_i hcontains
    split
    · rename_i hkey
      subst hkey
      obtain ⟨target, htarget⟩ := Option.isSome_iff_exists.mp hcontains
      rw [htarget, Option.some_or]
    · rw [Option.or_none]
  · rename_i hnew
    rw [OrderedMap.get?_insert]
    split
    · rename_i hkey
      subst hkey
      rw [Option.not_isSome_iff_eq_none.mp hnew, Option.none_or]
    · rw [Option.or_none]

theorem prefix_recordNew (table : RoleTable) (label role : String) :
    table.entries <+: (table.recordNew label role).entries := by
  rw [recordNew]
  split
  · exact List.prefix_refl _
  · rename_i hnew
    rw [OrderedMap.entries_insert_of_notMem fun h ↦ hnew (OrderedMap.mem_keys_iff.mp h)]
    exact List.prefix_append _ _

/-- The roles that a table names, each with the key that names it, in the order of the table. -/
def inversions (table : RoleTable) : List (String × String) :=
  table.entries.flatMap fun e ↦ e.2.values.map fun role ↦ (role, e.1)

theorem close_eq_foldl (table : RoleTable) :
    table.close = table.inversions.foldl (fun closed p ↦ closed.recordNew p.1 p.2) table := by
  simp only [close, inversions, List.foldl_flatMap, List.foldl_map]

/-- After a run over some pairs, a key of the table has its old roles, and any other role stands for
the key in the first pair that has it. -/
theorem get?_foldl_recordNew (pairs : List (String × String)) (table : RoleTable) (key : String) :
    (pairs.foldl (fun closed p ↦ closed.recordNew p.1 p.2) table).get? key =
      (table.get? key).or ((pairs.lookup key).map .single) := by
  induction pairs generalizing table with
  | nil => simp
  | cons p pairs ih =>
    obtain ⟨role, label⟩ := p
    rw [List.foldl_cons, ih, get?_recordNew, OrderedMap.lookup_cons_eq_ite, Option.or_assoc]
    split
    · rfl
    · rfl

theorem IsProper.close (h : IsProper table) : IsProper table.close := by
  rw [close_eq_foldl]
  generalize table.inversions = pairs
  induction pairs generalizing table with
  | nil => exact h
  | cons p pairs ih => exact ih (h.recordNew p.1 p.2)

theorem prefix_close (table : RoleTable) : table.entries <+: table.close.entries := by
  rw [close_eq_foldl]
  generalize table.inversions = pairs
  induction pairs generalizing table with
  | nil => exact List.prefix_refl _
  | cons p pairs ih => exact (prefix_recordNew table p.1 p.2).trans (ih _)

/-- The first pair for a role has the first key that names it. -/
theorem lookup_inversions (table : RoleTable) (role : String) :
    table.inversions.lookup role =
      (table.entries.find? fun e ↦ e.2.contains role).map Prod.fst := by
  rw [inversions]
  induction table.entries with
  | nil => rfl
  | cons e entries ih =>
    have hhead (roles : List String) : (roles.map fun r ↦ (r, e.1)).lookup role =
        if roles.contains role then some e.1 else none := by
      induction roles with
      | nil => rfl
      | cons r roles ih =>
        rw [List.map_cons, OrderedMap.lookup_cons_eq_ite, ih, List.contains_cons]
        by_cases hr : role = r <;> simp [hr]
    rw [List.flatMap_cons, List.lookup_append, hhead, ih, List.find?_cons, RoleTarget.contains]
    cases e.2.values.contains role <;> rfl

/-- The entries of a table that has been closed. -/
theorem get?_close (table : RoleTable) (role : String) :
    table.close.get? role = (table.get? role).or
      ((table.entries.find? fun e ↦ e.2.contains role).map fun e ↦ .single e.1) := by
  rw [close_eq_foldl, get?_foldl_recordNew, lookup_inversions, Option.map_map]
  rfl

/-- The keys of a table that has been closed are its own keys and the roles that it names. -/
theorem mem_keys_close_iff :
    role ∈ table.close.keys ↔ role ∈ table.keys ∨ ∃ e ∈ table.entries, role ∈ e.2.values := by
  have hnamed : (∃ e ∈ table.entries, role ∈ e.2.values) ↔
      (table.entries.find? fun e ↦ e.2.contains role).isSome = true := by
    simp [RoleTarget.contains]
  rw [OrderedMap.mem_keys_iff, OrderedMap.mem_keys_iff, OrderedMap.contains, OrderedMap.contains,
    get?_close, Option.isSome_or, Option.isSome_map, Bool.or_eq_true, hnamed]

/-- All roles that a closed table names are keys: an entry is either one of the table as it was
before, or it names a key of that table. -/
theorem mem_keys_close_of_mem_values (h : IsProper table) {e : String × RoleTarget}
    (he : e ∈ table.close.entries) (hrole : role ∈ e.2.values) : role ∈ table.close.keys := by
  have hget : table.close.get? e.1 = some e.2 :=
    OrderedMap.lookup_eq_some_of_mem h.close.nodup_keys he
  rw [get?_close, Option.or_eq_some_iff, Option.map_eq_some_iff] at hget
  rw [mem_keys_close_iff]
  rcases hget with hold | ⟨-, ⟨key, target⟩, hfind, htarget⟩
  · exact .inr ⟨e, OrderedMap.mem_entries_of_get?_eq_some hold, hrole⟩
  · rw [← htarget] at hrole
    rw [List.mem_singleton.mp hrole]
    exact .inl (List.mem_map.mpr ⟨(key, target), List.mem_of_find?_eq_some hfind, rfl⟩)

end RoleTable

namespace Corpus

open RoleTable (IsProper)

variable {table : RoleTable}

theorem isProper_scanNorm (h : IsProper table) (action passive : String) :
    IsProper (scanNorm table action passive) := by
  -- The loop over the nouns is a run of its own, which starts from any proper table.
  have hrun (nouns : List (String × String)) : ∀ table, IsProper table →
      IsProper (nouns.foldl
        (fun table c ↦
          if occursIn c.1 action && passive != c.1 then table.recordNew c.2 c.1 else table)
        table) := by
    induction nouns with
    | nil => exact fun _ h ↦ h
    | cons c nouns ih =>
      intro table h
      rw [List.foldl_cons]
      refine ih _ ?_
      split
      · exact h.recordNew c.2 c.1
      · exact h
  exact hrun counterparts _ (h.record (actionLabel action) passive)

/-- The norms of a corpus give a proper table. -/
theorem isProper_scan (corpus : Corpus) (contractType : String) :
    IsProper (corpus.scan contractType) := by
  rw [scan]
  generalize corpus.entries.filterMap (fun e ↦ relevantParty? contractType e.norm) = parties
  induction parties using List.reverseRecOn with
  | nil => exact RoleTable.isProper_empty
  | append_singleton parties p ih =>
    rw [List.foldl_append, List.foldl_cons, List.foldl_nil]
    exact isProper_scanNorm ih p.1 p.2

/-- A table that is inferred for a contract type is closed under inversion. Its keys are distinct,
each key has one or more distinct roles, and each of these is a key. It begins with the entries
that the norms give, in their order and without change. A role that these entries name, and that
is no key of theirs, stands for the first key that names it, and there are no other keys. -/
theorem infer?_closed {corpus : Corpus} {contractType : String}
    (h : corpus.infer? contractType = some table) :
    table.keys.Nodup ∧
      (∀ e ∈ table.entries, e.2.values ≠ [] ∧ e.2.values.Nodup ∧
        ∀ role ∈ e.2.values, role ∈ table.keys) ∧
      (corpus.scan contractType).entries <+: table.entries ∧
      (∀ role ∉ (corpus.scan contractType).keys,
        (∃ e ∈ (corpus.scan contractType).entries, role ∈ e.2.values) →
        ∃ key target before after,
          (corpus.scan contractType).entries = before ++ (key, target) :: after ∧
            role ∈ target.values ∧ (∀ e ∈ before, role ∉ e.2.values) ∧
            table.get? role = some (.single key)) ∧
      ∀ role ∈ table.keys, role ∉ (corpus.scan contractType).keys →
        ∃ e ∈ (corpus.scan contractType).entries, role ∈ e.2.values := by
  obtain rfl : (corpus.scan contractType).close = table := by
    rw [infer?] at h
    split at h
    · exact absurd h (by simp)
    · exact Option.some_inj.mp h
  have hproper := corpus.isProper_scan contractType
  generalize corpus.scan contractType = forward at hproper
  refine ⟨hproper.close.nodup_keys, fun e he ↦ ?_, forward.prefix_close, fun role hrole hnamed ↦ ?_,
    fun role hrole hnew ↦ ?_⟩
  · obtain ⟨hne, hnodup⟩ := hproper.close.values e he
    exact ⟨hne, hnodup, fun _ ↦ RoleTable.mem_keys_close_of_mem_values hproper he⟩
  · have hfind : (forward.entries.find? fun e ↦ e.2.contains role).isSome = true := by
      simpa [RoleTarget.contains] using hnamed
    obtain ⟨⟨key, target⟩, hfind⟩ := Option.isSome_iff_exists.mp hfind
    obtain ⟨htarget, before, after, hentries, hbefore⟩ := List.find?_eq_some_iff_append.mp hfind
    have hnone : forward.get? role = none :=
      Option.not_isSome_iff_eq_none.mp fun hsome ↦ hrole (OrderedMap.mem_keys_iff.mpr hsome)
    refine ⟨key, target, before, after, hentries, by simpa [RoleTarget.contains] using htarget,
      by simpa [RoleTarget.contains] using hbefore, ?_⟩
    rw [RoleTable.get?_close, hnone, Option.none_or, hfind, Option.map_some]
  · exact (RoleTable.mem_keys_close_iff.mp hrole).resolve_left hnew

/-- A norm of a lease that binds a party to an action. -/
def leaseNorm (action passive : String) : Norm :=
  ⟨none, some ⟨some action, some passive, none, none, none, []⟩, ["arrendamiento"], none⟩

/-- A corpus in which one party has the name of its own label, another that of the label of a third,
and the guarantor is bound under two labels. -/
def guaranteedLease : Corpus :=
  ⟨⟨[("codigo", ⟨some "Codigo", some "ley", ⟨[
    ("a", leaseNorm "pagar al vendedor" "deudor"), ("b", leaseNorm "pagar la renta" "fiador"),
    ("c", leaseNorm "custodiar" "fiador"), ("d", leaseNorm "entregar la cosa" "contratante")]⟩⟩)]⟩,
    .empty, .empty⟩

/-- The table that is inferred from the corpus above. -/
def guaranteedLeaseRoles : RoleTable :=
  ⟨[("deudor", .many ["deudor", "fiador"]), ("proveedor", .single "vendedor"),
    ("contratante", .single "fiador"), ("obligado_entrega", .single "contratante"),
    ("fiador", .single "deudor"), ("vendedor", .single "proveedor")]⟩

theorem infer?_closed_guaranteedLease :
    guaranteedLease.infer? "arrendamiento" = some guaranteedLeaseRoles ∧
      (∀ e ∈ guaranteedLeaseRoles.entries, e.2.values ≠ [] ∧ e.2.values.Nodup ∧
        ∀ role ∈ e.2.values, role ∈ guaranteedLeaseRoles.keys) ∧
      ∃ key target before after,
        (guaranteedLease.scan "arrendamiento").entries = before ++ (key, target) :: after ∧
          "fiador" ∈ target.values ∧ (∀ e ∈ before, "fiador" ∉ e.2.values) ∧
          guaranteedLeaseRoles.get? "fiador" = some (.single key) := by
  have hinfer : guaranteedLease.infer? "arrendamiento" = some guaranteedLeaseRoles := by
    decide +kernel
  obtain ⟨-, hentries, -, hinverse, -⟩ := infer?_closed hinfer
  exact ⟨hinfer, hentries, hinverse "fiador" (by decide +kernel) (by decide +kernel)⟩

end Corpus

end Normative
