import Normative.Proofs.Corpus.Inversion

/-!
# What inferred tables of roles record

A table of roles is inferred by a scan of the norms of a corpus. A norm that is relevant for the
contract type and tells who is bound to which action enters the bound party under the label of its
action, and the parties that the action mentions under labels of their own. The two kinds of labels
are different, so the entries of one kind never stand in the way of the other. What the table holds
after any number of norms is therefore known exactly: under the label of an action, the parties
bound to such actions, each once and in the order in which they were met; under the label of a noun,
the noun, as soon as it was mentioned.

## Main definitions

* `Corpus.Binds` : a norm that is relevant for a contract type and binds a party to an action.
* `Corpus.IsFirstLabel` : the label that an action calls for.
* `Corpus.boundBy` : the parties bound under a label, in the order of the document.
* `Corpus.Records` : what a table holds after the norms that have been met.

## Main results

* `Corpus.Records.scanNorm` : what one more norm does to the table.
* `Corpus.records_scan` : what the table holds after all norms.
* `Corpus.infer?_records` : the entries of an inferred table.
-/

namespace Normative

open Text (occursIn sameFold)

/-! ### Targets -/

/-- The target that names some roles: one role by itself, and several as a list. -/
def RoleTarget.ofRoles? : List String → Option RoleTarget
  | [] => none
  | [role] => some (.single role)
  | roles => some (.many roles)

theorem RoleTarget.ofRoles?_eq_none_iff {roles : List String} :
    ofRoles? roles = none ↔ roles = [] := by
  match roles with
  | [] => simp [ofRoles?]
  | [_] => simp [ofRoles?]
  | _ :: _ :: _ => simp [ofRoles?]

namespace RoleTable

variable {table : RoleTable} {label role key : String} {roles : List String}

theorem get?_record_of_ne (table : RoleTable) (role : String) (h : key ≠ label) :
    (table.record label role).get? key = table.get? key := by
  rw [record]
  split
  · rw [OrderedMap.get?_insert, if_neg h]
  · split
    · rfl
    · rw [OrderedMap.get?_replace, if_neg h]
  · split
    · rfl
    · rw [OrderedMap.get?_replace, if_neg h]

/-- A label has one more role after it has been entered, unless it had the role before. -/
theorem get?_record_self (h : table.get? label = RoleTarget.ofRoles? roles) (role : String) :
    (table.record label role).get? label =
      RoleTarget.ofRoles? (if role ∈ roles then roles else roles ++ [role]) := by
  match roles with
  | [] =>
    rw [record, h]
    simp [RoleTarget.ofRoles?, OrderedMap.get?_insert]
  | [found] =>
    rw [record, h]
    by_cases hfound : found = role
    · simp [RoleTarget.ofRoles?, hfound, h]
    · simp [RoleTarget.ofRoles?, hfound, Ne.symm hfound, OrderedMap.get?_replace, h]
  | first :: second :: more =>
    rw [record, h]
    by_cases hrole : role ∈ first :: second :: more
    · simp [RoleTarget.ofRoles?, hrole, h]
    · simp [RoleTarget.ofRoles?, hrole, OrderedMap.get?_replace, h]

/-- A key keeps what it stands for when the table is closed. -/
theorem get?_close_of_mem_keys (h : key ∈ table.keys) : table.close.get? key = table.get? key := by
  rw [get?_close, Option.or_of_isSome (OrderedMap.mem_keys_iff.mp h)]

theorem mem_keys_iff_get?_ne_none : key ∈ table.keys ↔ table.get? key ≠ none := by
  rw [OrderedMap.mem_keys_iff, OrderedMap.contains, Option.isSome_iff_ne_none]

end RoleTable

namespace Corpus

variable {contractType label : String} {parties : List (String × String)} {table : RoleTable}

/-! ### Labels and parties -/

/-- A norm is relevant for a contract type and binds a party to an action. -/
structure Binds (contractType : String) (norm : Norm) (action passive : String) : Prop where
  relevant : ∃ entry ∈ norm.context, sameFold entry contractType = true
  bound : ∃ s, norm.structure? = some s ∧ s.action = some action ∧ s.passive = some passive

theorem relevantParty?_eq_some_iff {norm : Norm} {action passive : String} :
    relevantParty? contractType norm = some (action, passive) ↔
      Binds contractType norm action passive := by
  have hrelevant : norm.isRelevantTo contractType = true ↔
      ∃ entry ∈ norm.context, sameFold entry contractType = true := List.any_eq_true
  rw [relevantParty?]
  constructor
  · intro h
    split at h
    · rename_i hnorm
      simp only [Option.bind_eq_bind, Option.bind_eq_some_iff, Option.pure_def,
        Option.some_inj, Prod.mk.injEq] at h
      obtain ⟨s, hs, a, ha, p, hp, rfl, rfl⟩ := h
      exact ⟨hrelevant.mp hnorm, s, hs, ha, hp⟩
    · exact absurd h (by simp)
  · rintro ⟨hnorm, s, hs, haction, hpassive⟩
    rw [if_pos (hrelevant.mpr hnorm)]
    simp [hs, haction, hpassive]

/-- The actions and bound parties of the norms that are relevant for a contract type, in the order
of the document. -/
def relevantParties (corpus : Corpus) (contractType : String) : List (String × String) :=
  corpus.entries.filterMap fun e ↦ relevantParty? contractType e.norm

theorem mem_relevantParties_iff {corpus : Corpus} {p : String × String} :
    p ∈ corpus.relevantParties contractType ↔
      ∃ e ∈ corpus.entries, Binds contractType e.norm p.1 p.2 := by
  simp only [relevantParties, List.mem_filterMap, ← relevantParty?_eq_some_iff]

/-- A label is the first one with a verb that an action mentions, or the one for actions that
mention no verb. -/
def IsFirstLabel (action label : String) : Prop :=
  (∃ before verbs after, actionLabels = before ++ (verbs, label) :: after ∧
    (∃ verb ∈ verbs, occursIn verb action = true) ∧
    ∀ l ∈ before, ∀ verb ∈ l.1, occursIn verb action = false) ∨
  label = "contratante" ∧ ∀ l ∈ actionLabels, ∀ verb ∈ l.1, occursIn verb action = false

/-- The labels for bound parties. -/
def partyLabels : List String :=
  ["deudor", "obligado_entrega", "obligado_mantenimiento", "contratante"]

theorem actionLabel_mem_partyLabels (action : String) : actionLabel action ∈ partyLabels := by
  have hlabels : ∀ l ∈ actionLabels, l.2 ∈ partyLabels := by decide
  rw [actionLabel]
  split
  · rename_i verbs label hfind
    exact hlabels _ (List.mem_of_find?_eq_some hfind)
  · decide

theorem isFirstLabel_actionLabel (action : String) : IsFirstLabel action (actionLabel action) := by
  rw [actionLabel]
  split
  · rename_i verbs label hfind
    obtain ⟨hverbs, before, after, hlabels, hbefore⟩ := List.find?_eq_some_iff_append.mp hfind
    exact .inl ⟨before, verbs, after, hlabels, List.any_eq_true.mp hverbs, by simpa using hbefore⟩
  · rename_i hnone
    exact .inr ⟨rfl, by simpa using hnone⟩

theorem eq_actionLabel_of_isFirstLabel {action : String} (h : IsFirstLabel action label) :
    actionLabel action = label := by
  rw [actionLabel]
  rcases h with ⟨before, verbs, after, hlabels, hverbs, hbefore⟩ | ⟨rfl, hnone⟩
  · have hfind : actionLabels.find? (fun l ↦ l.1.any (fun verb ↦ occursIn verb action)) =
        some (verbs, label) :=
      List.find?_eq_some_iff_append.mpr
        ⟨List.any_eq_true.mpr hverbs, before, after, hlabels, by simpa using hbefore⟩
    rw [hfind]
  · have hfind : actionLabels.find? (fun l ↦ l.1.any (fun verb ↦ occursIn verb action)) = none :=
      List.find?_eq_none.mpr (by simpa using hnone)
    rw [hfind]

theorem actionLabel_eq_iff {action : String} :
    actionLabel action = label ↔ IsFirstLabel action label :=
  ⟨fun h ↦ h ▸ isFirstLabel_actionLabel action, eq_actionLabel_of_isFirstLabel⟩

instance (action label : String) : Decidable (IsFirstLabel action label) :=
  decidable_of_iff _ actionLabel_eq_iff

/-- The label of a noun is none for bound parties. -/
theorem notMem_partyLabels {c : String × String} (hc : c ∈ counterparts) : c.2 ∉ partyLabels := by
  have hlabels : ∀ c ∈ counterparts, c.2 ∉ partyLabels := by decide
  exact hlabels c hc

/-! ### Bound parties -/

/-- The parties that are bound under a label, each once and in the order of first occurrence. -/
def boundBy (parties : List (String × String)) (label : String) : List String :=
  ((parties.filter fun p ↦ IsFirstLabel p.1 label).map Prod.snd).eraseDups

theorem mem_boundBy_iff {role : String} :
    role ∈ boundBy parties label ↔ ∃ p ∈ parties, IsFirstLabel p.1 label ∧ p.2 = role := by
  simp [boundBy, List.mem_eraseDups]

theorem boundBy_concat_self (parties : List (String × String)) (p : String × String) :
    boundBy (parties ++ [p]) (actionLabel p.1) =
      if p.2 ∈ boundBy parties (actionLabel p.1) then boundBy parties (actionLabel p.1)
      else boundBy parties (actionLabel p.1) ++ [p.2] := by
  have hlast : [p].filter (fun q ↦ IsFirstLabel q.1 (actionLabel p.1)) = [p] := by
    simp [isFirstLabel_actionLabel]
  rw [boundBy, List.filter_append, hlast, List.map_append, List.map_singleton, eraseDups_concat,
    boundBy]

theorem boundBy_concat_of_ne (parties : List (String × String)) {p : String × String}
    (h : actionLabel p.1 ≠ label) : boundBy (parties ++ [p]) label = boundBy parties label := by
  have hlast : [p].filter (fun q ↦ IsFirstLabel q.1 label) = [] := by
    simpa [← actionLabel_eq_iff] using h
  rw [boundBy, List.filter_append, hlast, List.append_nil, boundBy]

/-! ### Mentioned parties -/

/-- An action mentions a noun that does not name the party that it binds. -/
def Mentions (c p : String × String) : Prop := occursIn c.1 p.1 = true ∧ p.2 ≠ c.1

instance (c p : String × String) : Decidable (Mentions c p) := inferInstanceAs (Decidable (_ ∧ _))

/-- The nouns that an action mentions, each after its label. -/
def mentionedNouns (p : String × String) : List (String × String) :=
  (counterparts.filter fun c ↦ Mentions c p).map Prod.swap

theorem scanNorm_eq_foldl (table : RoleTable) (p : String × String) :
    scanNorm table p.1 p.2 = (mentionedNouns p).foldl (fun t q ↦ t.recordNew q.1 q.2)
      (table.record (actionLabel p.1) p.2) := by
  rw [scanNorm, mentionedNouns, List.foldl_map, List.foldl_filter]
  refine congrArg (List.foldl · _ counterparts) (funext₂ fun t c ↦ ?_)
  refine if_congr ?_ rfl rfl
  rw [decide_eq_true_iff]
  simp [Mentions]

theorem lookup_mentionedNouns {c : String × String} (hc : c ∈ counterparts)
    (p : String × String) :
    (mentionedNouns p).lookup c.2 = if Mentions c p then some c.1 else none := by
  have hnodup : (counterparts.map Prod.snd).Nodup := by decide
  split
  · rename_i h
    refine OrderedMap.lookup_eq_some_of_mem ?_
      (List.mem_map.mpr ⟨c, List.mem_filter.mpr ⟨hc, decide_eq_true h⟩, rfl⟩)
    rw [mentionedNouns, List.map_map]
    exact hnodup.sublist (List.filter_sublist.map _)
  · rename_i h
    refine List.lookup_eq_none_iff.mpr fun q hq ↦ ?_
    obtain ⟨c', hc', rfl⟩ := List.mem_map.mp hq
    obtain ⟨hmem, hmentions⟩ := List.mem_filter.mp hc'
    refine bne_iff_ne.mpr fun hlabel ↦ h ?_
    obtain rfl := List.inj_on_of_nodup_map hnodup hc hmem hlabel
    exact of_decide_eq_true hmentions

theorem lookup_mentionedNouns_of_notMem (h : label ∉ counterparts.map Prod.snd)
    (p : String × String) : (mentionedNouns p).lookup label = none := by
  refine List.lookup_eq_none_iff.mpr fun q hq ↦ ?_
  obtain ⟨c, hc, rfl⟩ := List.mem_map.mp hq
  refine bne_iff_ne.mpr ?_
  rintro rfl
  exact h (List.mem_map.mpr ⟨c, (List.mem_filter.mp hc).1, rfl⟩)

theorem get?_scanNorm (table : RoleTable) (p : String × String) (key : String) :
    (scanNorm table p.1 p.2).get? key = ((table.record (actionLabel p.1) p.2).get? key).or
      (((mentionedNouns p).lookup key).map .single) := by
  rw [scanNorm_eq_foldl, RoleTable.get?_foldl_recordNew]

/-! ### The scan -/

/-- What a table holds after the norms that have been met, given by their actions and bound
parties. -/
structure Records (parties : List (String × String)) (table : RoleTable) : Prop where
  bound : ∀ label ∈ partyLabels, table.get? label = RoleTarget.ofRoles? (boundBy parties label)
  mentioned : ∀ c ∈ counterparts, table.get? c.2 =
    if ∃ p ∈ parties, Mentions c p then some (.single c.1) else none
  others : ∀ key, key ∉ partyLabels → key ∉ counterparts.map Prod.snd → table.get? key = none

theorem records_nil : Records [] .empty where
  bound := fun _ _ ↦ rfl
  mentioned := fun _ _ ↦ by simp [OrderedMap.get?, OrderedMap.empty]
  others := fun _ _ _ ↦ rfl

/-- One more norm enters the party that it binds and the parties that it mentions. -/
theorem Records.scanNorm (h : Records parties table) (p : String × String) :
    Records (parties ++ [p]) (scanNorm table p.1 p.2) where
  bound := by
    intro label hlabel
    have hnoun : label ∉ counterparts.map Prod.snd := by
      rw [List.mem_map]
      rintro ⟨c, hc, rfl⟩
      exact notMem_partyLabels hc hlabel
    rw [get?_scanNorm, lookup_mentionedNouns_of_notMem hnoun, Option.map_none, Option.or_none]
    by_cases haction : actionLabel p.1 = label
    · subst haction
      rw [RoleTable.get?_record_self (h.bound _ hlabel), boundBy_concat_self]
    · rw [RoleTable.get?_record_of_ne _ _ (Ne.symm haction), h.bound label hlabel,
        boundBy_concat_of_ne _ haction]
  mentioned := by
    intro c hc
    have hlabel : c.2 ≠ actionLabel p.1 := fun heq ↦
      notMem_partyLabels hc (heq ▸ actionLabel_mem_partyLabels p.1)
    rw [get?_scanNorm, RoleTable.get?_record_of_ne _ _ hlabel, h.mentioned c hc,
      lookup_mentionedNouns hc]
    by_cases hold : ∃ q ∈ parties, Mentions c q
    · rw [if_pos hold, Option.some_or, if_pos]
      obtain ⟨q, hq, hmentions⟩ := hold
      exact ⟨q, List.mem_append_left _ hq, hmentions⟩
    · rw [if_neg hold, Option.none_or]
      by_cases hnew : Mentions c p
      · rw [if_pos hnew, if_pos ⟨p, List.mem_append_right _ List.mem_cons_self, hnew⟩,
          Option.map_some]
      · rw [if_neg hnew, if_neg, Option.map_none]
        rintro ⟨q, hq, hmentions⟩
        rcases List.mem_append.mp hq with hq | hq
        · exact hold ⟨q, hq, hmentions⟩
        · exact hnew (List.mem_singleton.mp hq ▸ hmentions)
  others := by
    intro key hparty hnoun
    have hlabel : key ≠ actionLabel p.1 := fun heq ↦
      hparty (heq ▸ actionLabel_mem_partyLabels p.1)
    rw [get?_scanNorm, lookup_mentionedNouns_of_notMem hnoun, Option.map_none, Option.or_none,
      RoleTable.get?_record_of_ne _ _ hlabel, h.others key hparty hnoun]

/-- What the table holds after all norms of a corpus. -/
theorem records_scan (corpus : Corpus) (contractType : String) :
    Records (corpus.relevantParties contractType) (corpus.scan contractType) := by
  rw [scan, ← relevantParties]
  induction corpus.relevantParties contractType using List.reverseRecOn with
  | nil => exact records_nil
  | append_singleton parties p ih =>
    rw [List.foldl_append, List.foldl_cons, List.foldl_nil]
    exact ih.scanNorm p

namespace Records

theorem label_mem_keys_iff (h : Records parties table) (hlabel : label ∈ partyLabels) :
    label ∈ table.keys ↔ ∃ p ∈ parties, IsFirstLabel p.1 label := by
  rw [RoleTable.mem_keys_iff_get?_ne_none, h.bound label hlabel, Ne,
    RoleTarget.ofRoles?_eq_none_iff]
  constructor
  · intro hne
    obtain ⟨role, hrole⟩ := List.exists_mem_of_ne_nil _ hne
    obtain ⟨p, hp, haction, -⟩ := mem_boundBy_iff.mp hrole
    exact ⟨p, hp, haction⟩
  · rintro ⟨p, hp, haction⟩
    exact List.ne_nil_of_mem (mem_boundBy_iff.mpr ⟨p, hp, haction, rfl⟩)

theorem noun_mem_keys_iff (h : Records parties table) {c : String × String}
    (hc : c ∈ counterparts) : c.2 ∈ table.keys ↔ ∃ p ∈ parties, Mentions c p := by
  rw [RoleTable.mem_keys_iff_get?_ne_none, h.mentioned c hc]
  split <;> simp_all

theorem get?_noun (h : Records parties table) {c : String × String} (hc : c ∈ counterparts)
    (hkey : c.2 ∈ table.keys) : table.get? c.2 = some (.single c.1) := by
  rw [h.mentioned c hc, if_pos ((h.noun_mem_keys_iff hc).mp hkey)]

theorem mem_labels_of_mem_keys (h : Records parties table) {key : String}
    (hkey : key ∈ table.keys) : key ∈ partyLabels ∨ key ∈ counterparts.map Prod.snd := by
  by_contra hothers
  obtain ⟨hparty, hnoun⟩ := not_or.mp hothers
  exact RoleTable.mem_keys_iff_get?_ne_none.mp hkey (h.others key hparty hnoun)

/-- The table is empty if no norm has been met, and only then. -/
theorem isEmpty_iff (h : Records parties table) : table.isEmpty = true ↔ parties = [] := by
  have hkeys : table.isEmpty = true ↔ table.keys = [] := by
    rw [OrderedMap.isEmpty, List.isEmpty_iff, OrderedMap.keys, List.map_eq_nil_iff]
  rw [hkeys, List.eq_nil_iff_forall_not_mem, List.eq_nil_iff_forall_not_mem]
  constructor
  · intro hnone p hp
    exact hnone _ ((h.label_mem_keys_iff (actionLabel_mem_partyLabels p.1)).mpr
      ⟨p, hp, isFirstLabel_actionLabel p.1⟩)
  · intro hnone key hkey
    rcases h.mem_labels_of_mem_keys hkey with hlabel | hnoun
    · obtain ⟨p, hp, -⟩ := (h.label_mem_keys_iff hlabel).mp hkey
      exact hnone p hp
    · obtain ⟨c, hc, rfl⟩ := List.mem_map.mp hnoun
      obtain ⟨p, hp, -⟩ := (h.noun_mem_keys_iff hc).mp hkey
      exact hnone p hp

end Records

theorem exists_relevantParties_iff {corpus : Corpus} (P : String → String → Prop) :
    (∃ p ∈ corpus.relevantParties contractType, P p.1 p.2) ↔
      ∃ e ∈ corpus.entries, ∃ action passive,
        Binds contractType e.norm action passive ∧ P action passive := by
  constructor
  · rintro ⟨p, hp, hP⟩
    obtain ⟨e, he, hbinds⟩ := mem_relevantParties_iff.mp hp
    exact ⟨e, he, p.1, p.2, hbinds, hP⟩
  · rintro ⟨e, he, action, passive, hbinds, hP⟩
    exact ⟨(action, passive), mem_relevantParties_iff.mpr ⟨e, he, hbinds⟩, hP⟩

theorem infer?_eq_none_iff {corpus : Corpus} :
    corpus.infer? contractType = none ↔ corpus.relevantParties contractType = [] := by
  rw [← (corpus.records_scan contractType).isEmpty_iff, infer?]
  split <;> simp_all

/-- A table is inferred if some norm is relevant for the contract type and binds a party to an
action. It begins with the entries of the scan. The label for the party of an action is among them
if some such norm has an action that calls for it, and it stands for the parties that those norms
bind, each once and in the order of first occurrence. The label of a noun is among them if some such
norm has an action that mentions the noun and binds another party, and it stands for the noun. There
are no other entries of the scan. -/
theorem infer?_records (corpus : Corpus) (contractType : String) :
    (corpus.infer? contractType = none ↔
      ∀ e ∈ corpus.entries, ∀ action passive, ¬ Binds contractType e.norm action passive) ∧
    ∀ table, corpus.infer? contractType = some table →
      (corpus.scan contractType).entries <+: table.entries ∧
      (∀ label ∈ partyLabels,
        (label ∈ (corpus.scan contractType).keys ↔ ∃ e ∈ corpus.entries, ∃ action passive,
          Binds contractType e.norm action passive ∧ IsFirstLabel action label) ∧
        (label ∈ (corpus.scan contractType).keys → table.get? label =
          RoleTarget.ofRoles? (boundBy (corpus.relevantParties contractType) label))) ∧
      (∀ c ∈ counterparts,
        (c.2 ∈ (corpus.scan contractType).keys ↔ ∃ e ∈ corpus.entries, ∃ action passive,
          Binds contractType e.norm action passive ∧ occursIn c.1 action = true ∧
            passive ≠ c.1) ∧
        (c.2 ∈ (corpus.scan contractType).keys → table.get? c.2 = some (.single c.1))) ∧
      ∀ key ∈ (corpus.scan contractType).keys,
        key ∈ partyLabels ∨ key ∈ counterparts.map Prod.snd := by
  have hrecords := corpus.records_scan contractType
  constructor
  · rw [infer?_eq_none_iff, List.eq_nil_iff_forall_not_mem]
    constructor
    · intro hnone e he action passive hbinds
      exact hnone (action, passive) (mem_relevantParties_iff.mpr ⟨e, he, hbinds⟩)
    · intro hnone p hp
      obtain ⟨e, he, hbinds⟩ := mem_relevantParties_iff.mp hp
      exact hnone e he p.1 p.2 hbinds
  · intro table h
    obtain rfl : (corpus.scan contractType).close = table := by
      rw [infer?] at h
      split at h
      · exact absurd h (by simp)
      · exact Option.some_inj.mp h
    refine ⟨RoleTable.prefix_close _, fun label hlabel ↦ ⟨?_, fun hkey ↦ ?_⟩,
      fun c hc ↦ ⟨?_, fun hkey ↦ ?_⟩, fun key hkey ↦ hrecords.mem_labels_of_mem_keys hkey⟩
    · rw [hrecords.label_mem_keys_iff hlabel]
      exact exists_relevantParties_iff fun action _ ↦ IsFirstLabel action label
    · rw [RoleTable.get?_close_of_mem_keys hkey, hrecords.bound label hlabel]
    · rw [hrecords.noun_mem_keys_iff hc]
      exact exists_relevantParties_iff fun action passive ↦ Mentions c (action, passive)
    · rw [RoleTable.get?_close_of_mem_keys hkey, hrecords.get?_noun hc hkey]

/-- A corpus of two sources. Both bind the lessee to pay, with the guarantor between them, and the
norm on repairs binds nobody. -/
def sharedLease : Corpus :=
  ⟨⟨[("codigo", ⟨none, none, ⟨[
      ("a", leaseNorm "pagar la renta al arrendador" "arrendatario"),
      ("b", leaseNorm "pagar la fianza" "fiador")]⟩⟩),
    ("ley", ⟨none, none, ⟨[
      ("a", ⟨none, some ⟨some "reparar", none, none, none, none, []⟩, ["arrendamiento"], none⟩),
      ("b", leaseNorm "entregar la cosa al arrendatario" "arrendador"),
      ("c", leaseNorm "pagar y entregar recibo al arrendatario" "arrendatario")]⟩⟩)]⟩,
    .empty, .empty⟩

/-- The table that is inferred from the corpus above. -/
def sharedLeaseRoles : RoleTable :=
  ⟨[("deudor", .many ["arrendatario", "fiador"]), ("propietario", .single "arrendador"),
    ("obligado_entrega", .single "arrendador"), ("usuario", .single "arrendatario"),
    ("arrendatario", .single "deudor"), ("fiador", .single "deudor"),
    ("arrendador", .single "propietario")]⟩

theorem infer?_records_sharedLease :
    sharedLease.infer? "Arrendamiento" = some sharedLeaseRoles ∧
      boundBy (sharedLease.relevantParties "Arrendamiento") "deudor" =
        ["arrendatario", "fiador"] ∧
      sharedLeaseRoles.get? "deudor" =
        RoleTarget.ofRoles? (boundBy (sharedLease.relevantParties "Arrendamiento") "deudor") ∧
      sharedLeaseRoles.get? "usuario" = some (.single "arrendatario") ∧
      ∃ e ∈ sharedLease.entries, ∃ action passive, Binds "Arrendamiento" e.norm action passive ∧
        occursIn "arrendatario" action = true ∧ passive ≠ "arrendatario" := by
  have hinfer : sharedLease.infer? "Arrendamiento" = some sharedLeaseRoles := by decide +kernel
  obtain ⟨-, hlabels, hnouns, -⟩ := (infer?_records sharedLease "Arrendamiento").2 _ hinfer
  have husuario : "usuario" ∈ (sharedLease.scan "Arrendamiento").keys := by decide +kernel
  obtain ⟨hmentioned, hnoun⟩ := hnouns ("arrendatario", "usuario") (by decide)
  exact ⟨hinfer, by decide +kernel, (hlabels "deudor" (by decide)).2 (by decide +kernel),
    hnoun husuario, hmentioned.mp husuario⟩

end Corpus

end Normative
