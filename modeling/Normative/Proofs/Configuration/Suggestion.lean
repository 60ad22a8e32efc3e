import Mathlib.Data.List.Induction
import Mathlib.Order.Bounds.Defs
import Normative.Configuration.Review

/-!
# Suggestions are the first closest entries

The search for a suggestion goes through a list once. It passes over the entries beyond the limit
and keeps the best of the others, and an entry that is merely as close as the one it keeps does not
replace it. So what it keeps after some entries is the first of them at the least distance, or
nothing if they are all beyond the limit.

Institutions, types and legal domains have one list each. The list for roles is that of the first
institution in the configuration whose name is that of the institution in question, letter case
apart; there may be no such list.

## Main definitions

* `IsFirstClosest` : the first entry of a list at the least distance from a value.
* `Reviewer.isValid`, `Reviewer.suggestion?` : the check and the suggestion for each kind of value.
* `Reviewer.Lists` : the list for each kind of value.

## Main results

* `isBest_closer`, `isBest_foldl` : what the search keeps, entry by entry.
* `suggest?_eq_some_iff`, `suggest?_eq_none_iff` : the suggestion from a list.
* `Reviewer.suggestion?_iff_isFirstClosest` : the suggestion for each kind of value.
-/

namespace Normative

open Text (memFold sameFold editDistance)

/-! ### The search -/

/-- An entry is the first one of a list at the least distance from a value. -/
structure IsFirstClosest (value : String) (list : List String) (entry : String) : Prop where
  least : IsLeast {n | ∃ e ∈ list, editDistance value e = n} (editDistance value entry)
  first : list.find? (fun e ↦ editDistance value e = editDistance value entry) = some entry

namespace IsFirstClosest

variable {value entry other : String} {list : List String}

theorem mem (h : IsFirstClosest value list entry) : entry ∈ list :=
  List.mem_of_find?_eq_some h.first

theorem le (h : IsFirstClosest value list entry) (hother : other ∈ list) :
    editDistance value entry ≤ editDistance value other :=
  h.least.2 ⟨other, hother, rfl⟩

/-- A list has no more than one first closest entry. -/
theorem unique (h : IsFirstClosest value list entry) (h' : IsFirstClosest value list other) :
    entry = other := by
  have hdistance : editDistance value entry = editDistance value other :=
    Nat.le_antisymm (h.le h'.mem) (h'.le h.mem)
  have hfirst := h.first
  rw [hdistance, h'.first] at hfirst
  exact (Option.some.inj hfirst).symm

/-- A further entry that is not closer leaves the first closest one in its place. -/
theorem concat_of_le (h : IsFirstClosest value list entry)
    (hle : editDistance value entry ≤ editDistance value other) :
    IsFirstClosest value (list ++ [other]) entry where
  least := by
    refine ⟨⟨entry, List.mem_append_left _ h.mem, rfl⟩, ?_⟩
    rintro n ⟨e, he, rfl⟩
    rcases List.mem_append.mp he with he | he
    · exact h.le he
    · rwa [List.mem_singleton.mp he]
  first := by rw [List.find?_append, h.first, Option.some_or]

/-- A further entry that is closer than all before it takes their place. -/
theorem concat_of_lt (hlt : ∀ e ∈ list, editDistance value entry < editDistance value e) :
    IsFirstClosest value (list ++ [entry]) entry where
  least := by
    refine ⟨⟨entry, List.mem_append_right _ List.mem_cons_self, rfl⟩, ?_⟩
    rintro n ⟨e, he, rfl⟩
    rcases List.mem_append.mp he with he | he
    · exact Nat.le_of_lt (hlt e he)
    · exact Nat.le_of_eq (congrArg _ (List.mem_singleton.mp he).symm)
  first := by
    have hnone : list.find? (fun e ↦ editDistance value e = editDistance value entry) = none :=
      List.find?_eq_none.mpr fun e he ↦ by
        rw [decide_eq_true_eq]
        exact Nat.ne_of_gt (hlt e he)
    rw [List.find?_append, hnone, Option.none_or, List.find?_singleton, decide_eq_true rfl]
    rfl

end IsFirstClosest

variable {value entry : String} {list : List String}

/-- What the search may keep after the entries of a list: the first closest of them with its
distance, or nothing if all are beyond the limit. -/
inductive IsBest (value : String) (list : List String) : Option (String × Nat) → Prop
  | none (beyond : ∀ e ∈ list, suggestionLimit < editDistance value e) : IsBest value list none
  | some {entry : String} (first : IsFirstClosest value list entry)
      (within : editDistance value entry ≤ suggestionLimit) :
      IsBest value list (some (entry, editDistance value entry))

theorem isBest_closer {best : Option (String × Nat)} (h : IsBest value list best)
    (entry : String) : IsBest value (list ++ [entry]) (closer value best entry) := by
  unfold closer
  by_cases hbeyond : suggestionLimit < editDistance value entry
  · -- The entry is beyond the limit, and so it is no closer than the one that is kept.
    rw [if_pos hbeyond]
    cases h with
    | none hall =>
      refine .none fun e he ↦ ?_
      rcases List.mem_append.mp he with he | he
      · exact hall e he
      · rwa [List.mem_singleton.mp he]
    | some hfirst hwithin => exact .some (hfirst.concat_of_le (by omega)) hwithin
  · rw [if_neg hbeyond]
    cases h with
    | none hall =>
      refine .some (.concat_of_lt fun e he ↦ ?_) (Nat.le_of_not_lt hbeyond)
      have := hall e he
      omega
    | @some found hfirst hwithin =>
      dsimp only
      by_cases hcloser : editDistance value entry < editDistance value found
      · rw [if_pos hcloser]
        refine .some (.concat_of_lt fun e he ↦ ?_) (Nat.le_of_not_lt hbeyond)
        have := hfirst.le he
        omega
      · rw [if_neg hcloser]
        exact .some (hfirst.concat_of_le (Nat.le_of_not_lt hcloser)) hwithin

theorem isBest_foldl (value : String) (list : List String) :
    IsBest value list (list.foldl (closer value) none) := by
  induction list using List.reverseRecOn with
  | nil => exact .none fun e he ↦ absurd he List.not_mem_nil
  | append_singleton list entry ih =>
    rw [List.foldl_append, List.foldl_cons, List.foldl_nil]
    exact isBest_closer ih entry

theorem closest?_eq_some_iff :
    closest? value list = some entry ↔
      IsFirstClosest value list entry ∧ editDistance value entry ≤ suggestionLimit := by
  have hbest := isBest_foldl value list
  rw [closest?]
  generalize list.foldl (closer value) none = best at hbest
  cases hbest with
  | none hall =>
    refine ⟨fun h ↦ absurd h (by simp), fun ⟨hfirst, hle⟩ ↦ ?_⟩
    exact absurd hle (Nat.not_le.mpr (hall entry hfirst.mem))
  | some hfirst hwithin =>
    rw [Option.map_some, Option.some_inj]
    constructor
    · rintro rfl
      exact ⟨hfirst, hwithin⟩
    · exact fun h ↦ hfirst.unique h.1

theorem closest?_eq_none_iff :
    closest? value list = none ↔ ∀ e ∈ list, suggestionLimit < editDistance value e := by
  have hbest := isBest_foldl value list
  rw [closest?, Option.map_eq_none_iff]
  generalize list.foldl (closer value) none = best at hbest
  cases hbest with
  | none hall => exact iff_of_true rfl hall
  | some hfirst hwithin =>
    refine iff_of_false (by simp) fun hall ↦ ?_
    exact absurd hwithin (Nat.not_le.mpr (hall _ hfirst.mem))

/-- A list has a suggestion for a value exactly if the value is not on it and the least distance is
within the limit, and then the suggestion is the first entry at that distance. -/
theorem suggest?_eq_some_iff :
    suggest? value list = some entry ↔
      memFold value list = false ∧ IsFirstClosest value list entry ∧
        editDistance value entry ≤ suggestionLimit := by
  rw [suggest?]
  split
  · rename_i hmem
    simp [hmem]
  · rename_i hmem
    rw [closest?_eq_some_iff, iff_and_self]
    exact fun _ ↦ Bool.eq_false_iff.mpr hmem

theorem suggest?_eq_none_iff :
    suggest? value list = none ↔
      memFold value list = true ∨ ∀ e ∈ list, suggestionLimit < editDistance value e := by
  rw [suggest?]
  split
  · rename_i hmem
    simp [hmem]
  · rename_i hmem
    rw [closest?_eq_none_iff, or_iff_right hmem]

/-! ### The lists of a reviewer -/

namespace Reviewer

variable {reviewer : Reviewer} {kind : IssueKind}

/-- Whether a value is valid as an institution, a type, a legal domain or a role. -/
def isValid (reviewer : Reviewer) (value : String) : IssueKind → Bool
  | .institution => memFold value reviewer.configuration.institutions
  | .institutionType => memFold value reviewer.configuration.types
  | .legalDomain => memFold value reviewer.configuration.domains
  | .role => reviewer.isRole value

/-- What is suggested for an institution, a type, a legal domain or a role. -/
def suggestion? (reviewer : Reviewer) (value : String) : IssueKind → Option String
  | .institution => suggest? value reviewer.configuration.institutions
  | .institutionType => suggest? value reviewer.configuration.types
  | .legalDomain => suggest? value reviewer.configuration.domains
  | .role => reviewer.suggestRole? value

/-- The list for a kind of value. Roles have one if there is an institution in question and the
configuration has its name as a key, letter case apart; the first such key counts. -/
def Lists (reviewer : Reviewer) (list : List String) : IssueKind → Prop
  | .institution => list = reviewer.configuration.institutions
  | .institutionType => list = reviewer.configuration.types
  | .legalDomain => list = reviewer.configuration.domains
  | .role => ∃ institution, reviewer.institution = some institution ∧ ∃ key before after,
      reviewer.configuration.roles.entries = before ++ (key, list) :: after ∧
        sameFold key institution = true ∧ ∀ e ∈ before, sameFold e.1 institution = false

/-- The list for a kind of value, as it is looked up. -/
def list? (reviewer : Reviewer) : IssueKind → Option (List String)
  | .institution => some reviewer.configuration.institutions
  | .institutionType => some reviewer.configuration.types
  | .legalDomain => some reviewer.configuration.domains
  | .role => reviewer.roles?

theorem list?_eq_some_iff : reviewer.list? kind = some list ↔ reviewer.Lists list kind := by
  cases kind with
  | institution | institutionType | legalDomain => exact Option.some_inj.trans eq_comm
  | role =>
    rw [list?, roles?, Option.bind_eq_some_iff]
    simp only [Configuration.rolesFor?, OrderedMap.getFold?_eq_some_iff, Lists]

theorem isValid_eq (reviewer : Reviewer) (value : String) (kind : IssueKind) :
    reviewer.isValid value kind = (reviewer.list? kind).any (memFold value) := by
  cases kind <;> rfl

theorem suggestion?_eq (reviewer : Reviewer) (value : String) (kind : IssueKind) :
    reviewer.suggestion? value kind = (reviewer.list? kind).bind (suggest? value) := by
  cases kind <;> rfl

/-- A value is valid exactly if its list has it in some letter case. -/
theorem isValid_iff :
    reviewer.isValid value kind = true ↔
      ∃ list, reviewer.Lists list kind ∧ ∃ entry ∈ list, sameFold value entry = true := by
  simp only [isValid_eq, Option.any_eq_true, Text.memFold_iff, list?_eq_some_iff]

/-- A suggestion is made for a value exactly if it is not valid and the least distance to the
entries of its list is at most three, and it is the first entry at that distance. So none is made
for a valid value, if all entries are further away, and if there is no list. -/
theorem suggestion?_iff_isFirstClosest (reviewer : Reviewer) (value : String) (kind : IssueKind) :
    (∀ entry, reviewer.suggestion? value kind = some entry ↔
      reviewer.isValid value kind = false ∧ ∃ list, reviewer.Lists list kind ∧
        IsFirstClosest value list entry ∧ editDistance value entry ≤ 3) ∧
      (reviewer.suggestion? value kind = none ↔
        reviewer.isValid value kind = true ∨
          ∀ list, reviewer.Lists list kind → ∀ entry ∈ list, 3 < editDistance value entry) := by
  simp only [suggestion?_eq, isValid_eq, ← list?_eq_some_iff]
  cases reviewer.list? kind with
  | none => simp
  | some list =>
    simp only [Option.bind_some, Option.any_some, Option.some_inj, exists_eq_left',
      forall_eq']
    have hlimit : suggestionLimit = 3 := rfl
    simp only [suggest?_eq_some_iff, suggest?_eq_none_iff, hlimit, implies_true, and_self]

end Reviewer

end Normative
