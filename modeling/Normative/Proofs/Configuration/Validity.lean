import Normative.Proofs.Configuration.Suggestion
import Normative.Proofs.Text.Distance
import Normative.Proofs.Text.Sigma

/-!
# Validity and distance

A value is valid if its fold is that of an entry, and an entry is at distance zero if its lower case
is that of the value. These are two ways of being equal up to letter case. They differ for words
that end in a sigma: a valid value may be at a distance from all entries, and an entry may be
suggested for a value from which it differs in letter case only.

An entry that is equal to a value in one of the two ways is so in the other exactly if both have the
same sigmas at the ends of words. Every sigma there can be replaced so that one way is kept and the
other is lost, and so the values without such sigmas are the only ones for which validity and
distance agree on all lists.

## Main definitions

* `Reviewer.HasExact` : an entry at distance zero from a value.

## Main results

* `Text.sameFold_iff_editDistance` : when the two agree on an entry.
* `Reviewer.isValid_iff_hasExact_iff_finalSigmas` : when they agree on the lists of a reviewer, and
  for which values they agree on all lists.
-/

namespace Normative

open Text (memFold sameFold fold lowercase editDistance finalSigmas IsSigma)

/-! ### One entry -/

namespace Text

variable {value entry : String}

/-- The two ways agree on an entry exactly if an entry that is equal to the value in one of them has
the same sigmas at the ends of words. -/
theorem sameFold_iff_editDistance :
    (sameFold value entry = true ↔ editDistance value entry = 0) ↔
      (sameFold value entry = true ∨ editDistance value entry = 0 →
        finalSigmas value = finalSigmas entry) := by
  rw [sameFold_iff, editDistance_eq_zero_iff]
  constructor
  · intro h hor
    have hfold : fold value = fold entry := hor.elim id h.mpr
    exact (lowercase_eq_iff hfold).mp (h.mp hfold)
  · intro h
    exact ⟨fun hfold ↦ (lowercase_eq_iff hfold).mpr (h (.inl hfold)),
      fun hlowercase ↦ (fold_eq_iff hlowercase).mpr (h (.inr hlowercase))⟩

/-- A sigma at the end of a word can be replaced so that one way of being equal is kept and the
other is lost. -/
theorem exists_not_iff_of_finalSigmas_ne_nil (h : finalSigmas value ≠ []) :
    ∃ entry, ¬ (sameFold value entry = true ↔ editDistance value entry = 0) := by
  obtain ⟨x, hx⟩ := List.exists_mem_of_ne_nil _ h
  obtain ⟨y, hy, hforms⟩ :
      ∃ y, IsSigma y ∧ ¬ (innerForm x = innerForm y ↔ finalForm x = finalForm y) := by
    obtain rfl | rfl | rfl := isSigma_of_mem_finalSigmas hx
    · exact ⟨'σ', by decide, by decide⟩
    · exact ⟨'Σ', by decide, by decide⟩
    · exact ⟨'Σ', by decide, by decide⟩
  obtain ⟨entry, hfold, hlowercase⟩ := exists_respelled hx hy
  refine ⟨entry, ?_⟩
  rwa [sameFold_iff, editDistance_eq_zero_iff, hfold, hlowercase]

/-- A sigma at the end of a word that is not written `σ` can be replaced so that the distance is
zero and the fold is another. -/
theorem exists_editDistance_eq_zero {x : Char} (hx : x ∈ finalSigmas value) (hne : x ≠ 'σ') :
    ∃ entry, sameFold value entry = false ∧ editDistance value entry = 0 := by
  obtain ⟨y, hy, hinner, hfinal⟩ :
      ∃ y, IsSigma y ∧ innerForm x ≠ innerForm y ∧ finalForm x = finalForm y := by
    obtain rfl | rfl | rfl := isSigma_of_mem_finalSigmas hx
    · exact ⟨'ς', by decide, by decide, by decide⟩
    · exact absurd rfl hne
    · exact ⟨'Σ', by decide, by decide, by decide⟩
  obtain ⟨entry, hfold, hlowercase⟩ := exists_respelled hx hy
  refine ⟨entry, ?_, editDistance_eq_zero_iff.mpr (hlowercase.mpr hfinal)⟩
  rw [← Bool.not_eq_true, sameFold_iff, hfold]
  exact hinner

end Text

/-! ### The lists of a reviewer -/

namespace Reviewer

variable {reviewer : Reviewer} {kind : IssueKind} {value entry : String}

/-- An entry of the list for a kind of value is at distance zero from the value. -/
def HasExact (reviewer : Reviewer) (value : String) (kind : IssueKind) : Prop :=
  ∃ list, reviewer.Lists list kind ∧ ∃ entry ∈ list, editDistance value entry = 0

theorem exists_list_of_suggestion? (h : reviewer.suggestion? value kind = some entry) :
    ∃ list, reviewer.Lists list kind ∧ entry ∈ list ∧ sameFold value entry = false ∧
      editDistance value entry ≤ 3 := by
  rw [suggestion?_eq, Option.bind_eq_some_iff] at h
  obtain ⟨list, hlist, h⟩ := h
  obtain ⟨hmem, hfirst, hwithin⟩ := suggest?_eq_some_iff.mp h
  refine ⟨list, list?_eq_some_iff.mp hlist, hfirst.mem, ?_, hwithin⟩
  rw [← Bool.not_eq_true] at hmem ⊢
  exact fun hsame ↦ hmem (Text.memFold_iff.mpr ⟨entry, hfirst.mem, hsame⟩)

/-- A reviewer whose only list is that of one institution. -/
def ofInstitution (entry : String) : Reviewer :=
  ⟨{ Configuration.empty with institutions := [entry] }, none⟩

theorem isValid_ofInstitution :
    (ofInstitution entry).isValid value .institution = true ↔ sameFold value entry = true := by
  rw [isValid_iff]
  simp [ofInstitution, Lists]

theorem hasExact_ofInstitution :
    (ofInstitution entry).HasExact value .institution ↔ editDistance value entry = 0 := by
  simp [HasExact, ofInstitution, Lists]

theorem suggestion?_ofInstitution (hfold : sameFold value entry = false)
    (hdistance : editDistance value entry = 0) :
    (ofInstitution entry).suggestion? value .institution = some entry := by
  refine suggest?_eq_some_iff.mpr ⟨?_, ?_, ?_⟩
  · rw [← Bool.not_eq_true, Text.memFold_iff]
    simp [ofInstitution, hfold]
  · have hnil : ∀ e ∈ [], editDistance value entry < editDistance value e := by simp
    exact IsFirstClosest.concat_of_lt hnil
  · rw [hdistance]
    exact Nat.zero_le _

/-- Validity is distance zero on lists whose entries end their words in the sigmas of the value
whenever they are equal to it in one of the two ways. -/
theorem isValid_iff_hasExact
    (h : ∀ list, reviewer.Lists list kind → ∀ entry ∈ list,
      sameFold value entry = true ∨ editDistance value entry = 0 →
        finalSigmas value = finalSigmas entry) :
    reviewer.isValid value kind = true ↔ reviewer.HasExact value kind := by
  rw [isValid_iff, HasExact]
  refine exists_congr fun list ↦ and_congr_right fun hlist ↦ exists_congr fun entry ↦
    and_congr_right fun hentry ↦ ?_
  exact Text.sameFold_iff_editDistance.mpr (h list hlist entry hentry)

/-- A suggestion is never beyond the limit, and it is at a distance unless it has the lower case of
the value but another fold. -/
theorem suggestion?_distance (h : reviewer.suggestion? value kind = some entry)
    (hfold : lowercase value = lowercase entry → fold value = fold entry) :
    1 ≤ editDistance value entry ∧ editDistance value entry ≤ 3 := by
  obtain ⟨list, -, -, hsame, hwithin⟩ := exists_list_of_suggestion? h
  refine ⟨Nat.one_le_iff_ne_zero.mpr fun hzero ↦ ?_, hwithin⟩
  have hsame' := Text.sameFold_iff.mpr (hfold (Text.editDistance_eq_zero_iff.mp hzero))
  rw [hsame] at hsame'
  exact Bool.false_ne_true hsame'

/-- A value is valid exactly if an entry is at distance zero from it, and a suggestion is at a
distance between one and three, unless an entry that is equal to the value in one of the two ways
ends its words in other sigmas. The former holds of a value on all lists exactly if no word of the
value ends in a sigma, and the latter exactly if its words end in no sigma but `σ`. -/
theorem isValid_iff_hasExact_iff_finalSigmas (value : String) :
    (∀ (reviewer : Reviewer) (kind : IssueKind),
      (∀ list, reviewer.Lists list kind → ∀ entry ∈ list,
        sameFold value entry = true ∨ editDistance value entry = 0 →
          finalSigmas value = finalSigmas entry) →
      (reviewer.isValid value kind = true ↔ reviewer.HasExact value kind) ∧
        ∀ entry, reviewer.suggestion? value kind = some entry →
          1 ≤ editDistance value entry ∧ editDistance value entry ≤ 3) ∧
      ((∀ (reviewer : Reviewer) (kind : IssueKind),
        reviewer.isValid value kind = true ↔ reviewer.HasExact value kind) ↔
          finalSigmas value = []) ∧
      ((∀ (reviewer : Reviewer) (kind : IssueKind) (entry : String),
        reviewer.suggestion? value kind = some entry →
          1 ≤ editDistance value entry ∧ editDistance value entry ≤ 3) ↔
            'Σ' ∉ finalSigmas value ∧ 'ς' ∉ finalSigmas value) := by
  refine ⟨fun reviewer kind h ↦ ⟨isValid_iff_hasExact h, fun entry hentry ↦ ?_⟩, ⟨?_, ?_⟩, ⟨?_, ?_⟩⟩
  · obtain ⟨list, hlist, hmem, -, -⟩ := exists_list_of_suggestion? hentry
    refine suggestion?_distance hentry fun hlowercase ↦ ?_
    have hzero := Text.editDistance_eq_zero_iff.mpr hlowercase
    exact (Text.fold_eq_iff hlowercase).mpr (h list hlist entry hmem (.inr hzero))
  · intro h
    by_contra hne
    -- The only institution is the value with another sigma at the end of a word.
    obtain ⟨entry, hentry⟩ := Text.exists_not_iff_of_finalSigmas_ne_nil hne
    refine hentry ?_
    rw [← isValid_ofInstitution, ← hasExact_ofInstitution]
    exact h _ _
  · intro hnil reviewer kind
    refine isValid_iff_hasExact fun list _ entry _ hor ↦ ?_
    rw [Text.sameFold_iff, Text.editDistance_eq_zero_iff] at hor
    rw [hnil, Text.finalSigmas_eq_nil hor hnil]
  · intro h
    have hsmall (x : Char) (hx : x ∈ finalSigmas value) : x = 'σ' := by
      by_contra hne
      obtain ⟨entry, hfold, hzero⟩ := Text.exists_editDistance_eq_zero hx hne
      have hdistance := (h _ _ _ (suggestion?_ofInstitution hfold hzero)).1
      omega
    exact ⟨fun hx ↦ absurd (hsmall _ hx) (by decide), fun hx ↦ absurd (hsmall _ hx) (by decide)⟩
  · rintro ⟨hcapital, hfinal⟩ reviewer kind entry hentry
    refine suggestion?_distance hentry fun hlowercase ↦ ?_
    refine Text.fold_eq_of_lowercase_eq hlowercase fun x hx ↦ ?_
    obtain rfl | rfl | rfl := Text.isSigma_of_mem_finalSigmas hx
    · exact absurd hx hcapital
    · rfl
    · exact absurd hx hfinal

/-- A word and an entry that both end in the capital sigma. -/
theorem isValid_iff_hasExact_iff_finalSigmas_customs :
    (∀ list, (ofInstitution "ΘΕΣΜΟΣ").Lists list .institution → ∀ entry ∈ list,
      sameFold "θεσμοΣ" entry = true ∨ editDistance "θεσμοΣ" entry = 0 →
        finalSigmas "θεσμοΣ" = finalSigmas entry) ∧
      (ofInstitution "ΘΕΣΜΟΣ").isValid "θεσμοΣ" .institution = true ∧
      (ofInstitution "ΘΕΣΜΟΣ").HasExact "θεσμοΣ" .institution := by
  have hlists : ∀ list, (ofInstitution "ΘΕΣΜΟΣ").Lists list .institution → ∀ entry ∈ list,
      sameFold "θεσμοΣ" entry = true ∨ editDistance "θεσμοΣ" entry = 0 →
        finalSigmas "θεσμοΣ" = finalSigmas entry := by
    rintro list rfl
    decide +kernel
  have hvalid : (ofInstitution "ΘΕΣΜΟΣ").isValid "θεσμοΣ" .institution = true := by decide +kernel
  have hagree := ((isValid_iff_hasExact_iff_finalSigmas "θεσμοΣ").1 _ _ hlists).1
  exact ⟨hlists, hvalid, hagree.mp hvalid⟩

/-- A word that differs from an entry in letter case only is not valid, and the entry at distance
zero is suggested for it, if the word ends in the form of sigma for the ends of words. With the
other form it is valid, although the entry is at distance one. -/
theorem customs_not_isValid :
    (ofInstitution "ΘΕΣΜΟΣ").isValid "θεσμος" .institution = false ∧
      (ofInstitution "ΘΕΣΜΟΣ").HasExact "θεσμος" .institution ∧
      (ofInstitution "ΘΕΣΜΟΣ").suggestion? "θεσμος" .institution = some "ΘΕΣΜΟΣ" ∧
      editDistance "θεσμος" "ΘΕΣΜΟΣ" = 0 ∧
      (ofInstitution "ΘΕΣΜΟΣ").isValid "θεσμοσ" .institution = true ∧
      ¬ (ofInstitution "ΘΕΣΜΟΣ").HasExact "θεσμοσ" .institution ∧
      editDistance "θεσμοσ" "ΘΕΣΜΟΣ" = 1 := by
  simp only [hasExact_ofInstitution]
  decide +kernel

end Reviewer

end Normative
