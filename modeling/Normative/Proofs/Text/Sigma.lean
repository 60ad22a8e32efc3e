import Mathlib.Data.List.Forall2
import Normative.Proofs.Text.Letter

/-!
# The two lower cases and the sigmas at the ends of words

`fold` takes the lower case of every character by itself, and `lowercase` that of a text. They
differ in a capital sigma at the end of a word, which becomes `σ` in the former and `ς` in the
latter. So two texts may have the same fold and different lower cases, or the other way round.

Both are compared through the text in which everything but the capital sigmas is in lower case.
Texts with the same fold, and texts with the same lower case, are alike there but for the forms of
their sigmas, and so their words end at the same places. What remains is to compare the sigmas at
the ends of words, one by one.

## Main definitions

* `Text.finalSigmas` : the sigmas at the ends of words, as they are written.
* `Text.settle` : the text in lower case, from the one that still has its capital sigmas.
* `Text.Alike` : texts that differ at most in the forms of their sigmas.

## Main results

* `Text.lowercase_eq_iff`, `Text.fold_eq_iff` : texts that agree in one lower case agree in the
  other exactly if their words end in the same sigmas.
* `Text.exists_respelled` : a sigma at the end of a word may be replaced by any other.
-/

namespace Normative.Text

/-- Whether a place between the text before it, read backwards, and the text after it is the end of
a word. -/
def endsWord (before after : List Char) : Bool := nextIsCased before && !nextIsCased after

/-- A character itself, if it is a sigma and stands at the end of a word. -/
def finalAt (ends : Bool) (c : Char) : List Char := if IsSigma c ∧ ends = true then [c] else []

/-- The sigmas at the ends of words in the remaining characters of a text, the characters before
them being given in reverse. -/
def finalSigmasAfter (before : List Char) : List Char → List Char
  | [] => []
  | c :: rest => finalAt (endsWord before rest) c ++ finalSigmasAfter (c :: before) rest

/-- The sigmas at the ends of the words of a text, in their order and as they are written. -/
def finalSigmas (text : String) : List Char := finalSigmasAfter [] text.toList

/-! ### The two forms of the small sigma -/

/-- The small form of a capital sigma inside a word; other characters are left as they are. -/
def innerForm (c : Char) : Char := if c = 'Σ' then 'σ' else c

/-- The small form of a capital sigma at the end of a word; other characters are left as they
are. -/
def finalForm (c : Char) : Char := if c = 'Σ' then 'ς' else c

/-- The form that is taken at a place. -/
def formAt (ends : Bool) (c : Char) : Char := if ends then finalForm c else innerForm c

theorem formAt_of_ne {c : Char} (h : c ≠ 'Σ') (ends : Bool) : formAt ends c = c := by
  cases ends <;> simp [formAt, finalForm, innerForm, h]

/-! ### Texts that still have their capital sigmas -/

/-- The text in lower case, from the remaining characters of one that is in lower case but for its
capital sigmas. -/
def settle (before : List Char) : List Char → List Char
  | [] => []
  | c :: rest => formAt (endsWord before rest) c :: settle (c :: before) rest

theorem map_formAt_lowerButSigma (c : Char) (ends : Bool) :
    (lowerButSigma c).map (formAt ends) = if c = 'Σ' then [formAt ends c] else lowerChar c := by
  by_cases hc : c = 'Σ'
  · rw [lowerButSigma, if_pos hc, if_pos hc, List.map_singleton]
  · have hlowers := lowers_lowerButSigma c
    rw [lowerButSigma, if_neg hc] at hlowers ⊢
    rw [if_neg hc]
    generalize lowerChar c = image at hlowers
    -- There is no capital sigma among the characters of the lower case.
    cases hlowers with
    | same => rw [List.map_singleton, formAt_of_ne hc]
    | letter _ hd => rw [List.map_singleton, formAt_of_ne fun h ↦ hd.2 (.inl h)]
    | dotted =>
      rw [List.map_cons, List.map_singleton, formAt_of_ne (by decide), formAt_of_ne (by decide)]

theorem fold_eq_map (text : String) :
    fold text = (text.toList.flatMap lowerButSigma).map innerForm := by
  rw [fold, List.map_flatMap]
  refine congrArg (List.flatMap · text.toList) (funext fun c ↦ ?_)
  refine Eq.trans ?_ (map_formAt_lowerButSigma c false).symm
  split
  · rename_i hc
    rw [hc]
    decide +kernel
  · rfl

theorem lowercaseAfter_cons (before rest : List Char) (c : Char) :
    lowercaseAfter before (c :: rest) =
      (lowerButSigma c).map (formAt (endsWord before rest)) ++
        lowercaseAfter (c :: before) rest := by
  rw [lowercaseAfter, map_formAt_lowerButSigma]
  split
  · rename_i hc
    rw [hc]
    rfl
  · rfl

/-- The ends of words depend on what is before and after only in one respect. -/
theorem endsWord_congr {before before' after after' : List Char}
    (hbefore : nextIsCased before = nextIsCased before')
    (hafter : nextIsCased after = nextIsCased after') :
    endsWord before after = endsWord before' after' := by
  rw [endsWord, endsWord, hbefore, hafter]

variable {c : Char} {before before' rest image : List Char}

theorem Lowers.settle_append (h : Lowers c image) (before rest : List Char) :
    settle before (image ++ rest) =
      image.map (formAt (endsWord before rest)) ++ settle (image.reverse ++ before) rest := by
  cases h with
  | same | letter => rfl
  | dotted =>
    rw [List.cons_append, List.singleton_append, settle, settle, List.map_cons, List.map_singleton]
    simp only [formAt_of_ne (show 'i' ≠ 'Σ' by decide),
      formAt_of_ne (show Char.ofNat 0x307 ≠ 'Σ' by decide)]
    rfl

/-- The lower case of a text, in two steps. -/
theorem lowercaseAfter_eq_settle (text : List Char)
    (h : nextIsCased before = nextIsCased before') :
    lowercaseAfter before text = settle before' (text.flatMap lowerButSigma) := by
  induction text generalizing before before' with
  | nil => rfl
  | cons c rest ih =>
    have hends := endsWord_congr h (nextIsCased_flatMap_lowerButSigma rest).symm
    have hlowers := lowers_lowerButSigma c
    rw [lowercaseAfter_cons, List.flatMap_cons, hlowers.settle_append, hends,
      ih (hlowers.nextIsCased_reverse_append h.symm).symm]

theorem finalAt_of_not_isSigma (h : ¬ IsSigma c) (ends : Bool) : finalAt ends c = [] :=
  if_neg fun hc ↦ h hc.1

theorem Lowers.finalSigmasAfter_append (h : Lowers c image) (before rest : List Char) :
    finalSigmasAfter before (image ++ rest) =
      finalAt (endsWord before rest) c ++ finalSigmasAfter (image.reverse ++ before) rest := by
  cases h with
  | same => rfl
  | letter hc hd =>
    rw [List.singleton_append, finalSigmasAfter, finalAt_of_not_isSigma hd.2,
      finalAt_of_not_isSigma hc.2]
    rfl
  | dotted hc =>
    rw [List.cons_append, List.singleton_append, finalSigmasAfter, finalSigmasAfter,
      finalAt_of_not_isSigma hc.2, finalAt_of_not_isSigma (by decide),
      finalAt_of_not_isSigma (by decide)]
    rfl

/-- Lower case that leaves the capital sigmas as they are keeps the sigmas at the ends of words. -/
theorem finalSigmasAfter_flatMap (text : List Char)
    (h : nextIsCased before = nextIsCased before') :
    finalSigmasAfter before text = finalSigmasAfter before' (text.flatMap lowerButSigma) := by
  induction text generalizing before before' with
  | nil => rfl
  | cons c rest ih =>
    have hends := endsWord_congr h (nextIsCased_flatMap_lowerButSigma rest).symm
    have hlowers := lowers_lowerButSigma c
    rw [finalSigmasAfter, List.flatMap_cons, hlowers.finalSigmasAfter_append, hends,
      ih (hlowers.nextIsCased_reverse_append h.symm).symm]

/-! ### Texts that differ in the forms of their sigmas -/

/-- Characters that are equal or forms of sigma. -/
def SameLetter (c d : Char) : Prop := c = d ∨ IsSigma c ∧ IsSigma d

/-- Texts that differ at most in the forms of their sigmas. -/
def Alike (text text' : List Char) : Prop := List.Forall₂ SameLetter text text'

variable {text text' : List Char}

theorem SameLetter.nextIsCased_cons {d : Char} (h : SameLetter c d)
    (hrest : nextIsCased before = nextIsCased before') :
    nextIsCased (c :: before) = nextIsCased (d :: before') := by
  obtain rfl | ⟨hc, hd⟩ := h
  · exact nextIsCased_cons_congr hrest c
  · rw [hc.isLetter.nextIsCased_cons, hd.isLetter.nextIsCased_cons]

theorem Alike.nextIsCased_eq (h : Alike text text') : nextIsCased text = nextIsCased text' := by
  induction h with
  | nil => rfl
  | cons hhead _ ih => exact hhead.nextIsCased_cons ih

theorem sameLetter_of_formAt_eq {d : Char} {ends ends' : Bool}
    (h : formAt ends c = formAt ends' d) : SameLetter c d := by
  have hsigma (ends : Bool) : IsSigma (formAt ends 'Σ') := by cases ends <;> decide
  by_cases hc : c = 'Σ' <;> by_cases hd : d = 'Σ'
  · exact .inl (hc.trans hd.symm)
  · rw [formAt_of_ne hd] at h
    exact .inr ⟨.inl hc, h ▸ hc ▸ hsigma ends⟩
  · rw [formAt_of_ne hc] at h
    exact .inr ⟨h ▸ hd ▸ hsigma ends', .inl hd⟩
  · rw [formAt_of_ne hc, formAt_of_ne hd] at h
    exact .inl h

theorem alike_of_map_innerForm_eq (h : text.map innerForm = text'.map innerForm) :
    Alike text text' := by
  induction text generalizing text' with
  | nil => rw [List.map_eq_nil_iff.mp h.symm]; exact .nil
  | cons c rest ih =>
    obtain ⟨d, rest', rfl, hhead, htail⟩ := List.map_eq_cons_iff.mp h.symm
    have hform : formAt false c = formAt false d := hhead.symm
    exact .cons (sameLetter_of_formAt_eq hform) (ih htail.symm)

theorem alike_of_settle_eq (h : settle before text = settle before' text') : Alike text text' := by
  induction text generalizing text' before before' with
  | nil =>
    cases text' with
    | nil => exact .nil
    | cons => exact absurd h (by simp [settle])
  | cons c rest ih =>
    cases text' with
    | nil => exact absurd h (by simp [settle])
    | cons d rest' =>
      obtain ⟨hhead, htail⟩ := List.cons.inj h
      exact .cons (sameLetter_of_formAt_eq hhead) (ih htail)

/-! ### Comparison at the ends of words -/

variable {d : Char} {ends : Bool}

theorem SameLetter.length_finalAt (h : SameLetter c d) (ends : Bool) :
    (finalAt ends c).length = (finalAt ends d).length := by
  obtain rfl | ⟨hc, hd⟩ := h
  · rfl
  · cases ends <;> simp [finalAt, hc, hd]

theorem SameLetter.finalAt_eq_iff_formAt (h : SameLetter c d) (hinner : innerForm c = innerForm d) :
    finalAt ends c = finalAt ends d ↔ formAt ends c = formAt ends d := by
  cases ends with
  | false => simp [finalAt, formAt, hinner]
  | true =>
    obtain rfl | ⟨hc, hd⟩ := h
    · simp
    · obtain rfl | rfl | rfl := hc <;> obtain rfl | rfl | rfl := hd <;> revert hinner <;> decide

theorem SameLetter.finalAt_eq_iff_innerForm (h : SameLetter c d)
    (hform : formAt ends c = formAt ends d) :
    finalAt ends c = finalAt ends d ↔ innerForm c = innerForm d := by
  cases ends with
  | false => exact iff_of_true (by simp [finalAt]) hform
  | true =>
    obtain rfl | ⟨hc, hd⟩ := h
    · simp
    · obtain rfl | rfl | rfl := hc <;> obtain rfl | rfl | rfl := hd <;> revert hform <;> decide

/-- Of the sigmas at the ends of words, the small one is told apart from the others by its form. -/
theorem SameLetter.finalAt_eq (h : SameLetter c d) (hform : formAt ends c = formAt ends d)
    (hsigma : ∀ x ∈ finalAt ends c, x = 'σ') : finalAt ends c = finalAt ends d := by
  cases ends with
  | false => simp [finalAt]
  | true =>
    obtain rfl | ⟨hc, hd⟩ := h
    · rfl
    · have hc : c = 'σ' := hsigma c (by simp [finalAt, hc])
      subst hc
      obtain rfl | rfl | rfl := hd <;> revert hform <;> decide

namespace Alike

theorem finalSigmasAfter_cons_iff (hhead : SameLetter c d) (htail : Alike rest text')
    (hbefore : nextIsCased before = nextIsCased before') :
    finalSigmasAfter before (c :: rest) = finalSigmasAfter before' (d :: text') ↔
      finalAt (endsWord before rest) c = finalAt (endsWord before rest) d ∧
        finalSigmasAfter (c :: before) rest = finalSigmasAfter (d :: before') text' := by
  rw [finalSigmasAfter, finalSigmasAfter, endsWord_congr hbefore htail.nextIsCased_eq]
  constructor
  · exact fun h ↦ List.append_inj h (hhead.length_finalAt _)
  · rintro ⟨h, h'⟩
    rw [h, h']

/-- Texts with the same fold have the same lower case exactly if their words end in the same
sigmas. -/
theorem settle_eq_iff (h : Alike text text') (hbefore : nextIsCased before = nextIsCased before')
    (hinner : text.map innerForm = text'.map innerForm) :
    settle before text = settle before' text' ↔
      finalSigmasAfter before text = finalSigmasAfter before' text' := by
  induction h generalizing before before' with
  | nil => exact iff_of_true rfl rfl
  | @cons c d rest rest' hhead htail ih =>
    obtain ⟨hinner, hinners⟩ := List.cons.inj hinner
    have hends := endsWord_congr hbefore (nextIsCased_eq htail)
    rw [finalSigmasAfter_cons_iff hhead htail hbefore, settle, settle, ← hends, List.cons.injEq]
    exact and_congr (hhead.finalAt_eq_iff_formAt hinner).symm
      (ih (hhead.nextIsCased_cons hbefore) hinners)

/-- Texts with the same lower case have the same fold exactly if their words end in the same
sigmas. -/
theorem map_innerForm_eq_iff (h : Alike text text')
    (hbefore : nextIsCased before = nextIsCased before')
    (hsettle : settle before text = settle before' text') :
    text.map innerForm = text'.map innerForm ↔
      finalSigmasAfter before text = finalSigmasAfter before' text' := by
  induction h generalizing before before' with
  | nil => exact iff_of_true rfl rfl
  | @cons c d rest rest' hhead htail ih =>
    obtain ⟨hform, hforms⟩ := List.cons.inj hsettle
    rw [← endsWord_congr hbefore (nextIsCased_eq htail)] at hform
    rw [finalSigmasAfter_cons_iff hhead htail hbefore, List.map_cons, List.map_cons,
      List.cons.injEq]
    exact and_congr (hhead.finalAt_eq_iff_innerForm hform).symm
      (ih (hhead.nextIsCased_cons hbefore) hforms)

theorem length_finalSigmasAfter (h : Alike text text')
    (hbefore : nextIsCased before = nextIsCased before') :
    (finalSigmasAfter before text).length = (finalSigmasAfter before' text').length := by
  induction h generalizing before before' with
  | nil => rfl
  | @cons c d rest rest' hhead htail ih =>
    rw [finalSigmasAfter, finalSigmasAfter, endsWord_congr hbefore (nextIsCased_eq htail),
      List.length_append, List.length_append, hhead.length_finalAt,
      ih (hhead.nextIsCased_cons hbefore)]

/-- Texts with the same lower case have the same sigmas at the ends of words if those of one are all
small ones. -/
theorem finalSigmasAfter_eq (h : Alike text text')
    (hbefore : nextIsCased before = nextIsCased before')
    (hsettle : settle before text = settle before' text')
    (hsigma : ∀ x ∈ finalSigmasAfter before text, x = 'σ') :
    finalSigmasAfter before text = finalSigmasAfter before' text' := by
  induction h generalizing before before' with
  | nil => rfl
  | @cons c d rest rest' hhead htail ih =>
    obtain ⟨hform, hforms⟩ := List.cons.inj hsettle
    rw [← endsWord_congr hbefore (nextIsCased_eq htail)] at hform
    obtain ⟨hsigma, hsigmas⟩ := List.forall_mem_append.mp hsigma
    rw [finalSigmasAfter_cons_iff hhead htail hbefore]
    exact ⟨hhead.finalAt_eq hform hsigma, ih (hhead.nextIsCased_cons hbefore) hforms hsigmas⟩

end Alike

/-! ### Texts -/

variable {a b : String}

theorem toList_lowercase (text : String) :
    (lowercase text).toList = settle [] (text.toList.flatMap lowerButSigma) := by
  rw [lowercase, String.toList_ofList, lowercaseAfter_eq_settle _ rfl]

theorem finalSigmas_eq (text : String) :
    finalSigmas text = finalSigmasAfter [] (text.toList.flatMap lowerButSigma) :=
  finalSigmasAfter_flatMap _ rfl

theorem alike_of_fold_eq (h : fold a = fold b) :
    Alike (a.toList.flatMap lowerButSigma) (b.toList.flatMap lowerButSigma) := by
  rw [fold_eq_map, fold_eq_map] at h
  exact alike_of_map_innerForm_eq h

theorem alike_of_lowercase_eq (h : lowercase a = lowercase b) :
    Alike (a.toList.flatMap lowerButSigma) (b.toList.flatMap lowerButSigma) := by
  rw [← String.toList_inj, toList_lowercase, toList_lowercase] at h
  exact alike_of_settle_eq h

/-- Texts with the same fold have the same lower case exactly if their words end in the same
sigmas. -/
theorem lowercase_eq_iff (h : fold a = fold b) :
    lowercase a = lowercase b ↔ finalSigmas a = finalSigmas b := by
  have halike := alike_of_fold_eq h
  rw [fold_eq_map, fold_eq_map] at h
  rw [← String.toList_inj, toList_lowercase, toList_lowercase, finalSigmas_eq, finalSigmas_eq]
  exact halike.settle_eq_iff rfl h

/-- Texts with the same lower case have the same fold exactly if their words end in the same
sigmas. -/
theorem fold_eq_iff (h : lowercase a = lowercase b) :
    fold a = fold b ↔ finalSigmas a = finalSigmas b := by
  have halike := alike_of_lowercase_eq h
  rw [← String.toList_inj, toList_lowercase, toList_lowercase] at h
  rw [fold_eq_map, fold_eq_map, finalSigmas_eq, finalSigmas_eq]
  exact halike.map_innerForm_eq_iff rfl h

/-- If no word of a text ends in a sigma, the same holds for the texts that agree with it in one of
the lower cases. -/
theorem finalSigmas_eq_nil (h : fold a = fold b ∨ lowercase a = lowercase b)
    (hnil : finalSigmas a = []) : finalSigmas b = [] := by
  have halike := h.elim alike_of_fold_eq alike_of_lowercase_eq
  have hlength : (finalSigmas a).length = (finalSigmas b).length := by
    rw [finalSigmas_eq, finalSigmas_eq]
    exact halike.length_finalSigmasAfter rfl
  rw [hnil] at hlength
  exact List.eq_nil_of_length_eq_zero hlength.symm

theorem fold_eq_of_lowercase_eq (h : lowercase a = lowercase b)
    (hsigma : ∀ x ∈ finalSigmas a, x = 'σ') : fold a = fold b := by
  have halike := alike_of_lowercase_eq h
  rw [fold_eq_iff h]
  rw [← String.toList_inj, toList_lowercase, toList_lowercase] at h
  rw [finalSigmas_eq] at hsigma
  rw [finalSigmas_eq, finalSigmas_eq]
  exact halike.finalSigmasAfter_eq rfl h hsigma

/-! ### Other sigmas at the ends of words -/

theorem isSigma_of_mem_finalAt {x : Char} (h : x ∈ finalAt ends c) :
    x = c ∧ IsSigma c ∧ ends = true := by
  rw [finalAt] at h
  split at h
  · rename_i hc
    exact ⟨List.mem_singleton.mp h, hc⟩
  · exact absurd h List.not_mem_nil

theorem isSigma_of_mem_finalSigmas {x : Char} (h : x ∈ finalSigmas a) : IsSigma x := by
  have hafter (text : List Char) : ∀ before, x ∈ finalSigmasAfter before text → IsSigma x := by
    induction text with
    | nil => exact fun _ h ↦ absurd h List.not_mem_nil
    | cons c rest ih =>
      intro before h
      rcases List.mem_append.mp h with h | h
      · obtain ⟨rfl, hsigma, -⟩ := isSigma_of_mem_finalAt h
        exact hsigma
      · exact ih _ h
  exact hafter _ _ h

theorem lowerChar_of_isSigma (h : IsSigma c) : lowerChar c = [innerForm c] := by
  obtain rfl | rfl | rfl := h <;> decide +kernel

theorem lowerButSigma_of_isSigma (h : IsSigma c) : lowerButSigma c = [c] := by
  have hlowers := lowers_lowerButSigma c
  generalize lowerButSigma c = image at hlowers
  cases hlowers with
  | same => rfl
  | letter hc => exact absurd h hc.2
  | dotted hc => exact absurd h hc.2

theorem lowercaseAfter_congr (text : List Char) (h : nextIsCased before = nextIsCased before') :
    lowercaseAfter before text = lowercaseAfter before' text := by
  rw [lowercaseAfter_eq_settle text h, lowercaseAfter_eq_settle text rfl]

/-- A sigma at the end of a word, replaced by any other, gives a text that has the same fold or the
same lower case exactly if the two sigmas have the same small form there. -/
theorem exists_respelledAfter {x y : Char} (hx : x ∈ finalSigmasAfter before text)
    (hy : IsSigma y) :
    ∃ text', nextIsCased text' = nextIsCased text ∧
      (text'.flatMap lowerChar = text.flatMap lowerChar ↔ innerForm y = innerForm x) ∧
      (lowercaseAfter before text' = lowercaseAfter before text ↔ finalForm y = finalForm x) := by
  induction text generalizing before with
  | nil => exact absurd hx List.not_mem_nil
  | cons c rest ih =>
    rcases List.mem_append.mp hx with hhead | htail
    · obtain ⟨rfl, hsigma, hends⟩ := isSigma_of_mem_finalAt hhead
      have hcased (rest : List Char) : nextIsCased (y :: rest) = nextIsCased (x :: rest) := by
        rw [hy.isLetter.nextIsCased_cons, hsigma.isLetter.nextIsCased_cons]
      refine ⟨y :: rest, hcased rest, ?_, ?_⟩
      · rw [List.flatMap_cons, List.flatMap_cons, lowerChar_of_isSigma hy,
          lowerChar_of_isSigma hsigma]
        simp
      · rw [lowercaseAfter_cons, lowercaseAfter_cons, lowercaseAfter_congr rest (hcased before),
          hends, lowerButSigma_of_isSigma hy, lowerButSigma_of_isSigma hsigma]
        simp [formAt]
    · obtain ⟨rest', hcased, hfold, hlowercase⟩ := ih htail
      refine ⟨c :: rest', nextIsCased_cons_congr hcased c, ?_, ?_⟩
      · rw [List.flatMap_cons, List.flatMap_cons, List.append_cancel_left_eq]
        exact hfold
      · rw [lowercaseAfter_cons, lowercaseAfter_cons, endsWord_congr rfl hcased,
          List.append_cancel_left_eq]
        exact hlowercase

theorem exists_respelled {x y : Char} (hx : x ∈ finalSigmas a) (hy : IsSigma y) :
    ∃ b, (fold a = fold b ↔ innerForm x = innerForm y) ∧
      (lowercase a = lowercase b ↔ finalForm x = finalForm y) := by
  obtain ⟨text', -, hfold, hlowercase⟩ := exists_respelledAfter hx hy
  refine ⟨String.ofList text', ?_, ?_⟩
  · rw [fold, fold, String.toList_ofList, eq_comm, hfold, eq_comm]
  · rw [lowercase, lowercase, String.toList_ofList, String.ofList_inj, eq_comm, hlowercase, eq_comm]

end Normative.Text
