import Mathlib.Data.List.Basic
import Normative.Proofs.Text.Case
import Normative.Proofs.Token.Spelling

/-!
# Letter case and the class of a word

The class of a word does not depend on letter case, but for one distinction that is made by it: a
word that no other rule claims is a name if it begins with a capital. All rules before that compare
the word with keywords by its fold, except for numbers, which are read digit by digit. Digits have
no case, and nothing else becomes a digit or a full stop in lower case. So two words with the same
fold are the same word if one of them is a number.

## Main definitions

* `Token.withText` : a token with another text in place of the one that it carries.

## Main results

* `Text.eq_of_fold_eq` : a text without letters is known by its fold.
* `Token.marker?_of_fold_eq` : markers are the same for all words with the same fold.
* `Token.classify_of_sameFold` : the class of a word, letter case apart.
-/

namespace Normative

namespace Text

/-! ### Texts that are known by their fold -/

theorem lowerChar_ne_nil (c : Char) : lowerChar c ≠ [] := by
  unfold lowerChar
  split <;> exact List.cons_ne_nil _ _

theorem lowerChar_of_isLow {c : Char} (h : IsLow c) : lowerChar c = [c] :=
  (recases_lowerChar c).resolve_right fun hnot ↦ hnot.1 h

theorem isLow_of_lowerChar {c : Char} (h : ∀ d ∈ lowerChar c, IsLow d) : IsLow c := by
  obtain hsame | ⟨-, hnone⟩ := recases_lowerChar c
  · exact h c (hsame ▸ List.mem_singleton_self c)
  · obtain ⟨d, hd⟩ := List.exists_mem_of_ne_nil _ (lowerChar_ne_nil c)
    exact absurd (h d hd) (hnone d hd)

variable {a b : String}

theorem fold_of_isLow (h : ∀ c ∈ a.toList, IsLow c) : fold a = a.toList := by
  calc fold a = a.toList.flatMap fun c ↦ [c] :=
        List.flatMap_congr fun c hc ↦ lowerChar_of_isLow (h c hc)
    _ = a.toList := List.flatMap_singleton' _

/-- A text of characters before the letters is the only one with its fold. -/
theorem eq_of_fold_eq (h : fold a = fold b) (ha : ∀ c ∈ a.toList, IsLow c) : a = b := by
  have hfold : fold b = a.toList := h.symm.trans (fold_of_isLow ha)
  have hb : ∀ c ∈ b.toList, IsLow c := fun c hc ↦
    isLow_of_lowerChar fun d hd ↦ ha d (hfold ▸ List.mem_flatMap.mpr ⟨c, hc, hd⟩)
  exact String.toList_inj.mp (hfold.symm.trans (fold_of_isLow hb))

end Text

theorem Deontic.ofKeyword?_of_fold_eq {a b : String} (h : Text.fold a = Text.fold b) :
    ofKeyword? a = ofKeyword? b := by
  rw [ofKeyword?, ofKeyword?]
  exact congrArg (List.find? · all) (funext fun d ↦ Text.sameFold_congr h d.keyword)

theorem Compliance.ofKeyword_of_fold_eq {a b : String} (h : Text.fold a = Text.fold b) :
    ofKeyword a = ofKeyword b := by
  rw [ofKeyword, Text.sameFold_congr h, ← ofKeyword]

namespace Token

variable {w w' : String}

/-! ### Numbers -/

theorem isLow_of_isDigit {c : Char} (h : c.isDigit = true) : Text.IsLow c :=
  Text.forall_isDigit (p := Text.IsLow) (by decide) h

theorem mem_dropFullStop {word : List Char} {c : Char} (h : c ∈ word) :
    c ∈ dropFullStop word ∨ c = '.' := by
  rw [dropFullStop]
  split
  · rename_i hstop
    obtain ⟨digits, rfl⟩ := List.getLast?_eq_some_iff.mp hstop
    rw [List.dropLast_concat]
    simpa using h
  · exact .inl h

/-- A number is written in digits, and perhaps a full stop. -/
theorem isLow_of_readNumber? {id : NormId} (h : readNumber? w = some id) :
    ∀ c ∈ w.toList, Text.IsLow c := by
  have hdigits : ∀ c ∈ dropFullStop w.toList, c.isDigit = true := by
    simp only [readNumber?, Option.ite_none_right_eq_some, Bool.and_eq_true, List.all_eq_true] at h
    exact h.1.1.2
  intro c hc
  obtain hc | rfl := mem_dropFullStop hc
  · exact isLow_of_isDigit (hdigits c hc)
  · decide

theorem readNumber?_of_fold_eq (h : Text.fold w = Text.fold w') :
    readNumber? w = readNumber? w' := by
  cases hw : readNumber? w with
  | some id => rw [← Text.eq_of_fold_eq h (isLow_of_readNumber? hw), hw]
  | none =>
    cases hw' : readNumber? w' with
    | none => rfl
    | some id =>
      rw [← Text.eq_of_fold_eq h.symm (isLow_of_readNumber? hw'), hw'] at hw
      exact hw.symm

/-! ### The class of a word -/

/-- A token with another text in place of the one that it carries; a token without a text stays as
it is. -/
def withText (text : String) : Token → Token
  | quoted _ => quoted text
  | institutionType _ => institutionType text
  | multiplicity _ => multiplicity text
  | legalDomain _ => legalDomain text
  | role _ => role text
  | name _ => name text
  | Token.word _ => Token.word text
  | token => token

theorem withText_of_text?_eq_none {token : Token} (h : token.text? = none) (text : String) :
    token.withText text = token := by
  cases token <;> first | rfl | exact absurd h (Option.some_ne_none _)

/-- Markers are the same for all words with the same fold. -/
theorem marker?_of_fold_eq (h : Text.fold w = Text.fold w') : marker? w = marker? w' := by
  simp only [marker?, Text.memFold_congr h, Text.sameFold_congr h, Text.startsFold_congr h,
    readNumber?_of_fold_eq h, Deontic.ofKeyword?_of_fold_eq h, Compliance.ofKeyword_of_fold_eq h]

theorem isNoise_of_fold_eq (h : Text.fold w = Text.fold w') : isNoise w = isNoise w' :=
  Text.memFold_congr h noiseWords

/-- How the tokens of two words may differ if the words differ in letter case: in the text that they
carry, and in that the one is a name and the other a plain word. -/
inductive CaseVariant (w w' : String) : Token → Token → Prop
  | same (token : Token) : CaseVariant w w' token (token.withText w')
  | nameWord : CaseVariant w w' (name w) (Token.word w')
  | wordName : CaseVariant w w' (Token.word w) (name w')

theorem CaseVariant.ite {c : Prop} [Decidable c] {token token' other other' : Token}
    (htoken : CaseVariant w w' token token') (hother : CaseVariant w w' other other') :
    CaseVariant w w' (if c then token else other) (if c then token' else other') := by
  split
  · exact htoken
  · exact hother

/-- Texts are of the same class if they have the same fold, unless the first letter decides. -/
theorem caseVariant_classifyText (h : Text.fold w = Text.fold w') :
    CaseVariant w w' (classifyText w) (classifyText w') := by
  unfold classifyText
  rw [Text.memFold_congr h institutionTypes, Text.memFold_congr h multiplicities,
    Text.memFold_congr h roleNouns]
  simp only [Text.startsFold_congr h]
  refine .ite (.same _) (.ite (.same _) (.ite (.same _) (.ite (.same _) ?_)))
  split <;> split
  · exact .same (name w)
  · exact .nameWord
  · exact .wordName
  · exact .same (Token.word w)

/-- The class of a word does not depend on letter case. Two words that differ in letter case only
are both noise or none is, and they are tokens of the same kind with the same number, deontic
position or outcome, except that one of them may be a name and the other a plain word. A token
carries no other text than the word itself. -/
theorem classify_of_sameFold (h : Text.sameFold w w' = true) :
    isNoise w = isNoise w' ∧ CaseVariant w w' (classify w) (classify w') ∧
      ∀ text, (classify w).text? = some text → text = w := by
  have hfold : Text.fold w = Text.fold w' := Text.sameFold_iff.mp h
  refine ⟨isNoise_of_fold_eq hfold, ?_, fun _ ↦ text?_classify⟩
  rw [classify, classify, ← marker?_of_fold_eq hfold]
  cases hmarker : marker? w with
  | some token =>
    have hsame : CaseVariant w w' token (token.withText w') := .same token
    rwa [withText_of_text?_eq_none (text?_marker token hmarker)] at hsame
  | none =>
    rw [Option.getD_none, Option.getD_none]
    exact caseVariant_classifyText hfold

/-- The Kelvin sign is a capital letter with the lower case `k`. -/
theorem classify_of_sameFold_kelvin :
    Text.sameFold "EL-\u212A" "el-k" = true ∧ isNoise "EL-\u212A" = isNoise "el-k" ∧
      CaseVariant "EL-\u212A" "el-k" (classify "EL-\u212A") (classify "el-k") ∧
      ∀ text, (classify "EL-\u212A").text? = some text → text = "EL-\u212A" := by
  have hsame : Text.sameFold "EL-\u212A" "el-k" = true := by decide +kernel
  exact ⟨hsame, classify_of_sameFold hsame⟩

-- The first letter decides between a name and a plain word.
example : classify "Ñu" = name "Ñu" ∧ classify "ñu" = Token.word "ñu" := by decide +kernel

end Token

end Normative
