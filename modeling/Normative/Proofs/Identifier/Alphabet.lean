import Normative.Proofs.Identifier.Ending
import Normative.Proofs.Text.Alphabet
import Normative.Proofs.Text.Case

/-!
# The characters of names and literals

A name that is derived from an action or from a description consists of ASCII letters, digits and
underscores, whatever the text from which it is derived. A literal keeps the other characters of its
text and has none of the characters that delimit statements.

## Main definitions

* `Identifier.IsNameChar` : the letters, the digits and the underscore.

## Main results

* `Identifier.over_actionText`, `Identifier.over_normAsset`, `Identifier.over_fact`,
  `Identifier.over_variableName` : the characters of derived names.
* `Identifier.over_literal` : the characters of a literal.
-/

namespace Normative.Identifier

open Text (Over IsLine)

/-- The characters of names: ASCII letters, digits and the underscore. -/
def IsNameChar (c : Char) : Prop := c.isAlphanum = true ∨ c = '_'

variable {p : Char → Prop}

theorem over_letterFirst {name lead : String} (hname : Over p name) (hlead : Over p lead) :
    Over p (letterFirst name lead) := by
  rcases letterFirst_cases name lead with h | h <;> rw [h]
  · exact hname
  · exact hlead.append hname

/-- A word whose letters, digits and underscores can be counted off. -/
theorem over_isNameChar (word : String)
    (h : word.toList.all (fun c ↦ c.isAlphanum || c == '_') = true) : Over IsNameChar word := by
  intro c hc
  simpa [IsNameChar] using List.all_eq_true.mp h c hc

theorem over_toString (n : Nat) : Over IsNameChar (toString n) := by
  intro c hc
  rw [Nat.toString_eq_repr, Nat.toList_repr] at hc
  have hdigit := Nat.isDigit_of_mem_toDigits (by decide) (by decide) hc
  exact .inl (by simp [Char.isAlphanum, hdigit])

/-! ### Letters in upper and lower case -/

/-- A property of all letters and digits, checked one by one. -/
theorem forall_isAlphanum {q : Char → Bool}
    (h : (List.range 128).all (fun n ↦ !(Char.ofNat n).isAlphanum || q (Char.ofNat n)) = true)
    {c : Char} (hc : c.isAlphanum = true) : q c = true := by
  have hlt : c.toNat < 128 := by
    have hbound (last : Char) (hlast : last.toNat < 128) (hle : c.val ≤ last.val) : c.toNat < 128 :=
      Nat.lt_of_le_of_lt (UInt32.le_iff_toNat_le.mp hle) hlast
    rcases Bool.or_eq_true_iff.mp hc with hletter | hdigit
    · rcases Bool.or_eq_true_iff.mp hletter with hupper | hlower
      · exact hbound 'Z' (by decide) (of_decide_eq_true hupper).2
      · exact hbound 'z' (by decide) (of_decide_eq_true (Bool.and_eq_true_iff.mp hlower).2)
    · exact hbound '9' (by decide) (of_decide_eq_true (Bool.and_eq_true_iff.mp hdigit).2)
  have hq := List.all_eq_true.mp h c.toNat (List.mem_range.mpr hlt)
  rw [Char.ofNat_toNat] at hq
  simpa [hc] using hq

theorem isAlphanum_toUpper {c : Char} (hc : c.isAlphanum = true) : c.toUpper.isAlphanum = true :=
  forall_isAlphanum (q := fun c ↦ c.toUpper.isAlphanum) (by decide +kernel) hc

theorem isAlphanum_toLower {c : Char} (hc : c.isAlphanum = true) : c.toLower.isAlphanum = true :=
  forall_isAlphanum (q := fun c ↦ c.toLower.isAlphanum) (by decide +kernel) hc

theorem isAlphanum_upperChar {c : Char} (hc : c.isAlphanum = true) :
    ∀ e ∈ Text.upperChar c, e.isAlphanum = true :=
  List.all_eq_true.mp
    (forall_isAlphanum (q := fun c ↦ (Text.upperChar c).all Char.isAlphanum) (by decide +kernel) hc)

/-! ### Derived names -/

theorem isNameChar_addActionChar {name : List Char} (h : ∀ c ∈ name, IsNameChar c) (c : Char) :
    ∀ e ∈ addActionChar name c, IsNameChar e := by
  unfold addActionChar
  split
  · exact h
  · split
    · rename_i hc
      exact List.forall_mem_cons.mpr ⟨.inl hc, h⟩
    · split
      · exact h
      · exact List.forall_mem_cons.mpr ⟨.inr rfl, h⟩

theorem over_actionBody (action : List Char) :
    Over IsNameChar (String.ofList (actionBody action)) := by
  have hfold (action : List Char) : ∀ name : List Char, (∀ c ∈ name, IsNameChar c) →
      ∀ e ∈ action.foldl addActionChar name, IsNameChar e := by
    induction action with
    | nil => exact fun _ h ↦ h
    | cons c action ih => exact fun name h ↦ ih _ (isNameChar_addActionChar h c)
  intro c hc
  rw [String.toList_ofList, actionBody, List.mem_reverse] at hc
  exact hfold action [] (by simp) c ((List.dropWhile_sublist _).mem hc)

theorem over_actionText (action : String) (position : Nat) :
    Over IsNameChar (actionText action position) :=
  over_letterFirst (((over_actionBody _).append (over_isNameChar _ (by decide))).append
    (over_toString position)) (over_isNameChar _ (by decide))

theorem over_assetStem (text : String) : Over IsNameChar (assetStem text) := by
  have hletters : ∀ c ∈ (Text.firstWord text.toList).filter Char.isAlphanum, c.isAlphanum = true :=
    fun c hc ↦ (List.mem_filter.mp hc).2
  unfold assetStem
  split
  · exact over_isNameChar _ (by decide)
  · refine over_letterFirst ?_ (over_isNameChar _ (by decide))
    rw [capitalize, String.toList_ofList]
    split
    · exact over_isNameChar _ (by decide)
    · rename_i c rest hword
      rw [hword] at hletters
      obtain ⟨hc, hrest⟩ := List.forall_mem_cons.mp hletters
      intro e he
      rw [String.toList_ofList, List.mem_append] at he
      exact .inl (he.elim (isAlphanum_upperChar hc e) (hrest e))

theorem over_normAsset (action : String) (position : Nat) :
    Over IsNameChar (normAsset action position) :=
  ((over_assetStem action).append (over_isNameChar _ (by decide))).append (over_toString position)

theorem over_fact (description : String) (position : Nat) :
    Over IsNameChar (fact description position) := by
  refine over_letterFirst ((Over.append ?_ (over_isNameChar _ (by decide))).append
    (over_toString position)) (over_isNameChar _ (by decide))
  intro c hc
  rw [String.toList_ofList, factBody] at hc
  obtain ⟨d, hd, rfl⟩ := List.mem_map.mp (List.mem_of_mem_take hc)
  obtain ⟨-, hkept⟩ := List.mem_filter.mp hd
  split
  · exact .inr rfl
  · rename_i hblank
    rw [Bool.not_eq_true] at hblank
    rw [hblank, Bool.or_false, Bool.or_eq_true, beq_iff_eq] at hkept
    rcases hkept with hletter | rfl
    · exact .inl (isAlphanum_toUpper hletter)
    · exact .inr (by decide)

theorem over_variableName (action : String) : Over IsNameChar (variableName action) := by
  have hword : ∀ c ∈ ((Text.firstWord action.toList).filter Char.isAlphanum).take variableLimit,
      c.isAlphanum = true := fun c hc ↦ (List.mem_filter.mp (List.mem_of_mem_take hc)).2
  unfold variableName
  split
  · exact over_isNameChar _ (by decide)
  · refine over_letterFirst ?_ (over_isNameChar _ (by decide))
    intro c hc
    rw [String.toList_ofList] at hc
    obtain ⟨d, hd, rfl⟩ := List.mem_map.mp hc
    exact .inl (isAlphanum_toLower (hword d hd))

theorem isLine_of_over {name : String} (h : Over IsNameChar name) : IsLine name := by
  have hnewline : ¬ IsNameChar '\n' := by simp [IsNameChar]
  exact Text.isLine_iff.mpr fun hmem ↦ hnewline (h _ hmem)

/-! ### Subjects and capitals -/

theorem isLine_subject {role : String} : IsLine (subject role) ↔ IsLine role :=
  Text.isLine_congr (Text.count_upper Text.isLow_newline role)

theorem isLine_capitalize {word : String} : IsLine (capitalize word) ↔ IsLine word :=
  Text.isLine_congr (count_capitalize Text.isLow_newline word)

/-! ### Literals -/

theorem over_literal {text : String} (h : Over p text) (hspace : p ' ') :
    Over (fun c ↦ p c ∧ isDelimiter c = false) (literal text) := by
  intro c hc
  rw [literal, String.toList_ofList, literalChars] at hc
  obtain ⟨d, hd, rfl⟩ := List.mem_map.mp hc
  obtain ⟨hd, hkept⟩ := List.mem_filter.mp hd
  split
  · exact ⟨hspace, by decide⟩
  · exact ⟨h d hd, by simpa using hkept⟩

theorem isLine_literal {text : String} : IsLine (literal text) ↔ IsLine text := by
  refine ⟨fun h ↦ Text.isLine_iff.mpr fun hmem ↦ ?_,
    fun h c hc ↦ (over_literal h (by decide) c hc).1⟩
  -- A line break is neither left out of a literal nor replaced.
  have hkept : '\n' ∈ (literal text).toList := by
    rw [literal, String.toList_ofList, literalChars]
    exact List.mem_map.mpr ⟨'\n', List.mem_filter.mpr ⟨hmem, by decide⟩, by decide⟩
  exact Text.isLine_iff.mp h hkept

end Normative.Identifier
