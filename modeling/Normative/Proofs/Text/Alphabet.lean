/-!
# Texts over an alphabet

A text is over an alphabet if all of its characters belong to it. A line is a text over all
characters but the line break.

## Main definitions

* `Text.Over` : a text over an alphabet.
* `Text.IsLine` : a text without a line break.

## Main results

* `Text.Over.append`, `Text.Over.intercalate` : texts that are put together.
* `Text.isLine_append`, `Text.isLine_join`, `Text.isLine_intercalate` : when they are lines.
-/

namespace Normative.Text

/-- A text over an alphabet. -/
def Over (p : Char → Prop) (text : String) : Prop := ∀ c ∈ text.toList, p c

/-- A text without a line break. -/
abbrev IsLine (text : String) : Prop := Over (· ≠ '\n') text

variable {p : Char → Prop}

theorem Over.append {text text' : String} (h : Over p text) (h' : Over p text') :
    Over p (text ++ text') := by
  rw [Over, String.toList_append]
  exact List.forall_mem_append.mpr ⟨h, h'⟩

theorem Over.intercalate {separator : String} (hseparator : Over p separator)
    {words : List String} (h : ∀ word ∈ words, Over p word) :
    Over p (separator.intercalate words) := by
  induction words with
  | nil => simp [Over]
  | cons word words ih =>
    obtain ⟨hword, hwords⟩ := List.forall_mem_cons.mp h
    cases words with
    | nil => rwa [String.intercalate_singleton]
    | cons next words =>
      rw [String.intercalate_cons_cons]
      exact (hword.append hseparator).append (ih hwords)

theorem isLine_iff {text : String} : IsLine text ↔ '\n' ∉ text.toList :=
  ⟨fun h hmem ↦ h '\n' hmem rfl, fun h _ hc hnewline ↦ h (hnewline ▸ hc)⟩

instance : DecidablePred IsLine := fun text ↦
  decidable_of_iff (text.toList.contains '\n' = false) (by simp [isLine_iff])

theorem isLine_congr {text text' : String}
    (h : text'.toList.count '\n' = text.toList.count '\n') : IsLine text' ↔ IsLine text := by
  rw [isLine_iff, isLine_iff, ← List.count_eq_zero, ← List.count_eq_zero, h]

theorem isLine_append {text text' : String} :
    IsLine (text ++ text') ↔ IsLine text ∧ IsLine text' := by
  simp [isLine_iff]

theorem isLine_join {list : List String} :
    IsLine (String.join list) ↔ ∀ text ∈ list, IsLine text := by
  simp [isLine_iff]

theorem isLine_intercalate {separator : String} (hseparator : IsLine separator)
    {list : List String} : IsLine (separator.intercalate list) ↔ ∀ text ∈ list, IsLine text := by
  induction list with
  | nil => simp +decide
  | cons text list ih =>
    cases list with
    | nil => simp
    | cons next list => simp [isLine_append, hseparator, ih]

end Normative.Text
