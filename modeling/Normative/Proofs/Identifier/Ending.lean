import Normative.Identifier

/-!
# The end of a name

A name that is made from a free text ends in a fixed word, or in a fixed word and a number. The
number is the longest run of digits at the end of the name, and what stands before it is its front.
The last character of the front and the number are therefore known, whatever the text is.

## Main definitions

* `Identifier.front`, `Identifier.number?` : the two parts of a name.
* `Identifier.ending` : where the first part ends, and the second.

## Main results

* `Identifier.ending_append_toString`, `Identifier.ending_eq` : names with and without a number.
* `Identifier.ending_actionText` : the end of the name of an action.
* `Identifier.actionText_eq_iff` : when the name of an action is a word with a number.
-/

namespace Normative.Identifier

/-- The part of a name before the digits at its end. -/
def front (name : String) : String :=
  String.ofList (name.toList.reverse.dropWhile Char.isDigit).reverse

/-- The number at the end of a name, if there is one. -/
def number? (name : String) : Option Nat :=
  match name.toList.reverse.takeWhile Char.isDigit with
  | [] => none
  | digits => some (Nat.ofDigitChars 10 digits.reverse 0)

/-- The last character of a name before the digits at its end, and the number there. -/
def ending (name : String) : Option Char × Option Nat :=
  ((front name).toList.getLast?, number? name)

/-- A lead stands in front of a name, or it does not. -/
theorem letterFirst_cases (name lead : String) :
    letterFirst name lead = name ∨ letterFirst name lead = lead ++ name := by
  rw [letterFirst]
  split
  · split
    · exact .inr rfl
    · exact .inl rfl
  · exact .inl rfl

/-- A name without a lead begins with a character other than a digit. -/
theorem letterFirst_of_head {name lead : String} {c : Char} (hname : name.toList.head? = some c)
    (hc : c.isDigit = false) : letterFirst name lead = name := by
  obtain ⟨rest, hrest⟩ := List.head?_eq_some_iff.mp hname
  simp [letterFirst, hrest, hc]

theorem getLast?_underscore (text : String) : (text ++ "_").toList.getLast? = some '_' := by simp

section Parts

variable {name : String} {c : Char} (hname : name.toList.getLast? = some c)
include hname

theorem exists_reverse_eq_cons : ∃ rest, name.toList.reverse = c :: rest :=
  List.head?_eq_some_iff.mp (List.head?_reverse.trans hname)

variable (hc : c.isDigit = false)
include hc

/-- The digits after a name that does not end in a digit. -/
theorem reverse_append_toString (n : Nat) :
    (name ++ toString n).toList.reverse.takeWhile Char.isDigit = (Nat.toDigits 10 n).reverse ∧
      (name ++ toString n).toList.reverse.dropWhile Char.isDigit = name.toList.reverse := by
  obtain ⟨rest, hrest⟩ := exists_reverse_eq_cons hname
  have hdigits : ∀ d ∈ (Nat.toDigits 10 n).reverse, d.isDigit = true := fun d hd ↦
    Nat.isDigit_of_mem_toDigits (by decide) (by decide) (List.mem_reverse.mp hd)
  rw [String.toList_append, List.reverse_append, Nat.toString_eq_repr, Nat.toList_repr,
    List.takeWhile_append_of_pos hdigits, List.dropWhile_append_of_pos hdigits, hrest,
    List.takeWhile_cons_of_neg (by simp [hc]), List.dropWhile_cons_of_neg (by simp [hc]),
    List.append_nil]
  exact ⟨rfl, rfl⟩

theorem front_append_toString (n : Nat) : front (name ++ toString n) = name := by
  rw [front, (reverse_append_toString hname hc n).2, List.reverse_reverse, String.ofList_toList]

theorem number?_append_toString (n : Nat) : number? (name ++ toString n) = some n := by
  rw [number?, (reverse_append_toString hname hc n).1]
  split
  · rename_i hnil
    exact absurd (List.reverse_eq_nil_iff.mp hnil) Nat.toDigits_ne_nil
  · rw [List.reverse_reverse, Nat.ofDigitChars_ten_toDigits]

theorem ending_append_toString (n : Nat) : ending (name ++ toString n) = (some c, some n) := by
  rw [ending, front_append_toString hname hc, number?_append_toString hname hc, hname]

/-- A name that does not end in a digit has no number. -/
theorem ending_eq : ending name = (some c, none) := by
  obtain ⟨rest, hrest⟩ := exists_reverse_eq_cons hname
  rw [ending, front, number?, hrest, List.takeWhile_cons_of_neg (by simp [hc]),
    List.dropWhile_cons_of_neg (by simp [hc]), ← hrest, List.reverse_reverse,
    String.ofList_toList, hname]

end Parts

theorem number?_eq_of_ending {name : String} {c : Option Char} {n : Option Nat}
    (h : ending name = (c, n)) : number? name = n :=
  congrArg Prod.snd h

/-! ### Names of actions -/

/-- The name of an action ends in an underscore and the position. -/
theorem ending_actionText (action : String) (position : Nat) :
    ending (actionText action position) = (some '_', some position) := by
  rw [actionText]
  rcases letterFirst_cases _ "accion_" with h | h <;> rw [h]
  · exact ending_append_toString (getLast?_underscore _) rfl position
  · rw [← String.append_assoc, ← String.append_assoc]
    exact ending_append_toString (getLast?_underscore _) rfl position

/-- The name of an action is a word with a number exactly if the action is spelt like the word and
has the number for its position. The word may not begin like the lead of a name. -/
theorem actionText_eq_iff {word : String} {c : Char} (hword : word.toList.head? = some c)
    (hc : c.isDigit = false) (hlead : c ≠ 'a') {action : String} {position number : Nat} :
    actionText action position = word ++ "_" ++ toString number ↔
      String.ofList (actionBody action.toList) = word ∧ position = number := by
  have hhead : (word ++ "_" ++ toString number).toList.head? = some c := by
    rw [String.toList_append, String.toList_append, List.append_assoc, List.head?_append, hword]
    rfl
  rw [actionText]
  constructor
  · intro h
    rcases letterFirst_cases (String.ofList (actionBody action.toList) ++ "_" ++ toString position)
      "accion_" with hsame | hled
    · rw [hsame] at h
      have hnumber := congrArg number? h
      have hfront := congrArg front h
      rw [number?_append_toString (getLast?_underscore _) rfl,
        number?_append_toString (getLast?_underscore _) rfl] at hnumber
      rw [front_append_toString (getLast?_underscore _) rfl,
        front_append_toString (getLast?_underscore _) rfl] at hfront
      exact ⟨(String.append_left_inj _).mp hfront, Option.some.inj hnumber⟩
    · -- The lead begins with another letter than the word.
      rw [← h, hled, String.toList_append, List.head?_append] at hhead
      exact absurd (Option.some.inj hhead).symm hlead
  · rintro ⟨rfl, rfl⟩
    exact letterFirst_of_head hhead hc

end Normative.Identifier
