import Normative.Text.Fold

/-!
# Occurrences of a text in another

## Main definitions

* `Text.occursIn` : whether a text is a contiguous part of another.
* `Text.replaceAll` : replacement of all occurrences, from left to right and without overlap.

## Main results

* `Text.occurs_iff` : the search finds a text exactly if it is a contiguous part.
-/

namespace Normative.Text

/-- Whether the characters of `part` stand in a row somewhere in a list of characters. -/
def occurs (part : List Char) : List Char → Bool
  | [] => part.isEmpty
  | c :: rest => part.isPrefixOf (c :: rest) || occurs part rest

theorem occurs_iff {part whole : List Char} : occurs part whole = true ↔ part <:+: whole := by
  induction whole with
  | nil => simp [occurs]
  | cons c rest ih =>
    simp [occurs, ih, List.infix_cons_iff]

/-- Whether `part` occurs in `whole`, letter for letter. -/
def occursIn (part whole : String) : Bool := occurs part.toList whole.toList

/-- Whether `part` occurs in `whole`, letter case apart. -/
def occursInFold (part whole : String) : Bool := occursIn (lowercase part) (lowercase whole)

/-- Replace the occurrences of `part` by `new`. The counter tells how many characters of the
occurrence found last are still to be passed over. -/
def replaceFrom (part new : List Char) : Nat → List Char → List Char
  | _, [] => []
  | pending + 1, _ :: rest => replaceFrom part new pending rest
  | 0, c :: rest =>
    if part.isPrefixOf (c :: rest) then new ++ replaceFrom part new (part.length - 1) rest
    else c :: replaceFrom part new 0 rest

/-- Replace every occurrence of `part`, which is not empty, from left to right. Text that has been
put in is not searched again. -/
def replaceAll (part new text : String) : String :=
  String.ofList (replaceFrom part.toList new.toList 0 text.toList)

end Normative.Text
