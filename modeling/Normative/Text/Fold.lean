import Normative.Text.Cased
import Normative.Text.Lower

/-!
# Comparison without regard to letter case

Two foldings are used. `fold` takes the lower case of every character by itself; keywords, roles
and keys are compared through it. `lowercase` is the lower case of a text as written: it differs
from `fold` only in the Greek capital sigma, which has a form of its own at the end of a word.

## Main definitions

* `Text.fold`, `Text.sameFold`, `Text.startsFold` : folding character by character.
* `Text.lowercase` : the lower case of a text, with final sigmas.
-/

namespace Normative.Text

/-- The lower cases of the characters of a text, one after the other. -/
def fold (text : String) : List Char := text.toList.flatMap lowerChar

/-- Whether two texts differ at most in letter case. -/
def sameFold (a b : String) : Bool := fold a == fold b

/-- Whether a text begins with `start`, letter case apart. -/
def startsFold (text start : String) : Bool := (fold start).isPrefixOf (fold text)

/-- Whether a text equals one of the listed texts, letter case apart. -/
def memFold (text : String) (list : List String) : Bool :=
  let folded := fold text
  list.any (fun entry ↦ folded == fold entry)

theorem sameFold_iff {a b : String} : sameFold a b = true ↔ fold a = fold b := beq_iff_eq

theorem memFold_iff {text : String} {list : List String} :
    memFold text list = true ↔ ∃ entry ∈ list, sameFold text entry = true := by
  simp [memFold, sameFold]

section

variable {a b : String}

theorem sameFold_congr (h : fold a = fold b) (entry : String) :
    sameFold a entry = sameFold b entry := by
  rw [sameFold, h, ← sameFold]

theorem startsFold_congr (h : fold a = fold b) (start : String) :
    startsFold a start = startsFold b start := by
  rw [startsFold, h, ← startsFold]

theorem memFold_congr (h : fold a = fold b) (list : List String) :
    memFold a list = memFold b list := by
  rw [memFold, h, ← memFold]

end

/-- Whether the nearest character that is not case-ignorable exists and is cased. -/
def nextIsCased (text : List Char) : Bool :=
  match text.dropWhile isCaseIgnorable with
  | [] => false
  | c :: _ => isCased c

/-- The lower case of a capital sigma between the text before it, read backwards, and the text
after it. The final form is taken when a cased character precedes it and none follows it in the
same word. -/
def lowerSigma (before after : List Char) : Char :=
  if nextIsCased before && !nextIsCased after then 'ς' else 'σ'

/-- The lower case of the remaining characters of a text, the characters before them being given
in reverse. -/
def lowercaseAfter (before : List Char) : List Char → List Char
  | [] => []
  | c :: rest =>
    (if c = 'Σ' then [lowerSigma before rest] else lowerChar c) ++ lowercaseAfter (c :: before) rest

/-- The lower case of a text. -/
def lowercase (text : String) : String := String.ofList (lowercaseAfter [] text.toList)

end Normative.Text
