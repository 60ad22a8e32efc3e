import Normative.Text.Span

/-!
# Words and numbers

Words are separated by the characters with the `White_Space` property. They include the no-break
spaces and the line and paragraph separators, and they do not include the zero-width space. A word
of decimal digits writes a number.

## Main definitions

* `Text.isBlank` : the characters between words.
* `Text.firstWord` : the first word of a text.
* `Text.digitsValue` : the number that decimal digits write.
-/

namespace Normative.Text

/-- The code points with the `White_Space` property. -/
def blankSpans : List Span :=
  [⟨0x09, 0x0D, 1⟩, ⟨0x20, 0x20, 1⟩, ⟨0x85, 0x85, 1⟩, ⟨0xA0, 0xA0, 1⟩, ⟨0x1680, 0x1680, 1⟩,
    ⟨0x2000, 0x200A, 1⟩, ⟨0x2028, 0x2029, 1⟩, ⟨0x202F, 0x202F, 1⟩, ⟨0x205F, 0x205F, 1⟩,
    ⟨0x3000, 0x3000, 1⟩]

/-- Whether a character has the `White_Space` property. -/
def isBlank (c : Char) : Bool := Span.holds blankSpans c.toNat

/-- The first word of a text: its first maximal run of characters that are not blank, and nothing
if every character is blank. -/
def firstWord (text : List Char) : List Char :=
  (text.dropWhile isBlank).takeWhile (fun c ↦ !isBlank c)

/-- The value of a list of decimal digits. -/
def digitsValue (digits : List Char) : Nat :=
  digits.foldl (fun n c ↦ 10 * n + (c.toNat - '0'.toNat)) 0

end Normative.Text
