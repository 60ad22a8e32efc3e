/-!
# Spans of code points

A character property, or a character mapping, is given as a table of spans of code points. The
spans of a table stand in increasing order and do not overlap, so a search may stop as soon as a
span begins beyond the code point that is sought. Letters that alternate between the two cases are
written as one span of stride two.

## Main definitions

* `Text.Span` : the code points `first`, `first + stride`, … up to `last`.
* `Text.Span.find?` : the value that a table gives to a code point.
* `Text.Span.holds` : membership of a code point in a property table.
-/

namespace Normative.Text

/-- The code points `first`, `first + stride`, `first + 2 * stride`, … that do not exceed `last`. -/
structure Span where
  first : Nat
  last : Nat
  stride : Nat
  deriving DecidableEq

namespace Span

/-- Whether the span holds a code point. -/
def contains (s : Span) (n : Nat) : Bool :=
  s.first ≤ n && n ≤ s.last && (n - s.first) % s.stride == 0

/-- The value attached to the span that holds `n`, in a table of increasing spans. -/
def find? {α : Type} : List (Span × α) → Nat → Option α
  | [], _ => none
  | (s, a) :: table, n =>
    if n < s.first then none else if s.contains n then some a else find? table n

/-- Whether one of the increasing spans holds `n`. -/
def holds : List Span → Nat → Bool
  | [], _ => false
  | s :: table, n => if n < s.first then false else s.contains n || holds table n

end Span

end Normative.Text
