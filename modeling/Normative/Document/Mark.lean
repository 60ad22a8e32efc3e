import Normative.Document.Value

/-!
# Marks of a document

A document is a sequence of marks: brackets, commas, colons, and the simple values. Between marks
there may be spaces, tabs and line ends, and nothing else. Numbers and strings are strict: a number
has no superfluous zero in front and no empty part, and a string holds no control character.

## Main definitions

* `Document.Mark` : the marks.
* `Document.scanNumeral`, `Document.scanString` : the marks that are longer than a word.
* `Document.marks` : the marks of a text, if it consists of marks.
-/

namespace Normative.Document

/-- A mark of a document. -/
inductive Mark where
  | openArray
  | closeArray
  | openObject
  | closeObject
  | comma
  | colon
  | null
  | bool (value : Bool)
  | number (numeral : Numeral)
  | string (text : Spelled)
  deriving DecidableEq

/-- What is read from the front of a text, with the text that remains. -/
abbrev Scanned (α : Type) := Option (α × List Char)

/-! ### Numbers -/

/-- Read one or more digits. -/
def scanDigits (text : List Char) : Scanned (List Char) :=
  match text.takeWhile Char.isDigit with
  | [] => none
  | digits => some (digits, text.dropWhile Char.isDigit)

/-- Whether digits are the whole part of a number: no zero stands in front of another digit. -/
def isWhole (digits : List Char) : Bool := digits.head? != some '0' || digits.length == 1

/-- Read a sign, if there is one. -/
def scanMinus : List Char → Bool × List Char
  | '-' :: rest => (true, rest)
  | text => (false, text)

/-- Read the fraction of a number, if a point announces one. -/
def scanFraction : List Char → Scanned (Option (List Char))
  | '.' :: rest => (scanDigits rest).map (fun r ↦ (some r.1, r.2))
  | text => some (none, text)

/-- Read the digits of an exponent with the sign in front of them. -/
def scanSigned : List Char → Scanned (List Char)
  | '+' :: rest => (scanDigits rest).map (fun r ↦ ('+' :: r.1, r.2))
  | '-' :: rest => (scanDigits rest).map (fun r ↦ ('-' :: r.1, r.2))
  | text => scanDigits text

/-- Read the exponent of a number, if a letter announces one. -/
def scanExponent : List Char → Scanned (Option (List Char))
  | 'e' :: rest | 'E' :: rest => (scanSigned rest).map (fun r ↦ (some r.1, r.2))
  | text => some (none, text)

/-- Read a number. -/
def scanNumeral (text : List Char) : Option (Numeral × List Char) := do
  let (isNegative, text) := scanMinus text
  let (whole, text) ← scanDigits text
  if isWhole whole then
    let (fraction, text) ← scanFraction text
    let (exponent, text) ← scanExponent text
    return (⟨isNegative, whole, fraction, exponent⟩, text)
  else none

/-! ### Strings -/

/-- The value of a hexadecimal digit. -/
def hexDigit? (c : Char) : Option Nat :=
  if c.isDigit then some (c.toNat - '0'.toNat)
  else if 'a' ≤ c ∧ c ≤ 'f' then some (c.toNat - 'a'.toNat + 10)
  else if 'A' ≤ c ∧ c ≤ 'F' then some (c.toNat - 'A'.toNat + 10)
  else none

/-- The value of four hexadecimal digits. -/
def hexValue? (a b c d : Char) : Option Nat := do
  return (← hexDigit? a) * 0x1000 + (← hexDigit? b) * 0x100 + (← hexDigit? c) * 0x10 +
    (← hexDigit? d)

/-- The character that a letter stands for after a backslash. -/
def escaped? : Char → Option Char
  | '"' => some '"'
  | '\\' => some '\\'
  | '/' => some '/'
  | 'b' => some '\x08'
  | 'f' => some '\x0c'
  | 'n' => some '\n'
  | 'r' => some '\r'
  | 't' => some '\t'
  | _ => none

/-- Put a code in front of the codes that have been read. -/
def prepend (code : Nat) (scanned : Scanned (List Nat)) : Scanned (List Nat) :=
  scanned.map (fun r ↦ (code :: r.1, r.2))

/-- Read a string after its opening quotation mark, as a list of codes: a character stands for its
code point, and an escape of four digits for the code that they write. -/
def scanCodes : List Char → Scanned (List Nat)
  | '"' :: rest => some ([], rest)
  | '\\' :: 'u' :: a :: b :: c :: d :: rest =>
    match hexValue? a b c d with
    | some code => prepend code (scanCodes rest)
    | none => none
  | '\\' :: c :: rest =>
    match escaped? c with
    | some e => prepend e.toNat (scanCodes rest)
    | none => none
  | c :: rest => if c.toNat < 0x20 || c = '\\' then none else prepend c.toNat (scanCodes rest)
  | [] => none

/-- Whether a code is the first half of a surrogate pair. -/
def isHighHalf (code : Nat) : Bool := 0xD800 ≤ code && code ≤ 0xDBFF

/-- Whether a code is the second half of a surrogate pair. -/
def isLowHalf (code : Nat) : Bool := 0xDC00 ≤ code && code ≤ 0xDFFF

/-- The character that a surrogate pair stands for. -/
def joinHalves (high low : Nat) : Char :=
  Char.ofNat (0x10000 + (high - 0xD800) * 0x400 + (low - 0xDC00))

/-- The characters that codes spell. Both halves of a surrogate pair must be there. -/
def spell : List Nat → Option (List Char)
  | [] => some []
  | code :: rest =>
    if isHighHalf code then
      match rest with
      | low :: rest => if isLowHalf low then (spell rest).map (joinHalves code low :: ·) else none
      | [] => none
    else if isLowHalf code then none
    else (spell rest).map (Char.ofNat code :: ·)

/-- Read a string after its opening quotation mark. -/
def scanString (text : List Char) : Scanned Spelled :=
  (scanCodes text).map (fun r ↦ ((spell r.1).map String.ofList, r.2))

/-! ### Marks -/

/-- The characters that may stand between marks. -/
def isSpace (c : Char) : Bool := c = ' ' || c = '\t' || c = '\n' || c = '\r'

/-- Read the mark that begins at the front of a text. -/
def scanMark : List Char → Scanned Mark
  | '[' :: rest => some (.openArray, rest)
  | ']' :: rest => some (.closeArray, rest)
  | '\x7b' :: rest => some (.openObject, rest)
  | '\x7d' :: rest => some (.closeObject, rest)
  | ',' :: rest => some (.comma, rest)
  | ':' :: rest => some (.colon, rest)
  | '"' :: rest => (scanString rest).map (fun r ↦ (.string r.1, r.2))
  | 'n' :: 'u' :: 'l' :: 'l' :: rest => some (.null, rest)
  | 't' :: 'r' :: 'u' :: 'e' :: rest => some (.bool true, rest)
  | 'f' :: 'a' :: 'l' :: 's' :: 'e' :: rest => some (.bool false, rest)
  | text => (scanNumeral text).map (fun r ↦ (.number r.1, r.2))

/-! ### Every mark takes a part of the text -/

/-- A scan whose result is changed takes off the same part of the text. -/
theorem map_scanned_eq_some {α β : Type} {scanned : Scanned α} {f : α → β} {b : β}
    {rest : List Char} :
    scanned.map (fun r ↦ (f r.1, r.2)) = some (b, rest) ↔
      ∃ a, scanned = some (a, rest) ∧ f a = b := by
  constructor
  · intro h
    obtain ⟨⟨a, rest'⟩, hscan, hpair⟩ := Option.map_eq_some_iff.mp h
    obtain ⟨rfl, rfl⟩ := Prod.mk.inj hpair
    exact ⟨a, hscan, rfl⟩
  · rintro ⟨a, rfl, rfl⟩
    rfl

theorem length_map_scanned {α β : Type} {scanned : Scanned α} {f : α → β} {b : β}
    {rest : List Char} {n : Nat}
    (hlt : ∀ a remaining, scanned = some (a, remaining) → remaining.length < n)
    (h : scanned.map (fun r ↦ (f r.1, r.2)) = some (b, rest)) : rest.length < n := by
  obtain ⟨a, hscan, -⟩ := map_scanned_eq_some.mp h
  exact hlt a rest hscan

theorem length_scanDigits {text digits rest : List Char}
    (h : scanDigits text = some (digits, rest)) : rest.length < text.length := by
  have happ := List.takeWhile_append_dropWhile (p := Char.isDigit) (l := text)
  unfold scanDigits at h
  split at h
  · simp at h
  · rename_i hne
    obtain ⟨-, rfl⟩ : _ ∧ text.dropWhile Char.isDigit = rest := by simpa using h
    have hpos : 0 < (text.takeWhile Char.isDigit).length := List.length_pos_iff.2 hne
    have := congrArg List.length happ
    simp only [List.length_append] at this
    omega

theorem length_scanMinus (text : List Char) : (scanMinus text).2.length ≤ text.length := by
  unfold scanMinus
  split <;> simp

theorem length_scanFraction {text rest : List Char} {fraction : Option (List Char)}
    (h : scanFraction text = some (fraction, rest)) : rest.length ≤ text.length := by
  unfold scanFraction at h
  split at h
  · exact Nat.le_succ_of_le (Nat.le_of_lt (length_map_scanned (fun _ _ ↦ length_scanDigits) h))
  · simp_all

theorem length_scanSigned {text digits rest : List Char}
    (h : scanSigned text = some (digits, rest)) : rest.length < text.length := by
  unfold scanSigned at h
  split at h
  · exact Nat.lt_succ_of_lt (length_map_scanned (f := ('+' :: ·)) (fun _ _ ↦ length_scanDigits) h)
  · exact Nat.lt_succ_of_lt (length_map_scanned (f := ('-' :: ·)) (fun _ _ ↦ length_scanDigits) h)
  · exact length_scanDigits h

theorem length_scanExponent {text rest : List Char} {exponent : Option (List Char)}
    (h : scanExponent text = some (exponent, rest)) : rest.length ≤ text.length := by
  unfold scanExponent at h
  split at h
  · exact Nat.le_succ_of_le (Nat.le_of_lt (length_map_scanned (fun _ _ ↦ length_scanSigned) h))
  · exact Nat.le_succ_of_le (Nat.le_of_lt (length_map_scanned (fun _ _ ↦ length_scanSigned) h))
  · simp_all

theorem length_scanNumeral {text rest : List Char} {numeral : Numeral}
    (h : scanNumeral text = some (numeral, rest)) : rest.length < text.length := by
  simp only [scanNumeral, Option.bind_eq_bind, Option.bind_eq_some_iff] at h
  obtain ⟨⟨whole, r₁⟩, h₁, h⟩ := h
  have := length_scanMinus text
  have := length_scanDigits h₁
  split at h
  · simp only [Option.bind_eq_some_iff] at h
    obtain ⟨⟨_, r₂⟩, h₂, ⟨_, r₃⟩, h₃, hend⟩ := h
    have := length_scanFraction h₂
    have := length_scanExponent h₃
    simp only [pure, Option.some.injEq, Prod.mk.injEq] at hend
    rw [← hend.2]
    dsimp only at *
    omega
  · simp at h

theorem length_scanCodes (text : List Char) :
    ∀ codes rest, scanCodes text = some (codes, rest) → rest.length < text.length := by
  fun_induction scanCodes text with
  | case1 rest => simp
  | case2 a b c d rest code _ ih =>
    intro codes remaining h
    have hlength := length_map_scanned (f := (code :: ·)) ih h
    simp only [List.length_cons]
    omega
  | case3 => simp
  | case4 c rest _ e _ ih =>
    intro codes remaining h
    have hlength := length_map_scanned (f := (e.toNat :: ·)) ih h
    simp only [List.length_cons]
    omega
  | case5 => simp
  | case6 => simp
  | case7 c rest _ _ _ _ ih =>
    intro codes remaining h
    exact Nat.lt_succ_of_lt (length_map_scanned (f := (c.toNat :: ·)) ih h)
  | case8 => simp

theorem length_scanString {text rest : List Char} {spelled : Spelled}
    (h : scanString text = some (spelled, rest)) : rest.length < text.length :=
  length_map_scanned (f := fun codes ↦ (spell codes).map String.ofList) (length_scanCodes text) h

theorem length_scanMark {text rest : List Char} {mark : Mark}
    (h : scanMark text = some (mark, rest)) : rest.length < text.length := by
  unfold scanMark at h
  split at h
  case h_7 => exact Nat.lt_succ_of_lt (length_map_scanned (fun _ _ ↦ length_scanString) h)
  case h_11 => exact length_map_scanned (fun _ _ ↦ length_scanNumeral) h
  all_goals
    simp only [Option.some.injEq, Prod.mk.injEq] at h
    simp only [← h.2, List.length_cons]
    omega

/-- The marks of a text after those that have been read, which are held in reverse. -/
def marksAfter (done : List Mark) (text : List Char) : Option (List Mark) :=
  match _hs : text.dropWhile isSpace with
  | [] => some done.reverse
  | c :: rest =>
    match _hm : scanMark (c :: rest) with
    | none => none
    | some (mark, remaining) => marksAfter (mark :: done) remaining
termination_by text.length
decreasing_by
  have := length_scanMark _hm
  have hle := (List.dropWhile_suffix isSpace (l := text)).length_le
  rw [_hs] at hle
  omega

/-- The marks of a text, if it consists of marks and spaces. -/
def marks (text : String) : Option (List Mark) := marksAfter [] text.toList

end Normative.Document
