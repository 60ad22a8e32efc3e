import Normative.Document.Mark

/-!
# How marks may be written

Most marks are written in one way only. A number may have its exponent behind a small or a capital
letter, and every character of a string may be written in several ways: as it is, unless it is a
control character, a quotation mark or a backslash; by a letter after a backslash, if there is one
for it; or by the hexadecimal digits of its code. A character whose code has more than four digits
needs two such codes, the halves of a surrogate pair. A string may also hold codes that stand for no
character.

This file states the spellings of a mark as a relation, and shows that a mark is read from each of
them, whatever comes after it. Only after a number the text must not go on with what would belong to
the number.

## Main definitions

* `Document.Piece`, `Document.Body` : the ways to write one code, and the codes of a string.
* `Document.StandFor` : the codes that stand for a text.
* `Document.Mark.IsSpelled` : the ways to write a mark.

## Main results

* `Document.scanString_of_isBody` : a string is read as the text for which its codes stand.
* `Document.scanMark_of_isSpelled` : a mark is read from each of its spellings.
-/

namespace Normative.Document

/-! ### Strings -/

/-- A hexadecimal digit, in either letter case, and its value. -/
def IsHexDigit (c : Char) (value : Nat) : Prop :=
  value < 16 ∧ (c = Nat.digitChar value ∨ c = (Nat.digitChar value).toUpper)

/-- The letters that may follow a backslash, with the characters for which they stand. -/
def shortEscapes : List (Char × Char) :=
  [('"', '"'), ('\\', '\\'), ('/', '/'), ('b', '\x08'), ('f', '\x0c'), ('n', '\n'), ('r', '\r'),
    ('t', '\t')]

/-- A piece of a string as it is written, and the code for which it stands. -/
inductive Piece : List Char → Nat → Prop
  | plain {c : Char} (hcontrol : 0x20 ≤ c.toNat) (hquote : c ≠ '"') (hbackslash : c ≠ '\\') :
      Piece [c] c.toNat
  | short {letter c : Char} (h : (letter, c) ∈ shortEscapes) : Piece ['\\', letter] c.toNat
  | hex {a b c d : Char} {i j k l : Nat} (ha : IsHexDigit a i) (hb : IsHexDigit b j)
      (hc : IsHexDigit c k) (hd : IsHexDigit d l) :
      Piece ['\\', 'u', a, b, c, d] (i * 0x1000 + j * 0x100 + k * 0x10 + l)

/-- What stands between the quotation marks of a string, and its codes. -/
inductive Body : List Char → List Nat → Prop
  | nil : Body [] []
  | cons {text rest : List Char} {code : Nat} {codes : List Nat} (piece : Piece text code)
      (others : Body rest codes) : Body (text ++ rest) (code :: codes)

/-- The first half of the surrogate pair for a code point beyond four hexadecimal digits. -/
def highHalf (point : Nat) : Nat := 0xD800 + (point - 0x10000) / 0x400

/-- The second half of this surrogate pair. -/
def lowHalf (point : Nat) : Nat := 0xDC00 + (point - 0x10000) % 0x400

/-- Codes that stand for a text: each character has its code point, or a surrogate pair. -/
inductive StandFor : List Nat → List Char → Prop
  | nil : StandFor [] []
  | point {codes : List Nat} {text : List Char} (c : Char) (others : StandFor codes text) :
      StandFor (c.toNat :: codes) (c :: text)
  | pair {codes : List Nat} {text : List Char} (c : Char) (hc : 0x10000 ≤ c.toNat)
      (others : StandFor codes text) :
      StandFor (highHalf c.toNat :: lowHalf c.toNat :: codes) (c :: text)

/-- What may stand between the quotation marks of a string that spells a text, or of one that spells
none. -/
def IsBody (body : List Char) : Spelled → Prop
  | some text => ∃ codes, Body body codes ∧ StandFor codes text.toList
  | none => ∃ codes, Body body codes ∧ ∀ text, ¬ StandFor codes text

theorem hexDigit?_eq_some {c : Char} {value : Nat} (h : IsHexDigit c value) :
    hexDigit? c = some value := by
  have hall : ∀ v < 16, hexDigit? (Nat.digitChar v) = some v ∧
      hexDigit? (Nat.digitChar v).toUpper = some v := by decide
  obtain ⟨hlt, rfl | rfl⟩ := h
  · exact (hall value hlt).1
  · exact (hall value hlt).2

theorem scanCodes_piece {text : List Char} {code : Nat} (h : Piece text code) (rest : List Char) :
    scanCodes (text ++ rest) = prepend code (scanCodes rest) := by
  cases h with
  | plain hcontrol hquote hbackslash => simp [scanCodes, hbackslash, Nat.not_lt.mpr hcontrol]
  | short h =>
    simp only [shortEscapes, List.mem_cons, Prod.mk.injEq, List.not_mem_nil, or_false] at h
    rcases h with ⟨rfl, rfl⟩ | ⟨rfl, rfl⟩ | ⟨rfl, rfl⟩ | ⟨rfl, rfl⟩ | ⟨rfl, rfl⟩ | ⟨rfl, rfl⟩ |
      ⟨rfl, rfl⟩ | ⟨rfl, rfl⟩ <;> simp [scanCodes, escaped?]
  | hex ha hb hc hd =>
    simp [scanCodes, hexValue?, hexDigit?_eq_some ha, hexDigit?_eq_some hb, hexDigit?_eq_some hc,
      hexDigit?_eq_some hd]

/-- The codes of a string are read up to the quotation mark that ends it. -/
theorem scanCodes_body {body : List Char} {codes : List Nat} (h : Body body codes)
    (rest : List Char) : scanCodes (body ++ '"' :: rest) = some (codes, rest) := by
  induction h with
  | nil => simp [scanCodes]
  | cons piece _ ih => rw [List.append_assoc, scanCodes_piece piece, ih, prepend, Option.map_some]

theorem toNat_valid (c : Char) : c.toNat < 0xD800 ∨ 0xDFFF < c.toNat ∧ c.toNat < 0x110000 :=
  c.valid

theorem toNat_ofNat {n : Nat} (h : n.isValidChar) : (Char.ofNat n).toNat = n :=
  congrArg Char.toNat (dif_pos h : Char.ofNat n = Char.ofNatAux n h)

theorem Piece.code_lt {text : List Char} {code : Nat} (h : Piece text code) : code < 0x110000 := by
  have hchar (c : Char) : c.toNat < 0x110000 := by
    have := toNat_valid c
    omega
  cases h with
  | plain | short => exact hchar _
  | hex ha hb hc hd =>
    have := ha.1
    have := hb.1
    have := hc.1
    have := hd.1
    omega

/-- Codes that stand for a text spell it. -/
theorem spell_of_standFor {codes : List Nat} {text : List Char} (h : StandFor codes text) :
    spell codes = some text := by
  induction h with
  | nil => rw [spell]
  | point c _ ih =>
    have hvalid := toNat_valid c
    have hhigh : ¬ isHighHalf c.toNat = true := by
      simp only [isHighHalf, Bool.and_eq_true, decide_eq_true_eq]
      omega
    have hlow : ¬ isLowHalf c.toNat = true := by
      simp only [isLowHalf, Bool.and_eq_true, decide_eq_true_eq]
      omega
    rw [spell.eq_def]
    simp [hhigh, hlow, ih]
  | pair c hc _ ih =>
    have hvalid := toNat_valid c
    have hhigh : isHighHalf (highHalf c.toNat) = true := by
      rw [isHighHalf, highHalf, Bool.and_eq_true, decide_eq_true_eq, decide_eq_true_eq]
      omega
    have hlow : isLowHalf (lowHalf c.toNat) = true := by
      rw [isLowHalf, lowHalf, Bool.and_eq_true, decide_eq_true_eq, decide_eq_true_eq]
      omega
    have hjoin : joinHalves (highHalf c.toNat) (lowHalf c.toNat) = c := by
      have hpoint : 0x10000 + (highHalf c.toNat - 0xD800) * 0x400 + (lowHalf c.toNat - 0xDC00) =
          c.toNat := by
        rw [highHalf, lowHalf]
        omega
      rw [joinHalves, hpoint, Char.ofNat_toNat]
    simp [spell, hhigh, hlow, ih, hjoin]

/-- Codes stand for the text that they spell. -/
theorem standFor_of_spell {codes : List Nat} (hcodes : ∀ code ∈ codes, code < 0x110000) :
    ∀ text, spell codes = some text → StandFor codes text := by
  fun_induction spell codes with
  | case1 =>
    rintro text ⟨⟩
    exact .nil
  | case2 high hhigh low rest hlow ih =>
    intro text h
    obtain ⟨rest', hrest, rfl⟩ := Option.map_eq_some_iff.mp h
    simp only [isHighHalf, isLowHalf, Bool.and_eq_true, decide_eq_true_eq] at hhigh hlow
    have hpoint : (joinHalves high low).toNat =
        0x10000 + (high - 0xD800) * 0x400 + (low - 0xDC00) := by
      rw [joinHalves, toNat_ofNat (.inr (by omega))]
    have hhalves : highHalf (joinHalves high low).toNat = high ∧
        lowHalf (joinHalves high low).toNat = low := by
      rw [hpoint, highHalf, lowHalf]
      omega
    have hothers := ih (fun code hcode ↦ hcodes code (by simp [hcode])) rest' hrest
    simpa only [hhalves] using StandFor.pair (joinHalves high low) (by omega) hothers
  | case3 => simp
  | case4 => simp
  | case5 => simp
  | case6 code rest hhigh hlow ih =>
    intro text h
    obtain ⟨rest', hrest, rfl⟩ := Option.map_eq_some_iff.mp h
    simp only [isHighHalf, isLowHalf, Bool.and_eq_true, decide_eq_true_eq, not_and] at hhigh hlow
    have hlt := hcodes code List.mem_cons_self
    have hpoint : (Char.ofNat code).toNat = code := by
      rw [toNat_ofNat (show code < 0xD800 ∨ 0xDFFF < code ∧ code < 0x110000 by omega)]
    have hothers := ih (fun code hcode ↦ hcodes code (List.mem_cons_of_mem _ hcode)) rest' hrest
    simpa only [hpoint] using hothers.point (Char.ofNat code)

theorem Body.code_lt {body : List Char} {codes : List Nat} (h : Body body codes) :
    ∀ code ∈ codes, code < 0x110000 := by
  induction h with
  | nil => simp
  | cons piece _ ih => exact List.forall_mem_cons.mpr ⟨piece.code_lt, ih⟩

/-- A string is read as the text that it spells. -/
theorem scanString_of_isBody {body : List Char} {spelled : Spelled} (h : IsBody body spelled)
    (rest : List Char) : scanString (body ++ '"' :: rest) = some (spelled, rest) := by
  cases spelled with
  | some text =>
    obtain ⟨codes, hbody, hcodes⟩ := h
    simp [scanString, scanCodes_body hbody, spell_of_standFor hcodes]
  | none =>
    obtain ⟨codes, hbody, hcodes⟩ := h
    have hspell : spell codes = none := by
      rw [Option.eq_none_iff_forall_ne_some]
      exact fun text htext ↦ hcodes text (standFor_of_spell hbody.code_lt text htext)
    simp [scanString, scanCodes_body hbody, hspell]

/-- A text without control characters, quotation marks and backslashes may be written as it is. -/
theorem isBody_self (text : String)
    (h : text.toList.all (fun c ↦ 0x20 ≤ c.toNat && c != '"' && c != '\\') = true) :
    IsBody text.toList (some text) := by
  have hchars (chars : List Char)
      (h : chars.all (fun c ↦ 0x20 ≤ c.toNat && c != '"' && c != '\\') = true) :
      Body chars (chars.map Char.toNat) ∧ StandFor (chars.map Char.toNat) chars := by
    induction chars with
    | nil => exact ⟨.nil, .nil⟩
    | cons c chars ih =>
      rw [List.all_cons, Bool.and_eq_true] at h
      obtain ⟨hc, hrest⟩ := h
      obtain ⟨⟨hcontrol, hquote⟩, hbackslash⟩ : (0x20 ≤ c.toNat ∧ c ≠ '"') ∧ c ≠ '\\' := by
        simpa using hc
      obtain ⟨hbody, hcodes⟩ := ih hrest
      exact ⟨.cons (.plain hcontrol hquote hbackslash) hbody, .point c hcodes⟩
  exact ⟨_, hchars text.toList h⟩

/-- Every character can be written. -/
theorem exists_piece (c : Char) : ∃ text, Piece text c.toNat := by
  by_cases hquote : c = '"'
  · subst hquote
    exact ⟨['\\', '"'], .short (by decide)⟩
  · by_cases hbackslash : c = '\\'
    · subst hbackslash
      exact ⟨['\\', '\\'], .short (by decide)⟩
    · by_cases hcontrol : 0x20 ≤ c.toNat
      · exact ⟨[c], .plain hcontrol hquote hbackslash⟩
      · have hdigit {value : Nat} (hlt : value < 16) : IsHexDigit (Nat.digitChar value) value :=
          ⟨hlt, .inl rfl⟩
        have hcode : c.toNat = 0 * 0x1000 + 0 * 0x100 + c.toNat / 16 * 0x10 + c.toNat % 16 := by
          omega
        have hzero : IsHexDigit (Nat.digitChar 0) 0 := hdigit (by omega)
        have hsixteens : c.toNat / 16 < 16 := by omega
        have hunits : c.toNat % 16 < 16 := by omega
        have hpiece := Piece.hex hzero hzero (hdigit hsixteens) (hdigit hunits)
        rw [← hcode] at hpiece
        exact ⟨_, hpiece⟩

/-- Every text can be written between quotation marks. -/
theorem exists_isBody (text : String) : ∃ body, IsBody body (some text) := by
  have hchars (chars : List Char) : ∃ body codes, Body body codes ∧ StandFor codes chars := by
    induction chars with
    | nil => exact ⟨[], [], .nil, .nil⟩
    | cons c chars ih =>
      obtain ⟨piece, hpiece⟩ := exists_piece c
      obtain ⟨body, codes, hbody, hcodes⟩ := ih
      exact ⟨piece ++ body, c.toNat :: codes, .cons hpiece hbody, .point c hcodes⟩
  obtain ⟨body, codes, h⟩ := hchars text.toList
  exact ⟨body, codes, h⟩

/-! ### Numbers -/

/-- One or more decimal digits. -/
def IsDigits (text : List Char) : Prop := text ≠ [] ∧ ∀ c ∈ text, c.isDigit = true

/-- The ways to write a fraction, or none. -/
def IsFraction (text : List Char) : Option (List Char) → Prop
  | none => text = []
  | some digits => text = '.' :: digits ∧ IsDigits digits

/-- The ways to write an exponent, or none. -/
def IsExponent (text : List Char) : Option (List Char) → Prop
  | none => text = []
  | some exponent => ∃ letter ∈ ['e', 'E'], ∃ sign ∈ [[], ['+'], ['-']], ∃ digits,
      IsDigits digits ∧ exponent = sign ++ digits ∧ text = letter :: exponent

/-- The ways to write a number. A zero in front of other digits is not one. -/
def Numeral.IsSpelled (numeral : Numeral) (text : List Char) : Prop :=
  ∃ sign fraction exponent, sign = (if numeral.isNegative then ['-'] else []) ∧
    IsDigits numeral.whole ∧ (numeral.whole.head? = some '0' → numeral.whole.length = 1) ∧
    IsFraction fraction numeral.fraction ∧ IsExponent exponent numeral.exponent ∧
    text = sign ++ numeral.whole ++ fraction ++ exponent

/-- A text that does not go on with a digit. -/
def EndsDigits (rest : List Char) : Prop := ∀ c ∈ rest.head?, c.isDigit = false

/-- Whether a character could belong to the number before it. -/
def continuesNumber (c : Char) : Bool := c.isDigit || c == '.' || c == 'e' || c == 'E'

/-- A text that does not go on with what could belong to a number. -/
def EndsNumber (rest : List Char) : Prop := ∀ c ∈ rest.head?, continuesNumber c = false

theorem EndsNumber.head_ne {rest : List Char} (h : EndsNumber rest) :
    ∀ c ∈ rest.head?, c.isDigit = false ∧ c ≠ '.' ∧ c ≠ 'e' ∧ c ≠ 'E' := by
  intro c hc
  simpa [continuesNumber, and_assoc] using h c hc

theorem EndsNumber.endsDigits {rest : List Char} (h : EndsNumber rest) : EndsDigits rest :=
  fun c hc ↦ (h.head_ne c hc).1

theorem IsDigits.exists_cons {text : List Char} (h : IsDigits text) :
    ∃ c rest, text = c :: rest ∧ c.isDigit = true := by
  obtain ⟨c, rest, rfl⟩ := List.exists_cons_of_ne_nil h.1
  exact ⟨c, rest, rfl, h.2 c List.mem_cons_self⟩

/-- A digit is none of the other characters of a document. -/
theorem ne_of_isDigit {c d : Char} (hc : c.isDigit = true) (hd : d.isDigit = false) : c ≠ d := by
  rintro rfl
  rw [hc] at hd
  exact Bool.noConfusion hd

theorem scanDigits_append {digits rest : List Char} (h : IsDigits digits)
    (hrest : EndsDigits rest) : scanDigits (digits ++ rest) = some (digits, rest) := by
  have hspan : rest.takeWhile Char.isDigit = [] ∧ rest.dropWhile Char.isDigit = rest := by
    cases rest with
    | nil => exact ⟨rfl, rfl⟩
    | cons c rest =>
      have hc : ¬ c.isDigit = true := by simpa using hrest c rfl
      exact ⟨List.takeWhile_cons_of_neg hc, List.dropWhile_cons_of_neg hc⟩
  have htake : (digits ++ rest).takeWhile Char.isDigit = digits := by
    rw [List.takeWhile_append_of_pos h.2, hspan.1, List.append_nil]
  have hdrop : (digits ++ rest).dropWhile Char.isDigit = rest := by
    rw [List.dropWhile_append_of_pos h.2, hspan.2]
  rw [scanDigits, htake, hdrop]
  split
  · exact absurd rfl h.1
  · rfl

theorem scanSigned_append {sign digits rest : List Char} (hsign : sign ∈ [[], ['+'], ['-']])
    (h : IsDigits digits) (hrest : EndsDigits rest) :
    scanSigned (sign ++ digits ++ rest) = some (sign ++ digits, rest) := by
  have hscan := scanDigits_append h hrest
  simp only [List.mem_cons, List.not_mem_nil, or_false] at hsign
  rcases hsign with rfl | rfl | rfl
  · obtain ⟨c, others, rfl, hc⟩ := h.exists_cons
    have hplus : c ≠ '+' := ne_of_isDigit hc (by decide)
    have hminus : c ≠ '-' := ne_of_isDigit hc (by decide)
    simpa [scanSigned, hplus, hminus] using hscan
  · simp [scanSigned, hscan]
  · simp [scanSigned, hscan]

theorem scanExponent_append {exponent rest : List Char} {part : Option (List Char)}
    (h : IsExponent exponent part) (hrest : EndsNumber rest) :
    scanExponent (exponent ++ rest) = some (part, rest) := by
  cases part with
  | none =>
    obtain rfl : exponent = [] := h
    cases rest with
    | nil => rfl
    | cons c rest =>
      obtain ⟨-, -, he, hE⟩ := hrest.head_ne c rfl
      simp [scanExponent, he, hE]
  | some part =>
    obtain ⟨letter, hletter, sign, hsign, digits, hdigits, rfl, rfl⟩ := h
    have hscan := scanSigned_append hsign hdigits hrest.endsDigits
    simp only [List.mem_cons, List.not_mem_nil, or_false] at hletter
    rw [List.cons_append]
    rcases hletter with rfl | rfl <;> simp only [scanExponent, hscan, Option.map_some]

/-- An exponent, or what comes after the number, ends the digits before it. -/
theorem IsExponent.endsDigits {exponent rest : List Char} {part : Option (List Char)}
    (h : IsExponent exponent part) (hrest : EndsNumber rest) :
    EndsDigits (exponent ++ rest) ∧ ∀ c ∈ (exponent ++ rest).head?, c ≠ '.' := by
  cases part with
  | none =>
    obtain rfl : exponent = [] := h
    exact ⟨hrest.endsDigits, fun c hc ↦ (hrest.head_ne c hc).2.1⟩
  | some part =>
    obtain ⟨letter, hletter, sign, hsign, digits, hdigits, rfl, rfl⟩ := h
    simp only [List.mem_cons, List.not_mem_nil, or_false] at hletter
    rcases hletter with rfl | rfl <;> simp [EndsDigits]

theorem scanFraction_append {fraction rest : List Char} {part : Option (List Char)}
    (h : IsFraction fraction part) (hrest : EndsDigits rest) (hpoint : ∀ c ∈ rest.head?, c ≠ '.') :
    scanFraction (fraction ++ rest) = some (part, rest) := by
  cases part with
  | none =>
    obtain rfl : fraction = [] := h
    cases rest with
    | nil => rfl
    | cons c rest => simp [scanFraction, hpoint c rfl]
  | some digits =>
    obtain ⟨rfl, hdigits⟩ := h
    simp [scanFraction, scanDigits_append hdigits hrest]

theorem IsFraction.endsDigits {fraction rest : List Char} {part : Option (List Char)}
    (h : IsFraction fraction part) (hrest : EndsDigits rest) : EndsDigits (fraction ++ rest) := by
  cases part with
  | none =>
    obtain rfl : fraction = [] := h
    exact hrest
  | some digits =>
    obtain ⟨rfl, -⟩ := h
    simp [EndsDigits]

theorem scanMinus_append {sign digits rest : List Char} {isNegative : Bool}
    (hsign : sign = if isNegative then ['-'] else []) (h : IsDigits digits) :
    scanMinus (sign ++ (digits ++ rest)) = (isNegative, digits ++ rest) := by
  obtain ⟨c, others, rfl, hc⟩ := h.exists_cons
  have hminus : c ≠ '-' := ne_of_isDigit hc (by decide)
  cases isNegative <;> simp_all [scanMinus]

/-- A number is read if the text does not go on with what could belong to it. -/
theorem scanNumeral_append {numeral : Numeral} {text rest : List Char}
    (h : numeral.IsSpelled text) (hrest : EndsNumber rest) :
    scanNumeral (text ++ rest) = some (numeral, rest) := by
  obtain ⟨sign, fraction, exponent, hsign, hwhole, hzero, hfraction, hexponent, rfl⟩ := h
  obtain ⟨hdigits, hpoint⟩ := hexponent.endsDigits hrest
  have hisWhole : isWhole numeral.whole = true := by
    rw [isWhole, Bool.or_eq_true, bne_iff_ne, beq_iff_eq]
    exact Decidable.not_or_of_imp hzero
  simp only [List.append_assoc, scanNumeral, scanMinus_append hsign hwhole,
    scanDigits_append hwhole (hfraction.endsDigits hdigits), hisWhole, if_true, Option.bind_eq_bind,
    Option.bind_some, scanFraction_append hfraction hdigits hpoint,
    scanExponent_append hexponent hrest, Option.pure_def]

/-! ### Marks -/

/-- The ways to write a mark. -/
def Mark.IsSpelled (text : List Char) : Mark → Prop
  | openArray => text = ['[']
  | closeArray => text = [']']
  | openObject => text = ['\x7b']
  | closeObject => text = ['\x7d']
  | comma => text = [',']
  | colon => text = [':']
  | null => text = "null".toList
  | bool true => text = "true".toList
  | bool false => text = "false".toList
  | number numeral => numeral.IsSpelled text
  | string spelled => ∃ body, text = '"' :: body ++ ['"'] ∧ IsBody body spelled

/-- Whether a mark is a number. -/
def Mark.isNumber : Mark → Bool
  | number _ => true
  | _ => false

theorem Numeral.IsSpelled.exists_cons {numeral : Numeral} {text : List Char}
    (h : numeral.IsSpelled text) : ∃ c rest, text = c :: rest ∧ (c = '-' ∨ c.isDigit = true) := by
  obtain ⟨sign, fraction, exponent, rfl, hwhole, -, -, -, rfl⟩ := h
  obtain ⟨c, others, hwhole, hc⟩ := hwhole.exists_cons
  rw [hwhole]
  cases numeral.isNegative
  · exact ⟨c, _, rfl, .inr hc⟩
  · exact ⟨'-', _, rfl, .inl rfl⟩

/-- A mark that begins with a digit or a sign is a number. -/
theorem scanMark_cons {c : Char} (h : c = '-' ∨ c.isDigit = true) (rest : List Char) :
    scanMark (c :: rest) = (scanNumeral (c :: rest)).map (fun r ↦ (.number r.1, r.2)) := by
  have hne {d : Char} (hd : (d == '-' || d.isDigit) = false) : c ≠ d := by
    rintro rfl
    simp_all
  unfold scanMark
  split
  case h_11 => rfl
  all_goals
    rename_i heq
    exact absurd (List.cons.inj heq).1 (hne (by decide))

/-- A mark is read from each of its spellings. After a number, the text must not go on with what
could belong to the number. -/
theorem scanMark_of_isSpelled {mark : Mark} {text rest : List Char} (h : mark.IsSpelled text)
    (hrest : mark.isNumber = true → EndsNumber rest) :
    scanMark (text ++ rest) = some (mark, rest) := by
  cases mark with
  | number numeral =>
    have hscan := scanNumeral_append h (hrest rfl)
    obtain ⟨c, others, rfl, hc⟩ := Numeral.IsSpelled.exists_cons h
    rw [List.cons_append] at hscan ⊢
    rw [scanMark_cons hc, hscan, Option.map_some]
  | string spelled =>
    obtain ⟨body, rfl, hbody⟩ := h
    have hscan := scanString_of_isBody hbody rest
    simp [scanMark, hscan]
  | bool value =>
    cases value
    · obtain rfl : text = "false".toList := h
      rfl
    · obtain rfl : text = "true".toList := h
      rfl
  | null =>
    obtain rfl : text = "null".toList := h
    rfl
  | _ =>
    cases h
    rfl

end Normative.Document
