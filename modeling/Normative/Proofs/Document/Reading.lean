import Normative.Proofs.Document.Writing

/-!
# A text that is read writes its value

Every text that writes a value is read as that value. Here is the converse: a text that is read as a
value writes it. Each scan takes a spelling of its mark off the front of the text, and every mark
that the reader accepts is a mark of the value that it puts together.

## Main definitions

* `Document.Reader.read` : the marks that a reader has accepted, told from what it holds.

## Main results

* `Document.exists_isSpelled_of_scanMark` : what is taken off by the scan of a mark spells it.
* `Document.Reader.read_of_step` : a reader accounts for every mark that it accepts.
* `Document.read?_eq_some_iff` : a text is read as a value exactly if it writes the value.
-/

namespace Normative.Document

variable {text rest : List Char}

/-! ### Numbers -/

theorem isDigits_of_scanDigits {digits : List Char} (h : scanDigits text = some (digits, rest)) :
    text = digits ++ rest ∧ IsDigits digits := by
  unfold scanDigits at h
  split at h
  · exact absurd h (by simp)
  · rename_i hne
    obtain ⟨rfl, rfl⟩ := Prod.mk.inj (Option.some.inj h)
    exact ⟨List.takeWhile_append_dropWhile.symm, hne, List.all_eq_true.mp List.all_takeWhile⟩

theorem sign_append_scanMinus (text : List Char) :
    (if (scanMinus text).1 then ['-'] else []) ++ (scanMinus text).2 = text := by
  unfold scanMinus
  split <;> rfl

theorem exists_isFraction {part : Option (List Char)} (h : scanFraction text = some (part, rest)) :
    ∃ fraction, text = fraction ++ rest ∧ IsFraction fraction part := by
  unfold scanFraction at h
  split at h
  · obtain ⟨digits, hscan, rfl⟩ := map_scanned_eq_some.mp h
    obtain ⟨rfl, hdigits⟩ := isDigits_of_scanDigits hscan
    exact ⟨'.' :: digits, rfl, rfl, hdigits⟩
  · obtain ⟨rfl, rfl⟩ := Prod.mk.inj (Option.some.inj h)
    exact ⟨[], rfl, rfl⟩

theorem exists_sign {exponent : List Char} (h : scanSigned text = some (exponent, rest)) :
    ∃ sign ∈ [[], ['+'], ['-']], ∃ digits, IsDigits digits ∧ exponent = sign ++ digits ∧
      text = exponent ++ rest := by
  unfold scanSigned at h
  split at h
  · obtain ⟨digits, hscan, rfl⟩ := map_scanned_eq_some.mp h
    obtain ⟨rfl, hdigits⟩ := isDigits_of_scanDigits hscan
    exact ⟨['+'], by simp, digits, hdigits, rfl, rfl⟩
  · obtain ⟨digits, hscan, rfl⟩ := map_scanned_eq_some.mp h
    obtain ⟨rfl, hdigits⟩ := isDigits_of_scanDigits hscan
    exact ⟨['-'], by simp, digits, hdigits, rfl, rfl⟩
  · obtain ⟨rfl, hdigits⟩ := isDigits_of_scanDigits h
    exact ⟨[], by simp, exponent, hdigits, rfl, rfl⟩

theorem exists_isExponent {part : Option (List Char)} (h : scanExponent text = some (part, rest)) :
    ∃ exponent, text = exponent ++ rest ∧ IsExponent exponent part := by
  have hletter {letter : Char} {after : List Char} (hmem : letter ∈ ['e', 'E'])
      (h : (scanSigned after).map (fun r ↦ (some r.1, r.2)) = some (part, rest)) :
      ∃ exponent, letter :: after = exponent ++ rest ∧ IsExponent exponent part := by
    obtain ⟨exponent, hscan, rfl⟩ := map_scanned_eq_some.mp h
    obtain ⟨sign, hsign, digits, hdigits, hexponent, rfl⟩ := exists_sign hscan
    exact ⟨letter :: exponent, rfl, letter, hmem, sign, hsign, digits, hdigits, hexponent, rfl⟩
  unfold scanExponent at h
  split at h
  · exact hletter (by simp) h
  · exact hletter (by simp) h
  · obtain ⟨rfl, rfl⟩ := Prod.mk.inj (Option.some.inj h)
    exact ⟨[], rfl, rfl⟩

/-- What is taken off by the scan of a number spells it. -/
theorem exists_isSpelled_of_scanNumeral {numeral : Numeral}
    (h : scanNumeral text = some (numeral, rest)) :
    ∃ written, text = written ++ rest ∧ numeral.IsSpelled written := by
  simp only [scanNumeral, Option.bind_eq_bind, Option.bind_eq_some_iff] at h
  obtain ⟨⟨whole, after⟩, hwhole, h⟩ := h
  obtain ⟨hafter, hdigits⟩ := isDigits_of_scanDigits hwhole
  split at h
  · rename_i hisWhole
    simp only [Option.bind_eq_some_iff] at h
    obtain ⟨⟨part, after'⟩, hscan, ⟨part', after''⟩, hscan', hend⟩ := h
    obtain ⟨fraction, rfl, hfraction⟩ := exists_isFraction hscan
    obtain ⟨exponent, rfl, hexponent⟩ := exists_isExponent hscan'
    obtain ⟨rfl, rfl⟩ := Prod.mk.inj (Option.some.inj hend)
    refine ⟨_, ?_, _, fraction, exponent, rfl, hdigits, ?_, hfraction, hexponent, rfl⟩
    · calc text = (if (scanMinus text).1 then ['-'] else []) ++ (scanMinus text).2 :=
            (sign_append_scanMinus text).symm
        _ = _ := by rw [hafter]; simp only [List.append_assoc]
    · simpa [isWhole, Decidable.imp_iff_not_or] using hisWhole
  · exact absurd h (by simp)

/-! ### Strings -/

theorem isHexDigit_of_hexDigit? {c : Char} {value : Nat} (h : hexDigit? c = some value) :
    IsHexDigit c value := by
  -- The digits are ASCII characters, among which they can be looked up.
  have hall : ∀ n < 128, ∀ v ∈ hexDigit? (Char.ofNat n), v < 16 ∧
      (Char.ofNat n = Nat.digitChar v ∨ Char.ofNat n = (Nat.digitChar v).toUpper) := by
    decide +kernel
  have hascii : c.toNat < 128 := by
    have hle {d : Char} (hd : d.toNat < 128) (hc : c ≤ d) : c.toNat < 128 :=
      Nat.lt_of_le_of_lt (UInt32.le_iff_toNat_le.mp hc) hd
    unfold hexDigit? at h
    split at h
    · rename_i hdigit
      simp only [Char.isDigit, Bool.and_eq_true, decide_eq_true_eq] at hdigit
      exact hle (d := '9') (by decide) hdigit.2
    · split at h
      · rename_i hsmall
        exact hle (by decide) hsmall.2
      · split at h
        · rename_i hcapital
          exact hle (by decide) hcapital.2
        · exact absurd h (by simp)
  have hvalue := hall c.toNat hascii
  rw [Char.ofNat_toNat] at hvalue
  exact hvalue value h

theorem piece_of_escaped? {letter c : Char} (h : escaped? letter = some c) :
    Piece ['\\', letter] c.toNat := by
  refine .short ?_
  unfold escaped? at h
  split at h
  case h_9 => exact absurd h (by simp)
  all_goals
    obtain rfl := Option.some.inj h
    decide

theorem piece_of_hexValue? {a b c d : Char} {code : Nat} (h : hexValue? a b c d = some code) :
    Piece ['\\', 'u', a, b, c, d] code := by
  simp only [hexValue?, Option.bind_eq_bind, Option.bind_eq_some_iff, Option.pure_def] at h
  obtain ⟨i, hi, j, hj, k, hk, l, hl, hcode⟩ := h
  obtain rfl := Option.some.inj hcode
  exact .hex (isHexDigit_of_hexDigit? hi) (isHexDigit_of_hexDigit? hj) (isHexDigit_of_hexDigit? hk)
    (isHexDigit_of_hexDigit? hl)

/-- What is taken off by the scan of a string, up to its quotation mark, has the codes that are
read. -/
theorem exists_body_of_scanCodes (text : List Char) :
    ∀ codes rest, scanCodes text = some (codes, rest) →
      ∃ body, text = body ++ '"' :: rest ∧ Body body codes := by
  have hprepend {piece text : List Char} {code : Nat} (hpiece : Piece piece code)
      (htext : ∀ codes rest, scanCodes text = some (codes, rest) →
        ∃ body, text = body ++ '"' :: rest ∧ Body body codes) (codes : List Nat) (rest : List Char)
      (h : prepend code (scanCodes text) = some (codes, rest)) :
      ∃ body, piece ++ text = body ++ '"' :: rest ∧ Body body codes := by
    obtain ⟨others, hscan, rfl⟩ := map_scanned_eq_some.mp h
    obtain ⟨body, rfl, hbody⟩ := htext others rest hscan
    exact ⟨piece ++ body, (List.append_assoc _ _ _).symm, .cons hpiece hbody⟩
  fun_induction scanCodes text with
  | case1 rest =>
    intro codes remaining h
    obtain ⟨rfl, rfl⟩ := Prod.mk.inj (Option.some.inj h)
    exact ⟨[], rfl, .nil⟩
  | case2 a b c d rest code hvalue ih => exact hprepend (piece_of_hexValue? hvalue) ih
  | case4 c rest _ e he ih => exact hprepend (piece_of_escaped? he) ih
  | case7 c rest hquote _ _ hplain ih =>
    simp only [Bool.or_eq_true, decide_eq_true_eq, not_or] at hplain
    exact hprepend (.plain (Nat.le_of_not_lt hplain.1) hquote hplain.2) ih
  | case3 | case5 | case6 | case8 => simp

theorem exists_isBody_of_scanString {spelled : Spelled}
    (h : scanString text = some (spelled, rest)) :
    ∃ body, text = body ++ '"' :: rest ∧ IsBody body spelled := by
  obtain ⟨codes, hscan, rfl⟩ :=
    (map_scanned_eq_some (f := fun codes ↦ (spell codes).map String.ofList)).mp h
  obtain ⟨body, rfl, hbody⟩ := exists_body_of_scanCodes _ _ _ hscan
  refine ⟨body, rfl, ?_⟩
  cases hspell : spell codes with
  | some chars =>
    refine ⟨codes, hbody, ?_⟩
    rw [String.toList_ofList]
    exact standFor_of_spell hbody.code_lt chars hspell
  | none =>
    refine ⟨codes, hbody, fun chars hchars ↦ ?_⟩
    rw [spell_of_standFor hchars] at hspell
    exact absurd hspell (by simp)

/-! ### Marks -/

/-- What is taken off by the scan of a mark spells it. -/
theorem exists_isSpelled_of_scanMark {mark : Mark} (h : scanMark text = some (mark, rest)) :
    ∃ written, text = written ++ rest ∧ mark.IsSpelled written := by
  unfold scanMark at h
  split at h
  case h_7 =>
    obtain ⟨spelled, hscan, rfl⟩ := map_scanned_eq_some.mp h
    obtain ⟨body, rfl, hbody⟩ := exists_isBody_of_scanString hscan
    exact ⟨'"' :: body ++ ['"'], by simp, body, rfl, hbody⟩
  case h_11 =>
    obtain ⟨numeral, hscan, rfl⟩ := map_scanned_eq_some.mp h
    exact exists_isSpelled_of_scanNumeral hscan
  all_goals
    obtain ⟨rfl, rfl⟩ := Prod.mk.inj (Option.some.inj h)
    exact ⟨_, by rfl, rfl⟩

theorem isSpacing_takeWhile (text : List Char) : IsSpacing (text.takeWhile isSpace) := by
  intro c hc
  simpa [isSpace, or_assoc] using List.all_eq_true.mp List.all_takeWhile c hc

/-- The marks that are read from a text are spread over it. -/
theorem exists_spread_of_marksAfter (done : List Mark) (text : List Char) :
    ∀ marks, marksAfter done text = some marks →
      ∃ others, marks = done.reverse ++ others ∧ Spread others text := by
  fun_induction marksAfter done text with
  | case1 done text hs =>
    rintro _ ⟨⟩
    have htext : text.takeWhile isSpace = text := by
      conv_rhs => rw [← List.takeWhile_append_dropWhile (p := isSpace) (l := text), hs]
      rw [List.append_nil]
    exact ⟨[], (List.append_nil _).symm, .nil (htext ▸ isSpacing_takeWhile text)⟩
  | case2 done text c rest hs hm => simp
  | case3 done text c rest hs mark remaining hm ih =>
    intro marks h
    obtain ⟨others, rfl, hspread⟩ := ih marks h
    obtain ⟨written, hwritten, hmark⟩ := exists_isSpelled_of_scanMark hm
    refine ⟨mark :: others, by simp, ?_⟩
    have htext : text.takeWhile isSpace ++ written ++ remaining = text := by
      rw [List.append_assoc, ← hwritten, ← hs, List.takeWhile_append_dropWhile]
    exact htext ▸ .cons (isSpacing_takeWhile text) hmark hspread

theorem spread_of_marks {text : String} {ms : List Mark} (h : marks text = some ms) :
    Spread ms text.toList := by
  obtain ⟨others, rfl, hspread⟩ := exists_spread_of_marksAfter [] text.toList ms h
  exact hspread

/-! ### Values -/

/-- The marks that stand between the items or members read so far and the next one. -/
def comma? {α : Type} (before : List α) : List Mark := if before.isEmpty then [] else [.comma]

theorem itemMarks_concat (items : List Value) (v : Value) :
    itemMarks (items ++ [v]) = itemMarks items ++ comma? items ++ v.marks := by
  induction items with
  | nil => simp [itemMarks, comma?]
  | cons w items ih =>
    cases items with
    | nil => simp [itemMarks, comma?]
    | cons u items => simpa [itemMarks, comma?] using ih

theorem memberMarks_concat (members : List (Spelled × Value)) (key : Spelled) (v : Value) :
    memberMarks (members ++ [(key, v)]) =
      memberMarks members ++ comma? members ++ .string key :: .colon :: v.marks := by
  induction members with
  | nil => simp [memberMarks, comma?]
  | cons m members ih =>
    obtain ⟨key', w⟩ := m
    cases members with
    | nil => simp [memberMarks, comma?]
    | cons m' members => simpa [memberMarks, comma?] using ih

/-- The marks of an array or object that is open, up to the value that comes next. -/
def Frame.read : Frame → List Mark
  | array items => .openArray :: (itemMarks items.reverse ++ comma? items)
  | object members key =>
    .openObject :: (memberMarks members.reverse ++ comma? members ++ [.string key, .colon])

/-- The marks of all that is open; the stack holds the innermost first. -/
def stackRead (stack : List Frame) : List Mark := stack.reverse.flatMap Frame.read

/-- The marks that a reader has accepted. -/
def Reader.read : Reader → List Mark
  | value stack => stackRead stack
  | firstItem stack => stackRead stack ++ [.openArray]
  | firstKey stack => stackRead stack ++ [.openObject]
  | nextKey members stack =>
    stackRead stack ++ .openObject :: (memberMarks members.reverse ++ [.comma])
  | keyColon members key stack =>
    stackRead stack ++
      .openObject :: (memberMarks members.reverse ++ comma? members ++ [.string key])
  | afterItem items stack => stackRead stack ++ .openArray :: itemMarks items.reverse
  | afterMember members stack => stackRead stack ++ .openObject :: memberMarks members.reverse
  | done v => v.marks

/-- A reader that waits for a comma or for a further key has read an item or a member. -/
def Reader.Begun : Reader → Prop
  | nextKey members _ | afterMember members _ => members ≠ []
  | afterItem items _ => items ≠ []
  | _ => True

theorem Reader.read_place (v : Value) (stack : List Frame) :
    (place v stack).read = stackRead stack ++ v.marks := by
  cases stack with
  | nil => rfl
  | cons frame stack =>
    cases frame with
    | array items => simp [place, read, stackRead, Frame.read, itemMarks_concat, comma?]
    | object members key => simp [place, read, stackRead, Frame.read, memberMarks_concat, comma?]

theorem stackRead_cons (frame : Frame) (stack : List Frame) :
    stackRead (frame :: stack) = stackRead stack ++ frame.read := by
  simp [stackRead]

theorem Reader.begun_place (v : Value) (stack : List Frame) : (place v stack).Begun := by
  rcases stack with _ | ⟨_ | _, _⟩ <;> simp [place, Begun]

theorem Reader.read_of_beginValue {stack : List Frame} {mark : Mark} {reader : Reader}
    (h : beginValue stack mark = some reader) :
    reader.Begun ∧ reader.read = stackRead stack ++ [mark] := by
  cases mark with
  | openArray | openObject =>
    obtain rfl := Option.some.inj h
    exact ⟨trivial, rfl⟩
  | null | bool | number | string =>
    obtain rfl := Option.some.inj h
    exact ⟨begun_place _ _, by rw [read_place, Value.marks]⟩
  | closeArray | closeObject | comma | colon => exact absurd h (by simp [beginValue])

/-- A reader accounts for every mark that it accepts. -/
theorem Reader.read_of_step {reader reader' : Reader} {mark : Mark} (hbegun : reader.Begun)
    (h : reader.step mark = some reader') :
    reader'.Begun ∧ reader'.read = reader.read ++ [mark] := by
  unfold step at h
  split at h
  -- a value begins, possibly the first of an array
  case h_1 => exact read_of_beginValue h
  case h_3 =>
    have hread := read_of_beginValue h
    rw [stackRead_cons] at hread
    exact hread
  -- an array or an object ends
  case h_2 | h_4 | h_9 | h_11 =>
    obtain rfl := Option.some.inj h
    refine ⟨begun_place _ _, ?_⟩
    rw [read_place]
    simp [read, Value.marks, itemMarks, memberMarks]
  case h_12 => exact absurd h (by simp)
  -- a key, a colon or a comma
  all_goals
    obtain rfl := Option.some.inj h
    simp_all [read, Begun, stackRead_cons, Frame.read, memberMarks, comma?]

theorem Reader.read_of_foldlM {marks : List Mark} {reader reader' : Reader}
    (hbegun : reader.Begun) (h : marks.foldlM step reader = some reader') :
    reader'.read = reader.read ++ marks := by
  induction marks generalizing reader with
  | nil =>
    obtain rfl := Option.some.inj h
    exact (List.append_nil _).symm
  | cons mark marks ih =>
    rw [List.foldlM_cons] at h
    obtain ⟨next, hnext, h⟩ := Option.bind_eq_some_iff.mp h
    obtain ⟨hbegun, hread⟩ := read_of_step hbegun hnext
    rw [ih hbegun h, hread, List.append_assoc, List.singleton_append]

/-- The marks that are read as a value are its marks. -/
theorem eq_marks_of_ofMarks? {ms : List Mark} {v : Value} (h : ofMarks? ms = some v) :
    ms = v.marks := by
  obtain ⟨reader, hreader, hresult⟩ := Option.bind_eq_some_iff.mp h
  have hread := Reader.read_of_foldlM (by trivial : (Reader.value []).Begun) hreader
  cases reader with
  | done w =>
    obtain rfl := Option.some.inj hresult
    exact hread.symm
  | _ => exact absurd hresult (by simp [Reader.result?])

/-- A text is read as a value exactly if it writes the value. -/
theorem read?_eq_some_iff {text : String} {v : Value} :
    read? text = some v ↔ v.IsWrittenAs text := by
  refine ⟨fun h ↦ ?_, read?_of_isWrittenAs⟩
  obtain ⟨ms, hms, h⟩ := Option.bind_eq_some_iff.mp h
  rw [Value.IsWrittenAs, ← eq_marks_of_ofMarks? h]
  exact spread_of_marks hms

end Normative.Document
