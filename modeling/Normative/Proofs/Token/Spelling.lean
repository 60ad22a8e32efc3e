import Normative.Proofs.Token.Layout

/-!
# How tokens are spelt

Every token can be written as a piece of text: a marker by its keyword, a number in decimal, a
quoted text between quotation marks, and any other text as it is. Not every token is read back from
that piece, since a word is classified by the first rule that it matches and a noise word is
dropped. This file gives the tokens that are.

Keywords are a finite list, so for markers there is nothing to prove but an evaluation. A word with
a fixed beginning, such as the article of a role, needs an argument: if the beginning is not that
of any word that an earlier rule looks for, then no earlier rule can claim the word.

## Main definitions

* `Token.piece` : the piece of text that spells a token.
* `Token.IsSpelt` : a token that is read back from the piece that spells it.
* `Token.IsOpenStem` : a beginning that leaves the class of a word to the texts.

## Main results

* `Layout.tokens_write_piece` : the tokens of a text are the tokens that it was written from.
* `Token.isSpelt_marker`, `Token.isSpelt_quoted`, `Token.isSpelt_number`, `Token.isSpelt_role`,
  `Token.isSpelt_legalDomain` : the tokens that are spelt, by their classes.
-/

namespace Normative

/-! ### Beginnings of words -/

namespace Text

variable {word start entry : String}

theorem fold_append (a b : String) : fold (a ++ b) = fold a ++ fold b := by
  rw [fold, String.toList_append, List.flatMap_append, fold, fold]

theorem startsFold_iff : startsFold word start = true ↔ fold start <+: fold word :=
  List.isPrefixOf_iff_prefix

theorem startsFold_append (start rest : String) : startsFold (start ++ rest) start = true := by
  rw [startsFold_iff, fold_append]
  exact List.prefix_append _ _

/-- A word is not an entry that begins otherwise. -/
theorem sameFold_eq_false (hword : startsFold word start = true)
    (hentry : startsFold entry start = false) : sameFold word entry = false := by
  refine Bool.eq_false_iff.mpr fun hsame ↦ ?_
  have hfold : fold word = fold entry := eq_of_beq hsame
  rw [startsFold, hfold, ← startsFold, hentry] at hword
  exact Bool.false_ne_true hword

theorem memFold_eq_false {list : List String} (hword : startsFold word start = true)
    (hlist : ∀ entry ∈ list, startsFold entry start = false) : memFold word list = false := by
  refine Bool.eq_false_iff.mpr fun hmem ↦ ?_
  obtain ⟨entry, hentry, hsame⟩ := memFold_iff.mp hmem
  rw [sameFold_eq_false hword (hlist entry hentry)] at hsame
  exact Bool.false_ne_true hsame

/-- Two beginnings of a word are comparable. -/
theorem startsFold_eq_false (hword : startsFold word start = true)
    (hentry : startsFold entry start = false) (hstart : startsFold start entry = false) :
    startsFold word entry = false := by
  refine Bool.eq_false_iff.mpr fun hboth ↦ ?_
  rcases List.prefix_or_prefix_of_prefix (startsFold_iff.mp hword) (startsFold_iff.mp hboth) with
    h | h
  · rw [startsFold_iff.mpr h] at hentry
    exact Bool.false_ne_true hentry.symm
  · rw [startsFold_iff.mpr h] at hstart
    exact Bool.false_ne_true hstart.symm

theorem startsFold_of_sameFold (h : sameFold word entry = true) : startsFold word entry = true := by
  have hfold : fold word = fold entry := eq_of_beq h
  exact startsFold_iff.mpr (hfold ▸ List.prefix_refl _)

/-- What holds of the ten digits holds of every digit. -/
theorem forall_isDigit {p : Char → Prop} (h : ∀ n < 10, p (Char.ofNat (48 + n))) {c : Char}
    (hc : c.isDigit = true) : p c := by
  have hrange : 48 ≤ c.toNat ∧ c.toNat ≤ 57 := by
    simpa [Char.isDigit, UInt32.le_iff_toNat_le] using hc
  have hvalue : 48 + (c.toNat - 48) = c.toNat := by omega
  have hdigit := h (c.toNat - 48) (by omega)
  rwa [hvalue, Char.ofNat_toNat] at hdigit

/-- A digit is its own lower case. -/
theorem lowerChar_of_isDigit {c : Char} (hc : c.isDigit = true) : lowerChar c = [c] :=
  forall_isDigit (p := fun c ↦ lowerChar c = [c]) (by decide) hc

/-- A word that begins with a digit is not an entry of a list in which no entry does. -/
theorem memFold_eq_false_of_isDigit {c : Char} (hword : c ∈ word.toList.head?)
    (hc : c.isDigit = true) {list : List String}
    (hlist : ∀ entry ∈ list, (fold entry).head?.any Char.isDigit = false) :
    memFold word list = false := by
  obtain ⟨rest, hrest⟩ := List.head?_eq_some_iff.mp hword
  have hhead : (fold word).head? = some c := by
    rw [fold, hrest, List.flatMap_cons, lowerChar_of_isDigit hc]
    rfl
  refine Bool.eq_false_iff.mpr fun hmem ↦ ?_
  obtain ⟨entry, hentry, hsame⟩ := memFold_iff.mp hmem
  have hfold : fold word = fold entry := eq_of_beq hsame
  have hfalse := hlist entry hentry
  rw [← hfold, hhead, Option.any_some, hc] at hfalse
  exact Bool.false_ne_true hfalse.symm

end Text

namespace Token

open Text (sameFold startsFold memFold)

/-! ### The text that a token carries -/

/-- A marker carries no text. -/
theorem text?_marker {word : String} : ∀ token ∈ marker? word, token.text? = none := by
  -- One keyword after the other is taken off; there are too many to split them all at once.
  have hite {c : Prop} [Decidable c] {token : Token} {others : Option Token}
      (htoken : token.text? = none) (hothers : ∀ t ∈ others, t.text? = none) :
      ∀ t ∈ if c then some token else others, t.text? = none := by
    split
    · rintro _ ⟨⟩
      exact htoken
    · exact hothers
  unfold marker?
  refine hite rfl ?_
  cases readNumber? word with
  | some id => exact fun _ h ↦ Option.some.inj h ▸ rfl
  | none =>
    refine hite rfl ?_
    cases Deontic.ofKeyword? word with
    | some position => exact fun _ h ↦ Option.some.inj h ▸ rfl
    | none =>
      dsimp only
      repeat refine hite rfl ?_
      simp

theorem text?_classifyText (word : String) : (classifyText word).text? = some word := by
  unfold classifyText
  repeat' split
  all_goals rfl

/-- A token carries the word that was classified, or no text. -/
theorem text?_classify {word text : String} (h : (classify word).text? = some text) :
    text = word := by
  unfold classify at h
  cases hmarker : marker? word with
  | some token => simp [hmarker, text?_marker token hmarker] at h
  | none =>
    rw [hmarker, Option.getD_none, text?_classifyText] at h
    exact (Option.some.inj h).symm

/-- A word is never read as a quoted text. -/
theorem classify_ne_quoted (word text : String) : classify word ≠ quoted text := by
  intro h
  cases hmarker : marker? word with
  | some token =>
    have htoken : token = quoted text := by simpa [classify, hmarker] using h
    simpa [htoken, text?] using text?_marker token hmarker
  | none =>
    rw [classify, hmarker, Option.getD_none, classifyText] at h
    repeat' split at h
    all_goals exact Token.noConfusion h

section Stem

variable {word start : String}

/-! ### The class of a word that has a fixed beginning -/

/-- The words that the markers are compared with. -/
def markerWords : List String :=
  ["institution", "[institution]", "regla", "debe", "no-debe", "puede", "tiene-derecho-a",
    "en-caso-que", "y", "violación", "violacion", "entonces", "hecho", "hecho-juridico",
    "evidencia", "busca", "establezca", "cumplimiento", "incumplimiento", "adjudique",
    "lo-esencial", "esencial", "lo-siguiente", "siguiente", "actua"]

/-- A beginning that leaves the class of a word to the texts: no noise word, type or multiplicity
has it, and it is not comparable with any word of a marker. -/
def IsOpenStem (start : String) : Prop :=
  (∀ entry ∈ noiseWords ++ institutionTypes ++ multiplicities, startsFold entry start = false) ∧
    ∀ entry ∈ markerWords, startsFold entry start = false ∧ startsFold start entry = false

instance : DecidablePred IsOpenStem := fun start ↦ inferInstanceAs (Decidable
  ((∀ entry ∈ noiseWords ++ institutionTypes ++ multiplicities, startsFold entry start = false) ∧
    ∀ entry ∈ markerWords, startsFold entry start = false ∧ startsFold start entry = false))

theorem isOpenStem_el : IsOpenStem "el-" := by decide +kernel

theorem isOpenStem_derecho : IsOpenStem "derecho-" := by decide +kernel

/-- A word that begins with no digit writes no number. -/
theorem readNumber?_eq_none {c : Char} (hword : c ∈ word.toList.head?)
    (hc : c.isDigit = false) : readNumber? word = none := by
  obtain ⟨rest, hrest⟩ := List.head?_eq_some_iff.mp hword
  have hdigits : (dropFullStop word.toList).isEmpty = true ∨
      (dropFullStop word.toList).all Char.isDigit = false := by
    rw [hrest, dropFullStop]
    split
    · cases rest with
      | nil => exact .inl rfl
      | cons c' rest => exact .inr (by simp [hc])
    · exact .inr (by simp [hc])
  rcases hdigits with h | h <;> simp [readNumber?, h]

/-- A word that no marker's words begin is no marker, unless it writes a number. -/
theorem marker?_eq_none (hnumber : readNumber? word = none)
    (hword : ∀ entry ∈ markerWords, startsFold word entry = false) : marker? word = none := by
  have hsame : ∀ entry ∈ markerWords, sameFold word entry = false := fun entry hentry ↦
    Bool.eq_false_iff.mpr fun h ↦ by
      have hstarts := Text.startsFold_of_sameFold h
      rw [hword entry hentry] at hstarts
      exact Bool.false_ne_true hstarts
  have hmem {list : List String} (hlist : ∀ entry ∈ list, entry ∈ markerWords) :
      memFold word list = false := Bool.eq_false_iff.mpr fun h ↦ by
    obtain ⟨entry, hentry, h⟩ := Text.memFold_iff.mp h
    rw [hsame entry (hlist entry hentry)] at h
    exact Bool.false_ne_true h
  have hdeontic : Deontic.ofKeyword? word = none := by
    refine List.find?_eq_none.mpr fun position _ ↦ ?_
    cases position <;> rw [hsame _ (by decide)] <;> exact Bool.false_ne_true
  rw [marker?, hmem (by decide), hnumber, hdeontic, hmem (by decide)]
  simp only [markerWords, List.forall_mem_cons] at hsame hword
  simp [hsame, hword]

variable (hstart : IsOpenStem start) (hword : startsFold word start = true)
include hstart hword

theorem isNoise_eq_false : isNoise word = false :=
  Text.memFold_eq_false hword fun entry hentry ↦ hstart.1 entry (by simp [hentry])

theorem classify_eq_classifyText {c : Char} (hhead : c ∈ word.toList.head?)
    (hc : c.isDigit = false) : classify word = classifyText word := by
  have hmarker : marker? word = none := marker?_eq_none (readNumber?_eq_none hhead hc)
    fun entry hentry ↦ (hstart.2 entry hentry).elim (Text.startsFold_eq_false hword)
  rw [classify, hmarker, Option.getD_none]

theorem classifyText_eq :
    classifyText word =
      if startsFold word "derecho-" then legalDomain word
      else if startsFold word "el-" || startsFold word "la-" || memFold word roleNouns then
        role word
      else if word.toList.head?.any Text.isCapital then name word
      else Token.word word := by
  have htype : memFold word institutionTypes = false :=
    Text.memFold_eq_false hword fun entry hentry ↦ hstart.1 entry (by simp [hentry])
  have hmultiplicity : memFold word multiplicities = false :=
    Text.memFold_eq_false hword fun entry hentry ↦ hstart.1 entry (by simp [hentry])
  rw [classifyText, htype, hmultiplicity]
  rfl

end Stem

/-! ### Numbers -/

theorem toList_decimal (id : NormId) : id.decimal.toList = Nat.toDigits 10 id.toNat := by
  rw [NormId.decimal, Nat.toString_eq_repr, Nat.toList_repr]

theorem isDigit_of_mem_decimal {id : NormId} {c : Char} (hc : c ∈ id.decimal.toList) :
    c.isDigit = true := by
  rw [toList_decimal] at hc
  exact Nat.isDigit_of_mem_toDigits (by decide) (by decide) hc

theorem exists_head_decimal (id : NormId) : ∃ c, id.decimal.toList.head? = some c := by
  have hne : Nat.toDigits 10 id.toNat ≠ [] := Nat.toDigits_ne_nil
  obtain ⟨c, rest, hrest⟩ := List.exists_cons_of_ne_nil hne
  exact ⟨c, by rw [toList_decimal, hrest, List.head?_cons]⟩

/-- A number in decimal is read as itself. -/
theorem readNumber?_decimal (id : NormId) : readNumber? id.decimal = some id := by
  have hall : (Nat.toDigits 10 id.toNat).all Char.isDigit = true :=
    List.all_eq_true.mpr fun c hc ↦ isDigit_of_mem_decimal (by rwa [toList_decimal])
  have hstop : dropFullStop (Nat.toDigits 10 id.toNat) = Nat.toDigits 10 id.toNat := by
    refine if_neg fun hlast ↦ ?_
    have hdigit := List.all_eq_true.mp hall '.' (List.mem_of_getLast? hlast)
    exact absurd hdigit (by decide)
  have hvalue : Text.digitsValue (Nat.toDigits 10 id.toNat) = id.toNat := by
    rw [Text.digitsValue, ← Nat.ofDigitChars_eq_foldl, Nat.ofDigitChars_ten_toDigits]
  have hsize : id.toNat < UInt32.size := id.toNat_lt
  simp [readNumber?, toList_decimal, hstop, hvalue, hsize, hall]

/-- No noise word and no word for an institution begins with a digit. -/
theorem memFold_decimal {list : List String} (id : NormId)
    (hlist : ∀ entry ∈ list, (Text.fold entry).head?.any Char.isDigit = false) :
    memFold id.decimal list = false := by
  obtain ⟨c, hc⟩ := exists_head_decimal id
  exact Text.memFold_eq_false_of_isDigit hc (isDigit_of_mem_decimal (List.mem_of_head? hc)) hlist

theorem isNoise_decimal (id : NormId) : isNoise id.decimal = false :=
  memFold_decimal id (by decide +kernel)

theorem classify_decimal (id : NormId) : classify id.decimal = number id := by
  have hinstitution : memFold id.decimal ["institution", "[institution]"] = false :=
    memFold_decimal id (by decide +kernel)
  rw [classify, marker?, hinstitution, readNumber?_decimal]
  rfl

/-! ### Spelling -/

/-- The piece of text that spells a token. -/
def piece : Token → Piece
  | quoted text => .quoted text
  | number id => .word id.decimal
  | institution => .word "Institution"
  | normReference => .word "regla"
  | deontic position => .word position.keyword
  | conditional => .word "en-caso-que"
  | conjunction => .word "y"
  | violation => .word "violacion"
  | consequence => .word "entonces"
  | fact => .word "hecho"
  | evidence => .word "evidencia"
  | seek => .word "busca"
  | establish => .word "establezca"
  | compliance .fulfilled => .word "cumplimiento"
  | compliance .breached => .word "incumplimiento"
  | adjudicate => .word "adjudique"
  | essential => .word "lo-esencial"
  | following => .word "lo-siguiente"
  | scope => .word "actua-sobre"
  | institutionType text | multiplicity text | legalDomain text | role text | name text
  | Token.word text => .word text

/-- A token that is read back from the piece that spells it. -/
def IsSpelt (token : Token) : Prop := token.piece.IsReadable ∧ token.piece.token? = some token

instance : DecidablePred IsSpelt := fun token ↦
  inferInstanceAs (Decidable (token.piece.IsReadable ∧ token.piece.token? = some token))

/-- The tokens that stand for a keyword. -/
def markers : List Token :=
  [institution, normReference, deontic .obligation, deontic .prohibition, deontic .privilege,
    deontic .claimRight, conditional, conjunction, violation, consequence, fact, evidence, seek,
    establish, compliance .fulfilled, compliance .breached, adjudicate, essential, following,
    scope, multiplicity "múltiples", multiplicity "single", institutionType "contrato",
    institutionType "procedimiento", institutionType "acto-juridico", institutionType "acto"]

theorem isSpelt_marker : ∀ token ∈ markers, token.IsSpelt := by decide +kernel

theorem isSpelt_quoted {text : String} (h : IsQuotable text) : (quoted text).IsSpelt := ⟨h, rfl⟩

theorem isSpelt_number (id : NormId) : (number id).IsSpelt := by
  have hplain {c : Char} (hc : c ∈ id.decimal.toList) : isSeparator c = false ∧ c ≠ '"' :=
    Text.forall_isDigit (p := fun c ↦ isSeparator c = false ∧ c ≠ '"') (by decide)
      (isDigit_of_mem_decimal hc)
  obtain ⟨c, hc⟩ := exists_head_decimal id
  refine ⟨Piece.isReadable_word hc (hplain (List.mem_of_head? hc)).2 fun _ h ↦ (hplain h).1, ?_⟩
  rw [piece, Piece.token?, isNoise_decimal, classify_decimal]
  rfl

/-- A role with an article is spelt if the role has no separators. -/
theorem isSpelt_role {text : String} (h : IsUnbroken text) : (role ("el-" ++ text)).IsSpelt := by
  have hchars : ("el-" ++ text).toList = 'e' :: 'l' :: '-' :: text.toList := by
    rw [String.toList_append]
    rfl
  have hword := Text.startsFold_append "el-" text
  have hhead : 'e' ∈ ("el-" ++ text).toList.head? := by rw [hchars]; rfl
  have hdomain : startsFold ("el-" ++ text) "derecho-" = false :=
    Text.startsFold_eq_false hword (by decide +kernel) (by decide +kernel)
  refine ⟨Piece.isReadable_word hhead (by decide) ?_, ?_⟩
  · rw [IsUnbroken, hchars]
    simpa [IsUnbroken] using ⟨by decide, by decide, by decide, h⟩
  · rw [piece, Piece.token?, isNoise_eq_false isOpenStem_el hword,
      classify_eq_classifyText isOpenStem_el hword hhead (by decide),
      classifyText_eq isOpenStem_el hword, hdomain, hword]
    rfl

/-- A legal domain is spelt if it has no separators. -/
theorem isSpelt_legalDomain {text : String} (hstart : "derecho-".toList <+: text.toList)
    (h : IsUnbroken text) : (legalDomain text).IsSpelt := by
  obtain ⟨rest, hrest⟩ := hstart
  have htext : text = "derecho-" ++ String.ofList rest := by
    rw [← String.toList_inj, String.toList_append, String.toList_ofList (l := rest), hrest]
  have hword : startsFold text "derecho-" = true := htext ▸ Text.startsFold_append _ _
  have hhead : 'd' ∈ text.toList.head? := by rw [← hrest]; rfl
  refine ⟨Piece.isReadable_word hhead (by decide) h, ?_⟩
  rw [piece, Piece.token?, isNoise_eq_false isOpenStem_derecho hword,
    classify_eq_classifyText isOpenStem_derecho hword hhead (by decide),
    classifyText_eq isOpenStem_derecho hword, hword]
  rfl

/-- The pieces that spell tokens are read as those tokens. -/
theorem filterMap_token?_map_piece {ts : List Token} (hts : ∀ t ∈ ts, t.IsSpelt) :
    (ts.map piece).filterMap Piece.token? = ts := by
  induction ts with
  | nil => rfl
  | cons t ts ih =>
    rw [List.map_cons, List.filterMap_cons_some (hts t List.mem_cons_self).2,
      ih fun t' ht' ↦ hts t' (List.mem_cons_of_mem t ht')]

end Token

/-- The tokens of a text are the tokens that it was written from, if they are spelt. -/
theorem Layout.tokens_write_piece (layout : Layout) {ts : List Token}
    (hts : ∀ t ∈ ts, t.IsSpelt) : tokens (layout.write (ts.map Token.piece)) = ts := by
  have hreadable : ∀ p ∈ ts.map Token.piece, p.IsReadable := by
    intro p hp
    obtain ⟨t, ht, rfl⟩ := List.mem_map.mp hp
    exact (hts t ht).1
  rw [layout.tokens_write hreadable, Token.filterMap_token?_map_piece hts]

end Normative
