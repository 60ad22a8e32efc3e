import Normative.Proofs.Identifier.Condensation

/-!
# Names that begin with a letter

A name of the language begins with a letter and consists of letters, digits and underscores. The
names that are derived from free text have no other characters, and a lead is put in front of those
that begin with a digit. The names of assets and of variables fall back to a fixed word if nothing
is left of a text, so they always begin with a letter. The names of actions and of facts do not fall
back: they begin with an underscore if nothing in front of the first one is a letter or a digit. For
an action this is so if it has neither letters nor digits at all, and for a fact if a blank, a
bracket or an underscore comes before them.

## Main definitions

* `Identifier.IsName` : the names of the language.
* `Identifier.leavesMark` : the characters of a description that have a place in the name of a fact.

## Main results

* `Identifier.isName_letterFirst_iff` : when a lead makes a name of the language.
* `Identifier.head?_factBody` : the first character of the part that comes from a description.
* `Identifier.derived_isName_iff` : which texts give names of the language.
-/

namespace Normative.Identifier

open Text (Over isBlank)

/-- The names of the language: a letter, and then letters, digits and underscores. -/
structure IsName (name : String) : Prop where
  head : ∃ c, name.toList.head? = some c ∧ c.isAlpha = true
  chars : Over IsNameChar name

/-- A word whose characters can be looked at one by one. -/
theorem isName_of_word (word : String) (hhead : word.toList.head?.any Char.isAlpha = true)
    (hover : word.toList.all (fun c ↦ c.isAlphanum || c == '_') = true) : IsName word :=
  ⟨by simpa [Option.any_eq_true] using hhead, over_isNameChar word hover⟩

theorem IsName.append {name text : String} (h : IsName name) (htext : Over IsNameChar text) :
    IsName (name ++ text) := by
  obtain ⟨⟨c, hc, hletter⟩, hover⟩ := h
  refine ⟨⟨c, ?_, hletter⟩, hover.append htext⟩
  rw [String.toList_append, List.head?_append, hc]
  rfl

theorem not_isName_of_underscore {name : String} (h : name.toList.head? = some '_') :
    ¬ IsName name := by
  rintro ⟨⟨c, hc, hletter⟩, -⟩
  obtain rfl := Option.some.inj (h.symm.trans hc)
  exact absurd hletter (by decide)

section LetterFirst

variable {name lead : String} {c : Char} (hover : Over IsNameChar (letterFirst name lead))
  (hlead : IsName lead) (hhead : name.toList.head? = some c)
include hover hlead hhead

/-- A lead makes a name of the language of what begins with a letter or a digit, and of nothing
else. -/
theorem isName_letterFirst_iff : IsName (letterFirst name lead) ↔ c.isAlphanum = true := by
  by_cases hdigit : c.isDigit = true
  · have hled : letterFirst name lead = lead ++ name := by
      obtain ⟨rest, hrest⟩ := List.head?_eq_some_iff.mp hhead
      simp [letterFirst, hrest, hdigit]
    obtain ⟨d, hd, hletter⟩ := hlead.head
    refine iff_of_true ⟨⟨d, ?_, hletter⟩, hover⟩ (by simp [Char.isAlphanum, hdigit])
    rw [hled, String.toList_append, List.head?_append, hd]
    rfl
  · have hsame : letterFirst name lead = name :=
      letterFirst_of_head hhead (Bool.not_eq_true _ ▸ hdigit)
    rw [hsame] at hover ⊢
    refine ⟨fun h ↦ ?_, fun hc ↦ ⟨⟨c, hhead, ?_⟩, hover⟩⟩
    · obtain ⟨d, hd, hletter⟩ := h.head
      obtain rfl := Option.some.inj (hhead.symm.trans hd)
      simp [Char.isAlphanum, hletter]
    · simpa [Char.isAlphanum, hdigit] using hc

theorem head?_letterFirst_of_not_isName (hnot : ¬ IsName (letterFirst name lead)) :
    (letterFirst name lead).toList.head? = some '_' := by
  have hc := (not_congr (isName_letterFirst_iff hover hlead hhead)).mp hnot
  have hdigit : c.isDigit = false := by simp_all [Char.isAlphanum]
  have hsame : letterFirst name lead = name := letterFirst_of_head hhead hdigit
  rw [hsame] at hover ⊢
  obtain rfl := (hover c (List.mem_of_mem_head? hhead)).resolve_left hc
  exact hhead

end LetterFirst

/-! ### Names with a position -/

theorem head?_numbered (body : List Char) (position : Nat) :
    (String.ofList body ++ "_" ++ toString position).toList.head? =
      some (body.head?.getD '_') := by
  cases body <;> simp

theorem isName_actionText_iff (action : String) (position : Nat) :
    IsName (actionText action position) ↔ ∃ c ∈ action.toList, c.isAlphanum = true := by
  rw [actionText, isName_letterFirst_iff (over_actionText action position)
    (isName_of_word _ (by decide) (by decide)) (head?_numbered _ position),
    actionBody_eq_condensed, head?_condensed]
  cases hfind : action.toList.find? Char.isAlphanum with
  | none => simpa using hfind
  | some c =>
    have hc := List.find?_some hfind
    exact iff_of_true hc ⟨c, List.mem_of_find?_eq_some hfind, hc⟩

/-- The characters of a description that have a place in the name of a fact. -/
def leavesMark (c : Char) : Bool := c.isAlphanum || isBlank c || isBracket c || c == '_'

/-- What such a character leaves: a letter or digit in upper case, or an underscore. -/
def factMark (c : Char) : Char := if c.isAlphanum then c.toUpper else '_'

theorem isAlphanum_factMark (c : Char) : (factMark c).isAlphanum = c.isAlphanum := by
  by_cases hc : c.isAlphanum = true
  · rw [factMark, if_pos hc, hc, isAlphanum_toUpper hc]
  · rw [factMark, if_neg hc, (Bool.not_eq_true _).mp hc]
    rfl

theorem isBlank_eq_false_of_isAlphanum {c : Char} (hc : c.isAlphanum = true) :
    isBlank c = false := by
  simpa using forall_isAlphanum (q := fun c ↦ !isBlank c) (by decide +kernel) hc

/-- Brackets are neither left out of a literal nor kept as they are. -/
theorem eq_false_of_isBracket {c : Char} (hc : isBracket c = true) :
    isDelimiter c = false ∧ c.isAlphanum = false := by
  simp only [isBracket, List.contains_eq_mem, decide_eq_true_eq, List.mem_cons, List.not_mem_nil,
    or_false] at hc
  rcases hc with rfl | rfl | rfl | rfl <;> decide

theorem leavesMark_of_isDelimiter {c : Char} (hc : isDelimiter c = true) :
    leavesMark c = false := by
  simp only [isDelimiter, List.contains_eq_mem, decide_eq_true_eq, List.mem_cons,
    List.not_mem_nil, or_false] at hc
  rcases hc with rfl | rfl | rfl | rfl | rfl | rfl | rfl | rfl <;> decide

/-- A character of a literal: a space for a bracket, and any other character as it is. -/
def literalChar (c : Char) : Char := if isBracket c then ' ' else c

theorem leavesMark_eq (c : Char) :
    (((literalChar c).isAlphanum || isBlank (literalChar c) || literalChar c == '_') &&
      !isDelimiter c) = leavesMark c := by
  by_cases hbracket : isBracket c = true
  · simp +decide [leavesMark, literalChar, hbracket, (eq_false_of_isBracket hbracket).1]
  · by_cases hdelimiter : isDelimiter c = true
    · simp [leavesMark_of_isDelimiter hdelimiter, hdelimiter]
    · simp [leavesMark, literalChar, hbracket, hdelimiter]

theorem factMark_eq {c : Char} (hc : leavesMark c = true) :
    (if isBlank (literalChar c) then '_' else (literalChar c).toUpper) = factMark c := by
  by_cases hbracket : isBracket c = true
  · simp +decide [literalChar, factMark, hbracket, (eq_false_of_isBracket hbracket).2]
  · have hsame : literalChar c = c := if_neg hbracket
    rw [hsame, factMark]
    by_cases hletter : c.isAlphanum = true
    · simp [hletter, isBlank_eq_false_of_isAlphanum hletter]
    · by_cases hblank : isBlank c = true
      · simp [hletter, hblank]
      · -- What is left over is the underscore, which has no upper case.
        have hunderscore : c = '_' := by simpa [leavesMark, hbracket, hletter, hblank] using hc
        rw [hunderscore]
        decide

/-- The part of a name that comes from a description, character by character. -/
theorem factBody_eq (description : List Char) :
    factBody description = ((description.filter leavesMark).map factMark).take 30 := by
  have hliteral : literalChars description =
      (description.filter fun c ↦ !isDelimiter c).map literalChar := rfl
  rw [factBody, hliteral, List.filter_map, List.filter_filter, List.map_map]
  simp only [Function.comp_apply, leavesMark_eq]
  refine congrArg (List.take 30) (List.map_congr_left fun c hc ↦ ?_)
  exact factMark_eq (List.mem_filter.mp hc).2

theorem isName_fact_iff (description : String) (position : Nat) :
    IsName (fact description position) ↔
      ∃ c, description.toList.find? leavesMark = some c ∧ c.isAlphanum = true := by
  rw [fact, isName_letterFirst_iff (over_fact description position)
    (isName_of_word _ (by decide) (by decide)) (head?_numbered _ position), factBody_eq,
    List.head?_take, if_neg (by decide), List.head?_map, List.head?_filter]
  cases description.toList.find? leavesMark with
  | none => simp
  | some c => simp [isAlphanum_factMark]

/-! ### Names with a word to fall back to -/

theorem head?_capitalize {c : Char} (hc : c.isAlphanum = true) (rest : List Char) :
    ∃ d, (capitalize (String.ofList (c :: rest))).toList.head? = some d ∧ d.isAlphanum = true := by
  have hupper : (Text.upperChar c).head?.any Char.isAlphanum = true :=
    forall_isAlphanum (q := fun c ↦ (Text.upperChar c).head?.any Char.isAlphanum)
      (by decide +kernel) hc
  obtain ⟨d, hd, hletter⟩ := (Option.any_eq_true _ _).mp hupper
  refine ⟨d, ?_, hletter⟩
  simp [capitalize, List.head?_append, hd]

theorem isName_assetStem (text : String) : IsName (assetStem text) := by
  have hover := over_assetStem text
  have hlead : IsName "Norm" := isName_of_word _ (by decide) (by decide)
  cases hword : (Text.firstWord text.toList).filter Char.isAlphanum with
  | nil => simpa [assetStem, hword] using hlead
  | cons c rest =>
    have hc : c.isAlphanum = true := (List.mem_filter.mp (hword ▸ List.mem_cons_self)).2
    obtain ⟨d, hd, hletter⟩ := head?_capitalize hc rest
    have hstem : assetStem text = letterFirst (capitalize (String.ofList (c :: rest))) "Norm" := by
      simp [assetStem, hword]
    rw [hstem] at hover ⊢
    exact (isName_letterFirst_iff hover hlead hd).mpr hletter

theorem isName_variableName (action : String) : IsName (variableName action) := by
  have hover := over_variableName action
  have hlead : IsName "accion" := isName_of_word _ (by decide) (by decide)
  cases hword : ((Text.firstWord action.toList).filter Char.isAlphanum).take variableLimit with
  | nil => simpa [variableName, hword] using hlead
  | cons c rest =>
    have hc : c.isAlphanum = true :=
      (List.mem_filter.mp (List.mem_of_mem_take (hword ▸ List.mem_cons_self))).2
    have hname : variableName action =
        letterFirst (String.ofList ((c :: rest).map Char.toLower)) "accion" := by
      simp [variableName, hword]
    rw [hname] at hover ⊢
    exact (isName_letterFirst_iff hover hlead (c := c.toLower) (by simp)).mpr
      (isAlphanum_toLower hc)

/-! ### All derived names -/

/-- The name of an action is a name of the language exactly if the action has a letter or a digit,
and that of a fact exactly if the first character of the description that has a place in the name is
a letter or a digit. All other names of actions and facts begin with an underscore and have the
characters of names. The names of assets and of variables are names of the language, whatever the
text. -/
theorem derived_isName_iff (text : String) (position : Nat) :
    (IsName (actionText text position) ↔ ∃ c ∈ text.toList, c.isAlphanum = true) ∧
      IsName (normAsset text position) ∧
      (IsName (fact text position) ↔
        ∃ c, text.toList.find? leavesMark = some c ∧ c.isAlphanum = true) ∧
      IsName (variableName text) ∧
      ∀ name ∈ [actionText text position, fact text position], ¬ IsName name →
        name.toList.head? = some '_' ∧ Over IsNameChar name := by
  refine ⟨isName_actionText_iff text position, ?_, isName_fact_iff text position,
    isName_variableName text, ?_⟩
  · exact ((isName_assetStem text).append (over_isNameChar _ (by decide))).append
      (over_toString position)
  · simp only [List.forall_mem_cons]
    refine ⟨fun hnot ↦ ⟨?_, over_actionText text position⟩,
      fun hnot ↦ ⟨?_, over_fact text position⟩, by simp⟩
    · exact head?_letterFirst_of_not_isName (over_actionText text position)
        (isName_of_word _ (by decide) (by decide)) (head?_numbered _ position) hnot
    · exact head?_letterFirst_of_not_isName (over_fact text position)
        (isName_of_word _ (by decide) (by decide)) (head?_numbered _ position) hnot

/-- A text that begins with a digit is led, and a text without letters and digits is not. -/
theorem derived_isName_iff_days :
    actionText "30 días" 1 = "accion_30_d_as_1" ∧ IsName (actionText "30 días" 1) ∧
      fact "30 días" 1 = "FACT_30_DAS_1" ∧ IsName (fact "30 días" 1) ∧
      ¬ IsName (actionText "¿?" 1) ∧ (actionText "¿?" 1).toList.head? = some '_' := by
  obtain ⟨haction, -, hfact, -, -⟩ := derived_isName_iff "30 días" 1
  obtain ⟨-, -, -, -, hunderscore⟩ := derived_isName_iff "¿?" 1
  have hnot : ¬ IsName (actionText "¿?" 1) := not_isName_of_underscore (by decide)
  exact ⟨by decide, haction.mpr ⟨'3', by simp, by decide⟩, by decide,
    hfact.mpr ⟨'3', by decide, by decide⟩, hnot, (hunderscore _ List.mem_cons_self hnot).1⟩

/-- An action of two question marks and a description that begins with a blank give names that begin
with an underscore. -/
theorem underscore_not_isName :
    actionText "¿?" 1 = "_1" ∧ ¬ IsName (actionText "¿?" 1) ∧
      fact " pago" 1 = "_PAGO_1" ∧ ¬ IsName (fact " pago" 1) := by
  have haction : actionText "¿?" 1 = "_1" := by decide
  have hfact : fact " pago" 1 = "_PAGO_1" := by decide
  rw [haction, hfact]
  exact ⟨rfl, not_isName_of_underscore (by decide), rfl, not_isName_of_underscore (by decide)⟩

end Normative.Identifier
