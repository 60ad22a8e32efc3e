import Normative.Proofs.Token.Layout

/-!
# Noise words and separators leave no trace

The tokens of a text do not tell which noise words stand in it or how its pieces are separated.
Two texts that set out the same pieces, noise words apart, have the same tokens, in whatever layouts
they are written.

Nothing has to be assumed of the noise words that are put in: a word that differs from a listed
filler at most in letter case has no separators and no quotation mark, because these have no case.

## Main definitions

* `Piece.isNoise` : whether a piece is a noise word.
* `withoutNoise` : pieces without the noise words among them.

## Main results

* `Token.isReadable_of_isNoise` : a noise word is read as it was written.
* `Layout.tokens_write_up_to_noise` : the tokens of a text, and what they do not depend on.
-/

namespace Normative

/-! ### Separators have no case -/

namespace Text

/-- A code point that a property table holds lies in one of its spans. -/
theorem Span.exists_of_holds {table : List Span} {n : Nat} (h : Span.holds table n = true) :
    ∃ s ∈ table, s.first ≤ n ∧ n ≤ s.last := by
  induction table with
  | nil => exact absurd h Bool.false_ne_true
  | cons s table ih =>
    rw [Span.holds] at h
    split at h
    · exact absurd h Bool.false_ne_true
    · rcases Bool.or_eq_true_iff.mp h with hs | htable
      · simp only [Span.contains, Bool.and_eq_true, decide_eq_true_eq] at hs
        exact ⟨s, List.mem_cons_self, hs.1.1, hs.1.2⟩
      · obtain ⟨s', hs', hn⟩ := ih htable
        exact ⟨s', List.mem_cons_of_mem s hs', hn⟩

/-- What holds of the code points in the spans of blanks holds of every blank. -/
theorem forall_isBlank {p : Char → Prop}
    (h : ∀ s ∈ blankSpans, ∀ k < s.last - s.first + 1, p (Char.ofNat (s.first + k))) {c : Char}
    (hc : isBlank c = true) : p c := by
  obtain ⟨s, hs, hfirst, hlast⟩ := Span.exists_of_holds hc
  have hvalue : s.first + (c.toNat - s.first) = c.toNat := by omega
  have hp := h s hs (c.toNat - s.first) (by omega)
  rwa [hvalue, Char.ofNat_toNat] at hp

end Text

/-- A separator is its own lower case. -/
theorem lowerChar_of_isSeparator {c : Char} (hc : isSeparator c = true) :
    Text.lowerChar c = [c] := by
  rcases Bool.or_eq_true_iff.mp hc with hblank | hmark
  · exact Text.forall_isBlank (p := fun c ↦ Text.lowerChar c = [c]) (by decide +kernel) hblank
  · have hmarks : ['.', ',', ':', ';', '[', ']'].all (fun c ↦ Text.lowerChar c == [c]) = true := by
      decide +kernel
    exact eq_of_beq (List.all_eq_true.mp hmarks c (List.contains_iff_mem.mp hmark))

/-! ### Noise words -/

namespace Token

/-- The listed fillers are words: they are not empty, and have no separators and no quotation
marks. -/
theorem fold_noiseWord {entry : String} (hentry : entry ∈ noiseWords) :
    Text.fold entry ≠ [] ∧ ∀ c ∈ Text.fold entry, isSeparator c = false ∧ c ≠ '"' := by
  have hall : noiseWords.all (fun entry ↦ !(Text.fold entry).isEmpty &&
      (Text.fold entry).all fun c ↦ !isSeparator c && c != '"') = true := by
    decide +kernel
  simpa using List.all_eq_true.mp hall entry hentry

/-- A noise word is read as it was written. -/
theorem isReadable_of_isNoise {word : String} (hnoise : isNoise word = true) :
    (Piece.word word).IsReadable := by
  obtain ⟨entry, hentry, hsame⟩ := Text.memFold_iff.mp hnoise
  have hfold : Text.fold word = Text.fold entry := eq_of_beq hsame
  obtain ⟨hne, hplain⟩ := fold_noiseWord hentry
  -- A character without case is found again in the lower case of the word.
  have hword {c : Char} (hc : c ∈ word.toList) (hlower : Text.lowerChar c = [c]) :
      isSeparator c = false ∧ c ≠ '"' := by
    refine hplain c (hfold ▸ List.mem_flatMap.mpr ⟨c, hc, ?_⟩)
    rw [hlower]
    exact List.mem_singleton_self c
  refine ⟨?_, fun c hc ↦ Bool.eq_false_iff.mpr fun hseparator ↦ ?_, fun hhead ↦ ?_⟩
  · rintro rfl
    exact hne hfold.symm
  · have hnot := (hword hc (lowerChar_of_isSeparator hseparator)).1
    rw [hseparator] at hnot
    exact Bool.false_ne_true hnot.symm
  · exact (hword (List.mem_of_head? hhead) (by decide +kernel)).2 rfl

end Token

/-- Whether a piece is a noise word. -/
def Piece.isNoise : Piece → Bool
  | word text => Token.isNoise text
  | quoted _ => false

theorem Piece.isReadable_of_isNoise {p : Piece} (h : p.isNoise = true) : p.IsReadable := by
  cases p with
  | word text => exact Token.isReadable_of_isNoise h
  | quoted text => exact absurd h Bool.false_ne_true

theorem Piece.token?_of_isNoise {p : Piece} (h : p.isNoise = true) : p.token? = none := by
  cases p with
  | word text => exact if_pos h
  | quoted text => exact absurd h Bool.false_ne_true

/-- Pieces without the noise words among them. -/
def withoutNoise (ps : List Piece) : List Piece := ps.filter fun p ↦ !p.isNoise

theorem filterMap_token?_withoutNoise (ps : List Piece) :
    (withoutNoise ps).filterMap Piece.token? = ps.filterMap Piece.token? := by
  induction ps with
  | nil => rfl
  | cons p ps ih =>
    rw [withoutNoise, List.filter_cons]
    by_cases hp : p.isNoise = true
    · rw [hp, List.filterMap_cons_none (Piece.token?_of_isNoise hp)]
      exact ih
    · rw [Bool.eq_false_iff.mpr hp, Bool.not_false, if_pos rfl, List.filterMap_cons,
        List.filterMap_cons, ← withoutNoise, ih]

/-! ### The tokens of a text -/

namespace Layout

/-- A text has one token for each of the pieces that it sets out, in their order, except that noise
words have none. So its tokens stay the same when noise words are put in or taken out between its
pieces and when the separators are changed. -/
theorem tokens_write_up_to_noise (layout : Layout) {ps : List Piece}
    (hps : ∀ p ∈ ps, p.IsReadable) :
    tokens (layout.write ps) = ps.filterMap Piece.token? ∧
      ∀ (layout' : Layout) (qs : List Piece), withoutNoise qs = withoutNoise ps →
        tokens (layout'.write qs) = tokens (layout.write ps) := by
  refine ⟨tokens_write layout hps, fun layout' qs hqs ↦ ?_⟩
  have hreadable : ∀ q ∈ qs, q.IsReadable := by
    intro q hq
    by_cases hnoise : q.isNoise = true
    · exact Piece.isReadable_of_isNoise hnoise
    · have hkept : q ∈ withoutNoise qs := List.mem_filter.mpr ⟨hq, by simpa using hnoise⟩
      rw [hqs] at hkept
      exact hps q (List.mem_filter.mp hkept).1
  rw [tokens_write layout' hreadable, tokens_write layout hps, ← filterMap_token?_withoutNoise qs,
    hqs, filterMap_token?_withoutNoise]

/-- Pieces set out one to a line, in brackets and with a comma after each. -/
def listed : Layout where
  before := ['[']
  gap _ := [']', ',', '\n', '[']
  before_separates := List.all_eq_true.mp (by decide)
  gap_separates _ := List.all_eq_true.mp (by decide)
  gap_ne_nil _ := List.cons_ne_nil _ _

/-- A quoted text with noise words and separators in it, and a word with a quotation mark. -/
def salePieces : List Piece := [.word "Institution", .quoted "un, el [y", .word "Precio\""]

/-- The same pieces with noise words around them. -/
def noisySalePieces : List Piece :=
  [.word "PLEASE", .word "Institution", .word "Del", .quoted "un, el [y", .word "ESTÁ", .word "$",
    .word "Precio\"", .word "e"]

theorem tokens_write_up_to_noise_sale :
    (∀ p ∈ salePieces, p.IsReadable) ∧ withoutNoise noisySalePieces = withoutNoise salePieces ∧
      tokens (plain.write salePieces) = [.institution, .quoted "un, el [y", .name "Precio\""] ∧
      tokens (listed.write noisySalePieces) = tokens (plain.write salePieces) := by
  have hreadable : ∀ p ∈ salePieces, p.IsReadable := by decide +kernel
  have hnoise : withoutNoise noisySalePieces = withoutNoise salePieces := by decide +kernel
  obtain ⟨htokens, hsame⟩ := tokens_write_up_to_noise plain hreadable
  exact ⟨hreadable, hnoise, htokens.trans (by decide +kernel), hsame listed _ hnoise⟩

end Layout

end Normative
