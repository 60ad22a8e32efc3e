import Mathlib.Data.List.Forall2
import Normative.Proofs.Token.Line
import Normative.Proofs.Token.Spelling

/-!
# Where the tokens of a text stand

Every token stands somewhere in the text: there are characters before it, it takes up some
characters of its own, and others come after it. A word takes up the characters up to the next
separator, and a quoted text also takes up its quotation marks, of which the second one may be
missing at the end of a line. This file shows that the place that is reported for a token is that
of its first character, that the characters there are those that are reported, that tokens take up
different parts of the text, one after the other, and that nothing but separators and noise words
is left over.

A text is tiled by its chunks: from left to right, each character either belongs to the next chunk
or is a separator in front of it. One character after the other, the pass over a text either keeps
the chunk that is open or completes it, and all the rest is read off the tiling.

## Main definitions

* `Position.following` : the place after some characters, by their number and their line breaks.
* `Extent` : a part of a text.
* `Piece.Fills` : the characters that a piece takes up, in view of those that follow.
* `Tiled` : texts that are made up of chunks and separators.
* `Lexeme.IsReadFrom` : what a lexeme tells about the part of the text that it was read from.

## Main results

* `Scan.advance_cases` : what one more character does to a tiling.
* `tiled_chunks` : a text is tiled by its chunks.
* `finding_exact` : where the tokens of a text are found, and where it ends.
-/

namespace Normative

/-! ### Places -/

/-- The place after some characters: each line break among them begins a line, and the columns are
counted by the characters after the last line break. -/
def Position.following (before : List Char) : Position where
  line := before.count '\n' + 1
  column := (before.reverse.takeWhile (· ≠ '\n')).length + 1

theorem Position.next_following (before : List Char) (c : Char) :
    (following before).next c = following (before ++ [c]) := by
  by_cases hc : c = '\n' <;> simp [next, following, hc]

theorem Position.after_following (before text : List Char) :
    (following before).after text = following (before ++ text) := by
  induction text generalizing before with
  | nil => rw [List.append_nil]; rfl
  | cons c text ih =>
    rw [after, List.foldl_cons, next_following, ← after, ih, List.append_assoc,
      List.singleton_append]

theorem endPosition_eq_following (text : String) : endPosition text = .following text.toList :=
  (endPosition_eq_after text).trans (Position.after_following [] text.toList)

/-! ### Parts of a text -/

/-- A part of a text that is not empty: its characters, those before it and those after it. -/
structure Extent (text : List Char) where
  before : List Char
  written : List Char
  after : List Char
  written_ne_nil : written ≠ []
  text_eq : before ++ (written ++ after) = text

/-- A part that ends before another one begins. -/
def Extent.Precedes {text : List Char} (e e' : Extent text) : Prop :=
  e.before ++ e.written <+: e'.before

/-- Whether the character with a given number, counted from zero, belongs to a part. -/
def Extent.Covers {text : List Char} (e : Extent text) (n : Nat) : Prop :=
  e.before.length ≤ n ∧ n < e.before.length + e.written.length

/-- A word goes on with every character that is no separator. -/
theorem Piece.IsReadable.word_concat {text : List Char} {c : Char}
    (h : (word (String.ofList text)).IsReadable) (hc : isSeparator c = false) :
    (word (String.ofList (text ++ [c]))).IsReadable := by
  obtain ⟨hne, hunbroken, hhead⟩ := h
  rw [IsUnbroken, String.toList_ofList] at hunbroken
  rw [String.toList_ofList] at hhead
  refine ⟨by simp, ?_, ?_⟩
  · rw [IsUnbroken, String.toList_ofList, List.forall_mem_append, List.forall_mem_singleton]
    exact ⟨hunbroken, hc⟩
  · rw [String.toList_ofList]
    cases text with
    | nil => exact absurd rfl hne
    | cons first text => exact hhead

/-- A quoted text goes on up to a quotation mark or the end of the line. -/
theorem Piece.IsReadable.quoted_concat {text : List Char} {c : Char}
    (h : (quoted (String.ofList text)).IsReadable) (hquote : c ≠ '"') (hbreak : c ≠ '\n') :
    (quoted (String.ofList (text ++ [c]))).IsReadable := by
  rw [IsReadable, IsQuotable, String.toList_ofList] at h ⊢
  rw [List.forall_mem_append, List.forall_mem_singleton]
  exact ⟨h, hquote, hbreak⟩

/-- The characters that a piece takes up in front of others. A word goes on up to the next
separator. A quoted text has a quotation mark before it and one after it, unless its line or the
whole text ends there. -/
inductive Piece.Fills : Piece → List Char → List Char → Prop
  | word {text : String} {after : List Char} (h : (word text).IsReadable)
      (hafter : ∀ c ∈ after.head?, isSeparator c = true) : Fills (.word text) text.toList after
  | closed {text : String} (h : (quoted text).IsReadable) (after : List Char) :
      Fills (.quoted text) ('"' :: (text.toList ++ ['"'])) after
  | unclosed {text : String} {after : List Char} (h : (quoted text).IsReadable)
      (hafter : ∀ c ∈ after.head?, c = '\n') : Fills (.quoted text) ('"' :: text.toList) after

theorem Piece.Fills.ne_nil {p : Piece} {written after : List Char} (h : p.Fills written after) :
    written ≠ [] := by
  cases h with
  | word h => exact mt String.toList_eq_nil_iff.mp h.1
  | closed h after => exact List.cons_ne_nil _ _
  | unclosed h hafter => exact List.cons_ne_nil _ _

/-- A text, of which some characters have been read before, whose remaining characters are made up
of chunks, each at its place, and of separators. -/
inductive Tiled : List Char → List Char → List Chunk → Prop
  | nil (before : List Char) : Tiled before [] []
  | separator {before rest : List Char} {chunks : List Chunk} {c : Char}
      (hc : isSeparator c = true) (h : Tiled (before ++ [c]) rest chunks) :
      Tiled before (c :: rest) chunks
  | chunk {before written rest : List Char} {chunks : List Chunk} {chunk : Chunk}
      (hposition : chunk.position = .following before) (hfills : chunk.piece.Fills written rest)
      (h : Tiled (before ++ written) rest chunks) :
      Tiled before (written ++ rest) (chunk :: chunks)

/-! ### The pass over a text -/

namespace Scan

/-- Where a pass stands after some characters that it has tiled and others, `opened`, which belong
to the chunk that is open. -/
inductive Mode.StandsAfter (before : List Char) : Mode → List Char → Prop
  | between : StandsAfter before .between []
  | inWord {reversed : List Char} (h : (Piece.word (String.ofList reversed.reverse)).IsReadable) :
      StandsAfter before (.inWord (.following before) reversed) reversed.reverse
  | inQuote {reversed : List Char}
      (h : (Piece.quoted (String.ofList reversed.reverse)).IsReadable) :
      StandsAfter before (.inQuote (.following before) reversed) ('"' :: reversed.reverse)

variable {before opened text rest : List Char} {mode : Mode} {chunks : List Chunk}

theorem tiled_word (h : (Piece.word (String.ofList text)).IsReadable)
    (hrest : ∀ c ∈ rest.head?, isSeparator c = true) (htiled : Tiled (before ++ text) rest chunks) :
    Tiled before (text ++ rest) (⟨.following before, false, text⟩ :: chunks) := by
  have hfills := Piece.Fills.word h hrest
  rw [String.toList_ofList] at hfills
  exact .chunk rfl hfills htiled

theorem tiled_closed (h : (Piece.quoted (String.ofList text)).IsReadable)
    (htiled : Tiled (before ++ '"' :: (text ++ ['"'])) rest chunks) :
    Tiled before ('"' :: (text ++ ['"']) ++ rest) (⟨.following before, true, text⟩ :: chunks) := by
  have hfills := Piece.Fills.closed h rest
  rw [String.toList_ofList] at hfills
  exact .chunk rfl hfills htiled

theorem tiled_unclosed (h : (Piece.quoted (String.ofList text)).IsReadable)
    (hrest : ∀ c ∈ rest.head?, c = '\n') (htiled : Tiled (before ++ '"' :: text) rest chunks) :
    Tiled before ('"' :: text ++ rest) (⟨.following before, true, text⟩ :: chunks) := by
  have hfills := Piece.Fills.unclosed h hrest
  rw [String.toList_ofList] at hfills
  exact .chunk rfl hfills htiled

/-- One more character either goes on with the chunk that is open, or opens one, or it leaves the
text tiled up to this character. -/
theorem advance_cases (hmode : mode.StandsAfter before opened) (c : Char) :
    (∃ mode', advance mode (.following (before ++ opened)) c = (mode', none) ∧
        mode'.StandsAfter before (opened ++ [c])) ∨
      ∃ completed, advance mode (.following (before ++ opened)) c = (.between, completed) ∧
        ∀ rest chunks, Tiled (before ++ opened ++ [c]) rest chunks →
          Tiled before (opened ++ c :: rest) (completed.toList ++ chunks) := by
  cases hmode with
  | between =>
    rw [List.append_nil]
    by_cases hseparator : isSeparator c = true
    · exact .inr ⟨none, if_pos hseparator, fun rest chunks htiled ↦ .separator hseparator htiled⟩
    · left
      by_cases hquote : c = '"'
      · subst hquote
        exact ⟨_, rfl, .inQuote (by simp [Piece.IsReadable, IsQuotable])⟩
      · refine ⟨.inWord (.following before) [c], ?_, .inWord ?_⟩
        · rw [advance, if_neg hseparator, if_neg hquote]
        · simpa [Piece.IsReadable, IsUnbroken, hquote] using hseparator
  | @inWord reversed h =>
    by_cases hseparator : isSeparator c = true
    · refine .inr ⟨_, if_pos hseparator, fun rest chunks htiled ↦ ?_⟩
      exact tiled_word h (by simpa using hseparator) (.separator hseparator htiled)
    · refine .inl ⟨_, if_neg hseparator, ?_⟩
      rw [← List.reverse_cons]
      refine .inWord ?_
      rw [List.reverse_cons]
      exact h.word_concat (Bool.eq_false_iff.mpr hseparator)
  | @inQuote reversed h =>
    by_cases hquote : c = '"'
    · subst hquote
      refine .inr ⟨_, rfl, fun rest chunks htiled ↦ ?_⟩
      have := tiled_closed h (by simpa using htiled)
      simpa using this
    · by_cases hbreak : c = '\n'
      · subst hbreak
        refine .inr ⟨_, rfl, fun rest chunks htiled ↦ ?_⟩
        exact tiled_unclosed h (by simp) (.separator (by decide) htiled)
      · refine .inl ⟨.inQuote (.following before) (c :: reversed), ?_, ?_⟩
        · simp [advance, hquote, hbreak]
        · rw [List.cons_append, ← List.reverse_cons]
          refine .inQuote ?_
          rw [List.reverse_cons]
          exact h.quoted_concat hquote hbreak

/-- What remains of a text is tiled by the chunks that the pass finds in it. -/
theorem exists_tiled (hmode : mode.StandsAfter before opened) (text : List Char)
    (done : List Chunk) :
    ∃ chunks, (text.foldl step ⟨mode, .following (before ++ opened), done⟩).chunks =
      done.reverse ++ chunks ∧ Tiled before (opened ++ text) chunks := by
  induction text generalizing before opened mode done with
  | nil =>
    rw [List.append_nil]
    cases hmode with
    | between => exact ⟨[], rfl, .nil before⟩
    | @inWord reversed h =>
      refine ⟨[⟨.following before, false, reversed.reverse⟩], rfl, ?_⟩
      simpa using tiled_word h (by simp) (.nil (before ++ reversed.reverse))
    | @inQuote reversed h =>
      refine ⟨[⟨.following before, true, reversed.reverse⟩], rfl, ?_⟩
      simpa using tiled_unclosed h (by simp) (.nil (before ++ '"' :: reversed.reverse))
  | cons c text ih =>
    obtain ⟨mode', hadvance, hmode'⟩ | ⟨completed, hadvance, htile⟩ := advance_cases hmode c
    · obtain ⟨found, hfound, htiled⟩ := ih hmode' done
      refine ⟨found, ?_, by simpa using htiled⟩
      rw [← hfound, List.foldl_cons, step, hadvance, Position.next_following, List.append_assoc]
      rfl
    · obtain ⟨found, hfound, htiled⟩ := ih .between (completed.toList ++ done)
      refine ⟨completed.toList ++ found, ?_, htile _ _ htiled⟩
      have hreverse : (completed.toList ++ done).reverse = done.reverse ++ completed.toList := by
        cases completed <;> simp
      rw [← List.append_assoc, ← hreverse, ← hfound, List.append_nil, List.foldl_cons, step,
        hadvance, Position.next_following]

end Scan

/-- A text is tiled by its chunks. -/
theorem tiled_chunks (text : String) : Tiled [] text.toList (chunks text) := by
  have hmode : Scan.Mode.between.StandsAfter [] [] := .between
  obtain ⟨found, hfound, htiled⟩ := Scan.exists_tiled hmode text.toList []
  rw [chunks]
  exact hfound ▸ htiled

/-! ### The parts from which lexemes are read -/

/-- The piece that a lexeme was read from. -/
def Lexeme.piece (l : Lexeme) : Piece :=
  match l.token with
  | .quoted _ => .quoted l.raw
  | _ => .word l.raw

/-- A lexeme that was read from a part of a text. It stands where the part begins, its raw text
takes up the part, with quotation marks if it is quoted, and its token carries no other text than
the raw one. -/
structure Lexeme.IsReadFrom {text : List Char} (l : Lexeme) (e : Extent text) : Prop where
  position_eq : l.position = .following e.before
  fills : l.piece.Fills e.written e.after
  carried : ∀ carried, l.token.text? = some carried → carried = l.raw

/-- The part of a noise word. -/
def Extent.IsNoise {text : List Char} (e : Extent text) : Prop :=
  ∃ word, Token.isNoise word = true ∧ (Piece.word word).Fills e.written e.after

/-- A chunk is a noise word, or its lexeme is read from the part that the chunk takes up. -/
theorem Chunk.isReadFrom_or_isNoise {text : List Char} {chunk : Chunk} {e : Extent text}
    (hposition : chunk.position = .following e.before)
    (hfills : chunk.piece.Fills e.written e.after) :
    (∃ l, chunk.lexeme? = some l ∧ l.IsReadFrom e) ∨ chunk.lexeme? = none ∧ e.IsNoise := by
  obtain ⟨position, isQuoted, text⟩ := chunk
  dsimp only at hposition
  cases isQuoted with
  | true =>
    exact .inl ⟨_, rfl, hposition, hfills, fun carried hcarried ↦ (Option.some.inj hcarried).symm⟩
  | false =>
    have hfills : (Piece.word (String.ofList text)).Fills e.written e.after := hfills
    by_cases hnoise : Token.isNoise (String.ofList text) = true
    · exact .inr ⟨if_pos hnoise, _, hnoise, hfills⟩
    · refine .inl ⟨_, if_neg hnoise, hposition, ?_, fun _ ↦ Token.text?_classify⟩
      -- A word is never read as a quoted text, so it is its own piece.
      rw [Lexeme.piece]
      split
      · rename_i quoted htoken
        exact absurd htoken (Token.classify_ne_quoted _ quoted)
      · exact hfills

/-- The parts of a text from which lexemes were read, if they stand in `rest` and the characters
before that have been read already: each ends before the next one begins, and nothing is left over
but separators and noise words. -/
structure Locates {text : List Char} (before rest : List Char) (found : List Lexeme)
    (extents : List (Extent text)) : Prop where
  read : List.Forall₂ Lexeme.IsReadFrom found extents
  ordered : extents.Pairwise Extent.Precedes
  behind : ∀ e ∈ extents, before <+: e.before
  covers : ∀ n c, rest[n]? = some c → isSeparator c = false →
    ∃ e : Extent text, e.Covers (before.length + n) ∧ (e ∈ extents ∨ e.IsNoise)

namespace Locates

variable {text before rest : List Char} {found : List Lexeme} {extents : List (Extent text)}

theorem separator {c : Char} (h : Locates (before ++ [c]) rest found extents)
    (hc : isSeparator c = true) : Locates before (c :: rest) found extents where
  read := h.read
  ordered := h.ordered
  behind e he := (List.prefix_append before [c]).trans (h.behind e he)
  covers n d hd hplain := by
    cases n with
    | zero =>
      obtain rfl : c = d := by simpa using hd
      rw [hc] at hplain
      exact absurd hplain.symm Bool.false_ne_true
    | succ n =>
      obtain ⟨e, he, hmem⟩ := h.covers n d hd hplain
      refine ⟨e, ?_, hmem⟩
      rwa [List.length_append, List.length_singleton, Nat.add_assoc, Nat.add_comm 1] at he

variable {new : Extent text}

theorem behind_new (h : Locates (new.before ++ new.written) rest found extents) :
    ∀ e ∈ extents, new.before <+: e.before :=
  fun e he ↦ (List.prefix_append _ _).trans (h.behind e he)

/-- A character after a new part is covered as before, and the others belong to the new part. -/
theorem covers_new (h : Locates (new.before ++ new.written) rest found extents) {n : Nat} {c : Char}
    (hc : (new.written ++ rest)[n]? = some c) (hplain : isSeparator c = false) :
    new.Covers (new.before.length + n) ∨
      ∃ e : Extent text, e.Covers (new.before.length + n) ∧ (e ∈ extents ∨ e.IsNoise) := by
  by_cases hn : n < new.written.length
  · exact .inl ⟨Nat.le_add_right _ _, Nat.add_lt_add_left hn _⟩
  · have hn := Nat.le_of_not_lt hn
    rw [List.getElem?_append_right hn] at hc
    obtain ⟨e, he, hmem⟩ := h.covers _ c hc hplain
    rw [List.length_append, Nat.add_assoc, Nat.add_sub_cancel' hn] at he
    exact .inr ⟨e, he, hmem⟩

theorem lexeme {l : Lexeme} (h : Locates (new.before ++ new.written) rest found extents)
    (hl : l.IsReadFrom new) :
    Locates new.before (new.written ++ rest) (l :: found) (new :: extents) where
  read := .cons hl h.read
  ordered := List.pairwise_cons.mpr ⟨h.behind, h.ordered⟩
  behind := List.forall_mem_cons.mpr ⟨List.prefix_refl _, h.behind_new⟩
  covers n c hc hplain := by
    obtain hnew | ⟨e, he, hmem⟩ := h.covers_new hc hplain
    · exact ⟨new, hnew, .inl List.mem_cons_self⟩
    · exact ⟨e, he, hmem.imp_left (List.mem_cons_of_mem _)⟩

theorem noise (h : Locates (new.before ++ new.written) rest found extents)
    (hnoise : new.IsNoise) : Locates new.before (new.written ++ rest) found extents where
  read := h.read
  ordered := h.ordered
  behind := h.behind_new
  covers _ _ hc hplain := (h.covers_new hc hplain).elim (⟨new, ·, .inr hnoise⟩) id

end Locates

/-- The lexemes of the chunks that tile a text are read from parts of it. -/
theorem Tiled.exists_locates {text before rest : List Char} {chunks : List Chunk}
    (h : Tiled before rest chunks) (htext : before ++ rest = text) :
    ∃ extents : List (Extent text),
      Locates before rest (chunks.filterMap Chunk.lexeme?) extents := by
  induction h with
  | nil before => exact ⟨[], .nil, .nil, by simp, by simp⟩
  | separator hc h ih =>
    obtain ⟨extents, hextents⟩ := ih (by simpa using htext)
    exact ⟨extents, hextents.separator hc⟩
  | @chunk before written rest chunks chunk hposition hfills h ih =>
    obtain ⟨extents, hextents⟩ := ih (by simpa using htext)
    let new : Extent text := ⟨before, written, rest, hfills.ne_nil, htext⟩
    have hnew : Locates (new.before ++ new.written) rest _ extents := hextents
    obtain ⟨l, hlexeme, hl⟩ | ⟨hlexeme, hnoise⟩ :=
      Chunk.isReadFrom_or_isNoise (e := new) hposition hfills
    · rw [List.filterMap_cons_some hlexeme]
      exact ⟨new :: extents, hnew.lexeme hl⟩
    · rw [List.filterMap_cons_none hlexeme]
      exact ⟨extents, hnew.noise hnoise⟩

/-- Whatever is found in a text, one token after the other, stands where it is reported: there are
parts of the text, each before the next one, such that the tokens that are found have been read
from them, in this order. After the last token the end of the text is found, at the place after all
of its characters and with no raw text. Besides the parts of the tokens there are only noise words
and separators. -/
theorem finding_exact (text : String) :
    ∃ extents : List (Extent text.toList), extents.Pairwise Extent.Precedes ∧
      (∀ n e, extents[n]? = some e → ∃ l : Lexeme, finding text n = l.finding ∧ l.IsReadFrom e) ∧
      (∀ n, extents[n]? = none → finding text n = ⟨none, .following text.toList, ""⟩) ∧
      ∀ n c, text.toList[n]? = some c → isSeparator c = false →
        ∃ e : Extent text.toList, e.Covers n ∧ (e ∈ extents ∨ e.IsNoise) := by
  obtain ⟨extents, hextents⟩ := (tiled_chunks text).exists_locates rfl
  have hread : List.Forall₂ Lexeme.IsReadFrom (lexemes text) extents := hextents.read
  refine ⟨extents, hextents.ordered, fun n e he ↦ ?_, fun n hn ↦ ?_, by
    simpa using hextents.covers⟩
  · obtain ⟨hn, rfl⟩ := List.getElem?_eq_some_iff.mp he
    have hn' : n < (lexemes text).length := hread.length_eq ▸ hn
    refine ⟨(lexemes text)[n], ?_, hread.get hn' hn⟩
    rw [finding, List.getElem?_eq_getElem hn']
  · have hnone : (lexemes text)[n]? = none := by
      rw [List.getElem?_eq_none_iff] at hn ⊢
      rwa [hread.length_eq]
    rw [finding, hnone, endPosition_eq_following]

-- The quoted text, which nothing closes, ends with its line, and letters count once each.
example : finding "\"señal\n  12." 1 = ⟨some (.number 12), ⟨2, 3⟩, "12"⟩ := by decide +kernel

end Normative
