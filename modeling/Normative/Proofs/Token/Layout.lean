import Normative.Token.Scan

/-!
# Texts that are laid out in pieces

A text can be written from pieces, which are words and quoted texts, with runs of separators
between them. Reading such a text gives back the pieces, whatever the separators are: a word ends
at the first separator after it, and a quoted text at its quotation mark.

## Main definitions

* `Piece` : a word, or a text in quotation marks, with `Piece.token?` for what it is read as.
* `Layout` : the separators around the pieces of a text.
* `Layout.write` : the text that sets pieces out.

## Main results

* `Layout.map_piece_chunks_write` : the chunks of a text are the pieces that it was written from.
* `Layout.tokens_write` : its tokens are those of the pieces that are not noise.
-/

namespace Normative

/-! ### Pieces -/

/-- A piece of a text: a word, or a text in quotation marks. -/
inductive Piece where
  | word (text : String)
  | quoted (text : String)
  deriving DecidableEq

/-- A text that can stand between quotation marks: it has none of its own and stays on its line. -/
def IsQuotable (text : String) : Prop := ∀ c ∈ text.toList, c ≠ '"' ∧ c ≠ '\n'

/-- A text without separators. -/
def IsUnbroken (text : String) : Prop := ∀ c ∈ text.toList, isSeparator c = false

-- The characters of the text are tried, and not all characters.
instance : DecidablePred IsQuotable := fun text ↦ List.decidableBAll _ text.toList

instance : DecidablePred IsUnbroken := fun text ↦ List.decidableBAll _ text.toList

namespace Piece

/-- The characters of a piece as it is written. -/
def chars : Piece → List Char
  | word text => text.toList
  | quoted text => '"' :: (text.toList ++ ['"'])

/-- The token that a piece is read as; a noise word has none. -/
def token? : Piece → Option Token
  | word text => if Token.isNoise text then none else some (Token.classify text)
  | quoted text => some (.quoted text)

/-- A piece that is read as it was written: a word is not empty, has no separators and begins with
no quotation mark. -/
def IsReadable : Piece → Prop
  | word text => text ≠ "" ∧ IsUnbroken text ∧ text.toList.head? ≠ some '"'
  | quoted text => IsQuotable text

instance : DecidablePred IsReadable
  | word text =>
    inferInstanceAs (Decidable (text ≠ "" ∧ IsUnbroken text ∧ text.toList.head? ≠ some '"'))
  | quoted text => inferInstanceAs (Decidable (IsQuotable text))

theorem isReadable_word {text : String} {c : Char} (hhead : c ∈ text.toList.head?) (hc : c ≠ '"')
    (h : IsUnbroken text) : (word text).IsReadable := by
  have hhead : text.toList.head? = some c := hhead
  refine ⟨?_, h, ?_⟩
  · rintro rfl
    simp at hhead
  · rw [hhead]
    exact fun heq ↦ hc (Option.some.inj heq)

end Piece

/-- The piece that a chunk was read from. -/
def Chunk.piece (chunk : Chunk) : Piece :=
  if chunk.isQuoted then .quoted (String.ofList chunk.text) else .word (String.ofList chunk.text)

theorem Chunk.map_token_lexeme? (chunk : Chunk) :
    chunk.lexeme?.map Lexeme.token = chunk.piece.token? := by
  unfold Chunk.lexeme? Chunk.piece
  by_cases hq : chunk.isQuoted = true
  · simp [hq, Piece.token?]
  · by_cases hn : Token.isNoise (String.ofList chunk.text) = true <;> simp [hq, hn, Piece.token?]

/-- The tokens of a text are those of the pieces that its chunks were read from. -/
theorem tokens_eq_filterMap (text : String) :
    tokens text = ((chunks text).map Chunk.piece).filterMap Piece.token? := by
  rw [tokens, lexemes, List.map_filterMap, List.filterMap_map]
  exact congrArg (fun f ↦ List.filterMap f (chunks text)) (funext Chunk.map_token_lexeme?)

/-! ### Layouts -/

/-- The separators of a text: a run before the first piece, and a run after each piece, which is
given by the number of pieces that are still to come. Only the outermost runs may be empty. -/
structure Layout where
  before : List Char
  gap : Nat → List Char
  before_separates : ∀ c ∈ before, isSeparator c = true
  gap_separates : ∀ n, ∀ c ∈ gap n, isSeparator c = true
  gap_ne_nil : ∀ n, gap (n + 1) ≠ []

namespace Layout

/-- The characters of pieces, each with the separators after it. -/
def spread (layout : Layout) : List Piece → List Char
  | [] => []
  | p :: ps => p.chars ++ (layout.gap ps.length ++ layout.spread ps)

/-- The text that sets pieces out. -/
def write (layout : Layout) (ps : List Piece) : String :=
  String.ofList (layout.before ++ layout.spread ps)

/-- Pieces set out on one line, with a space between them. -/
def plain : Layout where
  before := []
  gap n := if n = 0 then [] else [' ']
  before_separates := by simp
  gap_separates n c hc := by
    split at hc
    · simp at hc
    · rw [List.mem_singleton.mp hc]
      decide
  gap_ne_nil := by simp

end Layout

/-! ### Reading a text that is laid out -/

namespace Scan

/-- Separators between chunks leave no trace but the place that is reached. -/
theorem foldl_step_separators (gap : List Char) (hgap : ∀ c ∈ gap, isSeparator c = true)
    (position : Position) (done : List Chunk) :
    gap.foldl step ⟨.between, position, done⟩ = ⟨.between, position.after gap, done⟩ := by
  induction gap generalizing position with
  | nil => rfl
  | cons c gap ih =>
    have hc : isSeparator c = true := hgap c List.mem_cons_self
    have hstep : step ⟨.between, position, done⟩ c = ⟨.between, position.next c, done⟩ := by
      simp [step, advance, hc]
    rw [List.foldl_cons, hstep, ih fun c' hc' ↦ hgap c' (List.mem_cons_of_mem c hc')]
    rfl

/-- Characters that a chunk goes on with are put in front of those that it holds in reverse. -/
theorem foldl_step_inside (inside : List Char → Mode) (text : List Char)
    (htext : ∀ c ∈ text, ∀ reversed position,
      advance (inside reversed) position c = (inside (c :: reversed), none))
    (reversed : List Char) (position : Position) (done : List Chunk) :
    text.foldl step ⟨inside reversed, position, done⟩ =
      ⟨inside (text.reverse ++ reversed), position.after text, done⟩ := by
  induction text generalizing position reversed with
  | nil => rfl
  | cons c text ih =>
    have hstep : step ⟨inside reversed, position, done⟩ c =
        ⟨inside (c :: reversed), position.next c, done⟩ := by
      simp [step, htext c List.mem_cons_self]
    rw [List.foldl_cons, hstep, ih fun c' hc' ↦ htext c' (List.mem_cons_of_mem c hc')]
    simp [Position.after]

/-- A quoted text is complete after its second quotation mark. -/
theorem foldl_step_quoted {text : String} (htext : IsQuotable text) (position : Position)
    (done : List Chunk) :
    ∃ position', (Piece.quoted text).chars.foldl step ⟨.between, position, done⟩ =
      ⟨.between, position', ⟨position, true, text.toList⟩ :: done⟩ := by
  have hopen : step ⟨.between, position, done⟩ '"' =
      ⟨.inQuote position [], position.next '"', done⟩ := by
    have hmark : isSeparator '"' = false := by decide
    simp [step, advance, hmark]
  have hinside := foldl_step_inside (.inQuote position) text.toList
    (fun c hc _ _ ↦ by simp [advance, htext c hc]) [] (position.next '"') done
  refine ⟨((position.next '"').after text.toList).next '"', ?_⟩
  rw [Piece.chars, List.foldl_cons, hopen, List.foldl_append, hinside]
  simp [step, advance]

/-- A word is open after its last character. -/
theorem foldl_step_word {text : String} (htext : (Piece.word text).IsReadable)
    (position : Position) (done : List Chunk) :
    ∃ position', (Piece.word text).chars.foldl step ⟨.between, position, done⟩ =
      ⟨.inWord position text.toList.reverse, position', done⟩ := by
  obtain ⟨hne, hunbroken, hhead⟩ := htext
  obtain ⟨c, tail, htail⟩ := List.exists_cons_of_ne_nil (mt String.toList_eq_nil_iff.mp hne)
  rw [IsUnbroken, htail] at hunbroken
  have hc : c ≠ '"' := by simpa [htail] using hhead
  have hopen : step ⟨.between, position, done⟩ c =
      ⟨.inWord position [c], position.next c, done⟩ := by
    simp [step, advance, hunbroken c List.mem_cons_self, hc]
  have hinside := foldl_step_inside (.inWord position) tail
    (fun c' hc' _ _ ↦ by simp [advance, hunbroken c' (List.mem_cons_of_mem c hc')]) [c]
    (position.next c) done
  refine ⟨(position.next c).after tail, ?_⟩
  rw [Piece.chars, htail, List.foldl_cons, hopen, hinside, List.reverse_cons]

/-- A piece and the separators after it are one chunk, which is complete if there are any. -/
theorem foldl_step_piece {p : Piece} (hp : p.IsReadable) {gap : List Char}
    (hgap : ∀ c ∈ gap, isSeparator c = true) (position : Position) (done : List Chunk) :
    ∃ chunk, chunk.piece = p ∧
      ((p.chars ++ gap).foldl step ⟨.between, position, done⟩).chunks = done.reverse ++ [chunk] ∧
      (gap ≠ [] → ∃ position', (p.chars ++ gap).foldl step ⟨.between, position, done⟩ =
        ⟨.between, position', chunk :: done⟩) := by
  cases p with
  | quoted text =>
    obtain ⟨position', hfold⟩ := foldl_step_quoted hp position done
    refine ⟨⟨position, true, text.toList⟩, by simp [Chunk.piece], ?_⟩
    rw [List.foldl_append, hfold, foldl_step_separators gap hgap]
    exact ⟨by simp [chunks, Mode.open?], fun _ ↦ ⟨_, rfl⟩⟩
  | word text =>
    obtain ⟨position', hfold⟩ := foldl_step_word hp position done
    refine ⟨⟨position, false, text.toList⟩, by simp [Chunk.piece], ?_⟩
    rw [List.foldl_append, hfold]
    cases gap with
    | nil => exact ⟨by simp [chunks, Mode.open?], fun h ↦ absurd rfl h⟩
    | cons c gap =>
      have hclose : step ⟨.inWord position text.toList.reverse, position', done⟩ c =
          ⟨.between, position'.next c, ⟨position, false, text.toList⟩ :: done⟩ := by
        simp [step, advance, hgap c List.mem_cons_self]
      rw [List.foldl_cons, hclose,
        foldl_step_separators gap fun c' hc' ↦ hgap c' (List.mem_cons_of_mem c hc')]
      exact ⟨by simp [chunks, Mode.open?], fun _ ↦ ⟨_, rfl⟩⟩

end Scan

namespace Layout

/-- Pieces that are set out after other chunks are read as further chunks. -/
theorem map_piece_chunks_spread (layout : Layout) {ps : List Piece}
    (hps : ∀ p ∈ ps, p.IsReadable) (position : Position) (done : List Chunk) :
    ((layout.spread ps).foldl Scan.step ⟨.between, position, done⟩).chunks.map Chunk.piece =
      done.reverse.map Chunk.piece ++ ps := by
  induction ps generalizing position done with
  | nil => simp [spread, Scan.chunks, Scan.Mode.open?]
  | cons p ps ih =>
    obtain ⟨chunk, rfl, hlast, hmore⟩ := Scan.foldl_step_piece (hps p List.mem_cons_self)
      (layout.gap_separates ps.length) position done
    rw [spread, ← List.append_assoc, List.foldl_append]
    -- Only after the last piece may the run of separators be empty.
    cases ps with
    | nil => rw [spread, List.foldl_nil, hlast, List.map_append, List.map_singleton]
    | cons q ps =>
      obtain ⟨position', hfold⟩ := hmore (layout.gap_ne_nil ps.length)
      rw [hfold, ih fun p' hp' ↦ hps p' (List.mem_cons_of_mem _ hp')]
      simp

/-- The chunks of a text are the pieces that it was written from. -/
theorem map_piece_chunks_write (layout : Layout) {ps : List Piece}
    (hps : ∀ p ∈ ps, p.IsReadable) : (chunks (layout.write ps)).map Chunk.piece = ps := by
  rw [chunks, Scan.run, write, String.toList_ofList, List.foldl_append, Scan.start,
    Scan.foldl_step_separators _ layout.before_separates, map_piece_chunks_spread layout hps]
  rfl

/-- The tokens of a text are those of the pieces that it was written from, noise apart. -/
theorem tokens_write (layout : Layout) {ps : List Piece} (hps : ∀ p ∈ ps, p.IsReadable) :
    tokens (layout.write ps) = ps.filterMap Piece.token? := by
  rw [tokens_eq_filterMap, map_piece_chunks_write layout hps]

end Layout

end Normative
