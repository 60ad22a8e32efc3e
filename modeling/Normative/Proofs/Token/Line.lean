import Normative.Token.Scan

/-!
# Texts are read line by line

Nothing that is read goes across the end of a line: a line break separates words, and it ends a
quoted text that no quotation mark has ended. So the chunks of two texts with a line break between
them are those of the first one, followed by those of the second one on lines further down.

## Main definitions

* `Position.below`, `Chunk.below`, `Lexeme.below` : the same columns, some lines further down.

## Main results

* `chunks_newline`, `lexemes_newline` : the chunks and the lexemes of two texts with a line break
  between them.
* `tokens_newline` : the tokens of two texts with a line break between them, with their places.
-/

namespace Normative

/-- A place some lines further down. -/
def Position.below (n : Nat) (p : Position) : Position := ⟨p.line + n, p.column⟩

/-- A chunk some lines further down. -/
def Chunk.below (n : Nat) (chunk : Chunk) : Chunk :=
  { chunk with position := chunk.position.below n }

/-- A lexeme some lines further down. -/
def Lexeme.below (n : Nat) (l : Lexeme) : Lexeme := { l with position := l.position.below n }

theorem Position.next_below (n : Nat) (p : Position) (c : Char) :
    (p.below n).next c = (p.next c).below n := by
  unfold next below
  split
  · exact congrArg (Position.mk · 1) (Nat.add_right_comm p.line n 1)
  · rfl

/-- After a line break a text goes on as it began, on a line further down. -/
theorem Position.next_newline (p : Position) : p.next '\n' = start.below p.line := by
  simp [next, start, below, Nat.add_comm]

theorem Position.after_below (n : Nat) (p : Position) (text : List Char) :
    (p.below n).after text = (p.after text).below n := by
  induction text generalizing p with
  | nil => rfl
  | cons c text ih =>
    rw [after, List.foldl_cons, next_below, ← after, ih]
    rfl

/-- Lines are counted by the line breaks. -/
theorem Position.line_after (p : Position) (text : List Char) :
    (p.after text).line = p.line + text.count '\n' := by
  induction text generalizing p with
  | nil => rfl
  | cons c text ih =>
    rw [after, List.foldl_cons, ← after, ih, next]
    by_cases hc : c = '\n'
    · rw [if_pos hc, hc, List.count_cons_self]
      exact Nat.add_right_comm p.line 1 _
    · rw [if_neg hc, List.count_cons_of_ne hc]

theorem Chunk.lexeme?_below (n : Nat) (chunk : Chunk) :
    (chunk.below n).lexeme? = chunk.lexeme?.map (Lexeme.below n) := by
  by_cases hquoted : chunk.isQuoted = true
  · simp [lexeme?, below, hquoted, Lexeme.below]
  · by_cases hnoise : Token.isNoise (String.ofList chunk.text) = true <;>
      simp [lexeme?, below, hquoted, hnoise, Lexeme.below]

namespace Scan

/-- A state of a pass some lines further down. -/
def Mode.below (n : Nat) : Mode → Mode
  | .between => .between
  | .inWord start reversed => .inWord (start.below n) reversed
  | .inQuote start reversed => .inQuote (start.below n) reversed

theorem Mode.open?_below (n : Nat) (mode : Mode) :
    (mode.below n).open? = mode.open?.map (Chunk.below n) := by
  cases mode <;> rfl

/-- A pass some lines further down, after chunks that have been completed before. -/
def resumed (n : Nat) (before : List Chunk) (s : Scan) : Scan :=
  ⟨s.mode.below n, s.position.below n, s.done.map (Chunk.below n) ++ before⟩

theorem chunks_resumed (n : Nat) (before : List Chunk) (s : Scan) :
    (s.resumed n before).chunks = before.reverse ++ s.chunks.map (Chunk.below n) := by
  rw [chunks, resumed, chunks, Mode.open?_below, List.reverse_append, List.map_append,
    List.map_reverse, List.append_assoc]
  cases s.mode.open? <;> rfl

theorem advance_below (n : Nat) (mode : Mode) (position : Position) (c : Char) :
    advance (mode.below n) (position.below n) c =
      ((advance mode position c).1.below n, (advance mode position c).2.map (Chunk.below n)) := by
  cases mode with
  | between =>
    simp only [Mode.below, advance]
    split
    · rfl
    · split <;> rfl
  | inWord start reversed =>
    simp only [Mode.below, advance]
    split <;> rfl
  | inQuote start reversed =>
    simp only [Mode.below, advance]
    split <;> rfl

theorem step_resumed (n : Nat) (before : List Chunk) (s : Scan) (c : Char) :
    (s.resumed n before).step c = (s.step c).resumed n before := by
  simp only [step, resumed, advance_below, Position.next_below, List.map_append,
    List.append_assoc]
  cases (advance s.mode s.position c).2 <;> rfl

/-- A pass does not depend on the line on which it begins or on what has been read before. -/
theorem foldl_step_resumed (n : Nat) (before : List Chunk) (s : Scan) (text : List Char) :
    text.foldl step (s.resumed n before) = (text.foldl step s).resumed n before := by
  induction text generalizing s with
  | nil => rfl
  | cons c text ih => rw [List.foldl_cons, List.foldl_cons, step_resumed, ih]

/-- A line break completes the chunk that is open. -/
theorem step_newline (s : Scan) :
    s.step '\n' = start.resumed s.position.line s.chunks.reverse := by
  have hblank : isSeparator '\n' = true := by decide
  obtain ⟨mode, position, done⟩ := s
  cases mode <;>
    simp [step, advance, hblank, start, resumed, chunks, Mode.open?, Mode.below,
      Position.next_newline]

end Scan

/-- The chunks of two texts with a line break between them. -/
theorem chunks_newline (s t : String) :
    chunks (s ++ "\n" ++ t) = chunks s ++ (chunks t).map (Chunk.below (endPosition s).line) := by
  have hbreak : ("\n".toList).foldl Scan.step (Scan.run s.toList) =
      Scan.start.resumed (endPosition s).line (chunks s).reverse := Scan.step_newline _
  have hrun : Scan.run (s ++ "\n" ++ t).toList =
      (Scan.run t.toList).resumed (endPosition s).line (chunks s).reverse := by
    rw [String.toList_append, String.toList_append, Scan.run, List.foldl_append, List.foldl_append,
      ← Scan.run, hbreak, Scan.foldl_step_resumed, ← Scan.run]
  rw [chunks, hrun, Scan.chunks_resumed, List.reverse_reverse]
  rfl

theorem lexemes_newline (s t : String) :
    lexemes (s ++ "\n" ++ t) =
      lexemes s ++ (lexemes t).map (Lexeme.below (endPosition s).line) := by
  rw [lexemes, chunks_newline, List.filterMap_append, List.filterMap_map, lexemes, lexemes,
    List.map_filterMap]
  exact congrArg (fun f ↦ _ ++ List.filterMap f (chunks t)) (funext (Chunk.lexeme?_below _))

theorem line_endPosition (text : String) :
    (endPosition text).line = text.toList.count '\n' + 1 := by
  rw [endPosition_eq_after, Position.line_after, Nat.add_comm]
  rfl

/-- The place where the second of two texts with a line break between them ends. -/
theorem endPosition_newline (s t : String) :
    endPosition (s ++ "\n" ++ t) = (endPosition t).below (endPosition s).line := by
  calc endPosition (s ++ "\n" ++ t)
      = ((endPosition s).next '\n').after t.toList := by
        simp [endPosition_eq_after, Position.after]
    _ = (endPosition t).below (endPosition s).line := by
        rw [Position.next_newline, Position.after_below, endPosition_eq_after t]

/-- Two texts with a line break between them have the tokens of the first one, at their places,
followed by those of the second one, which are found as many lines further down as the first text
and the line break take up, in the same columns. -/
theorem tokens_newline (s t : String) :
    tokens (s ++ "\n" ++ t) = tokens s ++ tokens t ∧
      lexemes (s ++ "\n" ++ t) =
        lexemes s ++ (lexemes t).map (Lexeme.below (s.toList.count '\n' + 1)) ∧
      endPosition (s ++ "\n" ++ t) = (endPosition t).below (s.toList.count '\n' + 1) := by
  rw [← line_endPosition]
  refine ⟨?_, lexemes_newline s t, endPosition_newline s t⟩
  rw [tokens, lexemes_newline, List.map_append, List.map_map, tokens, tokens]
  rfl

end Normative
