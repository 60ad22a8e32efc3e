import Normative.Text.Word
import Normative.Token.Classify

/-!
# Lexemes of a text

A text falls into chunks: words, which separators end, and quoted texts, which end at the next
quotation mark or at the end of the line. A quotation mark inside a word is part of the word. Noise
words are dropped and the other chunks are lexemes: tokens with the place where they begin and the
text that was read.

The text is read in one pass, character by character, so the chunks of a text are known from the
state in which the pass is left.

## Main definitions

* `Position` : a line and a column, both counted from one.
* `Chunk`, `Lexeme` : a piece of text, and the token read from it.
* `Scan` : the state of a pass over a text.
* `chunks`, `lexemes`, `tokens` : what a text is made of.
* `finding` : what is found when a text is read token by token.
-/

namespace Normative

/-- A place in a text: its line and its column, both counted from one. -/
structure Position where
  line : Nat
  column : Nat
  deriving DecidableEq

namespace Position

/-- The beginning of a text. -/
def start : Position := ⟨1, 1⟩

/-- The place after a character. -/
def next (p : Position) (c : Char) : Position :=
  if c = '\n' then ⟨p.line + 1, 1⟩ else ⟨p.line, p.column + 1⟩

/-- The place after a list of characters. -/
def after (p : Position) (text : List Char) : Position := text.foldl next p

end Position

/-- A piece of text between separators: a quoted text without its quotation marks, or a word. -/
structure Chunk where
  position : Position
  isQuoted : Bool
  text : List Char
  deriving DecidableEq

/-- A token with the place where it begins and the text from which it was read. -/
structure Lexeme where
  token : Token
  position : Position
  raw : String
  deriving DecidableEq

/-- The lexeme of a chunk; a noise word has none. -/
def Chunk.lexeme? (chunk : Chunk) : Option Lexeme :=
  let raw := String.ofList chunk.text
  if chunk.isQuoted then some ⟨.quoted raw, chunk.position, raw⟩
  else if Token.isNoise raw then none
  else some ⟨Token.classify raw, chunk.position, raw⟩

/-- Whether a character separates words. -/
def isSeparator (c : Char) : Bool := Text.isBlank c || ['.', ',', ':', ';', '[', ']'].contains c

/-- Where a pass over a text stands: between chunks, or inside a chunk that began at a place and
whose characters so far are held in reverse. -/
inductive Scan.Mode where
  | between
  | inWord (start : Position) (reversed : List Char)
  | inQuote (start : Position) (reversed : List Char)
  deriving DecidableEq

/-- A pass over a text: where it stands, the place it has reached, and the chunks it has completed,
the latest first. -/
structure Scan where
  mode : Scan.Mode
  position : Position
  done : List Chunk
  deriving DecidableEq

namespace Scan

/-- The beginning of a pass. -/
def start : Scan := ⟨.between, Position.start, []⟩

/-- Where the pass stands after a character, and the chunk that the character completes. -/
def advance (mode : Mode) (position : Position) (c : Char) : Mode × Option Chunk :=
  match mode with
  | .between =>
    if isSeparator c then (.between, none)
    else if c = '"' then (.inQuote position [], none)
    else (.inWord position [c], none)
  | .inWord start reversed =>
    if isSeparator c then (.between, some ⟨start, false, reversed.reverse⟩)
    else (.inWord start (c :: reversed), none)
  | .inQuote start reversed =>
    if c = '"' || c = '\n' then (.between, some ⟨start, true, reversed.reverse⟩)
    else (.inQuote start (c :: reversed), none)

/-- The pass after one more character. -/
def step (s : Scan) (c : Char) : Scan :=
  let (mode, completed) := advance s.mode s.position c
  ⟨mode, s.position.next c, completed.toList ++ s.done⟩

/-- The chunk that is open at the end of a text. -/
def Mode.open? : Mode → Option Chunk
  | .between => none
  | .inWord start reversed => some ⟨start, false, reversed.reverse⟩
  | .inQuote start reversed => some ⟨start, true, reversed.reverse⟩

/-- The chunks of the text that has been read, if it ends here. -/
def chunks (s : Scan) : List Chunk := s.done.reverse ++ s.mode.open?.toList

/-- The pass over a whole text. -/
def run (text : List Char) : Scan := text.foldl step start

/-- A pass reaches the place after the characters that it reads. -/
theorem position_foldl_step (s : Scan) (text : List Char) :
    (text.foldl step s).position = s.position.after text := by
  induction text generalizing s with
  | nil => rfl
  | cons c text ih => rw [List.foldl_cons, ih]; rfl

end Scan

/-- The chunks of a text. -/
def chunks (text : String) : List Chunk := (Scan.run text.toList).chunks

/-- The lexemes of a text. -/
def lexemes (text : String) : List Lexeme := (chunks text).filterMap Chunk.lexeme?

/-- The place where a text ends, which is where the pass over it is left. -/
def endPosition (text : String) : Position := (Scan.run text.toList).position

/-- A text ends at the place after all of its characters. -/
theorem endPosition_eq_after (text : String) :
    endPosition text = Position.start.after text.toList :=
  Scan.position_foldl_step Scan.start text.toList

/-- The tokens of a text. -/
def tokens (text : String) : List Token := (lexemes text).map Lexeme.token

/-- What is found when the next token of a text is asked for: a token, or the end of the text, with
its place and the text that was read. -/
structure Finding where
  token? : Option Token
  position : Position
  raw : String
  deriving DecidableEq

/-- A lexeme as it is found. -/
def Lexeme.finding (l : Lexeme) : Finding := ⟨some l.token, l.position, l.raw⟩

/-- What is found in a text after `n` tokens. The end is found again as often as it is asked for. -/
def finding (text : String) (n : Nat) : Finding :=
  match (lexemes text)[n]? with
  | some l => l.finding
  | none => ⟨none, endPosition text, ""⟩

end Normative
