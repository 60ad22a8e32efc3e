import Mathlib.Data.List.TakeWhile
import Normative.Proofs.Program.Naming
import Normative.Proofs.Program.Quotation
import Normative.Text.Word

/-!
# Statements that break their lines

A text that breaks a line leaves its later lines on lines of their own. In a program these are read
like any other line, so a text within a comment may declare an asset or a clause that the program
does not state.

A program is contained if this does not happen: the lines that declare assets and clauses are those
of its own statements, and all other lines are blank, comments, or declarations of its own texts.
Comments may then have line breaks as long as their later lines are harmless, but declarations may
not.

## Main definitions

* `Text.firstLine`, `Text.laterLines` : the first line of a text, and the others.
* `Text.isOperative` : whether a line begins like the declaration of an asset or a clause.
* `Text.IsInert` : a line that is blank, a comment, or one of the listed declarations.
* `Text.IsHarmless` : a text whose later lines may stand in a program.
* `Text.IsContained` : lines that declare what is listed and nothing else.
* `Statement.KeepsTo` : a statement that leaves no line that is read as something else.

## Main results

* `Program.isContained_iff` : a program is contained exactly if its statements are.
-/

namespace Normative

open Text (IsLine)

namespace Text

/-! ### The first line of a text and the others -/

/-- The first line of a text. -/
def firstLine (text : String) : List Char := text.toList.takeWhile (· ≠ '\n')

/-- The lines of a text after the first. -/
def laterLines (text : String) : List (List Char) := (lines text).tail

theorem firstLine_eq_iff {text : String} : firstLine text = text.toList ↔ IsLine text := by
  rw [firstLine, List.takeWhile_eq_self_iff]
  simp [Over]

theorem laterLines_of_isLine {text : String} (h : IsLine text) : laterLines text = [] := by
  rw [laterLines, lines_of_isLine h, List.tail_cons]

/-- A text that is not a line has a first line break. -/
theorem exists_eq_append_of_not_isLine {text : String} (h : ¬ IsLine text) :
    ∃ before after, text.toList = before ++ '\n' :: after ∧ '\n' ∉ before :=
  List.eq_append_cons_of_mem (Classical.not_not.mp (mt isLine_iff.mpr h))

theorem lines_eq_cons (text : String) : lines text = firstLine text :: laterLines text := by
  by_cases h : IsLine text
  · rw [laterLines_of_isLine h, lines_of_isLine h, firstLine_eq_iff.mpr h]
  · obtain ⟨before, after, htext, hbefore⟩ := exists_eq_append_of_not_isLine h
    have hfirst : firstLine text = before := by
      rw [firstLine, htext, List.takeWhile_append_of_pos fun c hc ↦ by
        simpa using ne_of_mem_of_not_mem hc hbefore]
      simp
    rw [laterLines, lines, hfirst, htext, List.splitOn_append_cons_self_of_not_mem hbefore]
    rfl

theorem firstLine_append {text : String} (h : IsLine text) (text' : String) :
    firstLine (text ++ text') = text.toList ++ firstLine text' := by
  rw [firstLine, String.toList_append, List.takeWhile_append_of_pos fun c hc ↦ by
    simpa using h c hc, firstLine]

/-- What follows a text that breaks a line is not on its first line. -/
theorem firstLine_append_of_not_isLine {text : String} (h : ¬ IsLine text) (text' : String) :
    firstLine (text ++ text') = firstLine text := by
  rw [firstLine, String.toList_append, List.takeWhile_append, if_neg, firstLine]
  intro hlength
  exact h (firstLine_eq_iff.mp ((List.takeWhile_prefix _).eq_of_length hlength))

theorem laterLines_append {text : String} (h : IsLine text) (text' : String) :
    laterLines (text ++ text') = laterLines text' := by
  by_cases h' : IsLine text'
  · rw [laterLines_of_isLine (isLine_append.mpr ⟨h, h'⟩), laterLines_of_isLine h']
  · obtain ⟨before, after, htext', hbefore⟩ := exists_eq_append_of_not_isLine h'
    have hlead : '\n' ∉ text.toList ++ before := by
      simpa using ⟨isLine_iff.mp h, hbefore⟩
    rw [laterLines, lines, String.toList_append, htext', ← List.append_assoc,
      List.splitOn_append_cons_self_of_not_mem hlead, laterLines, lines, htext',
      List.splitOn_append_cons_self_of_not_mem hbefore]
    rfl

theorem prefix_firstLine_iff {word : List Char} (h : '\n' ∉ word) {text : String} :
    word <+: firstLine text ↔ word <+: text.toList := by
  refine ⟨fun hword ↦ hword.trans (List.takeWhile_prefix _), ?_⟩
  rintro ⟨rest, hrest⟩
  rw [firstLine, ← hrest, List.takeWhile_append_of_pos fun c hc ↦ by
    simpa using ne_of_mem_of_not_mem hc h]
  exact List.prefix_append _ _

/-! ### Lines that declare something -/

/-- Whether a line begins like the declaration of an asset or of a clause. -/
def isOperative (line : List Char) : Bool :=
  "asset ".toList.isPrefixOf line || "clause ".toList.isPrefixOf line

/-- A line that is blank, a comment, or one of the listed declarations. -/
def IsInert (declarations : List String) (line : List Char) : Prop :=
  line.all isBlank = true ∨ "//".toList <+: line ∨ line ∈ declarations.map String.toList

/-- A text that may stand in a comment: its later lines are not operative, and they are inert. -/
def IsHarmless (declarations : List String) (text : String) : Prop :=
  ∀ line ∈ laterLines text, isOperative line = false ∧ IsInert declarations line

/-- Lines of which those that declare assets and clauses are listed, in order, and of which the
others are inert. -/
structure IsContained (operative declarations : List String) (lines : List (List Char)) : Prop where
  filter_eq : lines.filter isOperative = operative.map String.toList
  isInert : ∀ line ∈ lines, isOperative line = false → IsInert declarations line

theorem isHarmless_of_isLine {declarations : List String} {text : String} (h : IsLine text) :
    IsHarmless declarations text := by
  simp [IsHarmless, laterLines_of_isLine h]

theorem isOperative_iff {line : List Char} :
    isOperative line = true ↔ "asset ".toList <+: line ∨ "clause ".toList <+: line := by
  rw [isOperative, Bool.or_eq_true, List.isPrefixOf_iff_prefix, List.isPrefixOf_iff_prefix]

/-- Later lines that are comments do no harm. -/
theorem isHarmless_of_comments {declarations : List String} {text : String}
    (h : (laterLines text).all ("//".toList.isPrefixOf ·) = true) :
    IsHarmless declarations text := by
  intro line hline
  obtain ⟨rest, rfl⟩ := List.isPrefixOf_iff_prefix.mp (List.all_eq_true.mp h line hline)
  exact ⟨by simp [isOperative, List.isPrefixOf_cons_cons], .inr (.inl (List.prefix_append _ _))⟩

/-- Whether a text is operative is seen on its first line. -/
theorem isOperative_firstLine (text : String) :
    isOperative (firstLine text) = isOperative text.toList := by
  rw [Bool.eq_iff_iff, isOperative_iff, isOperative_iff, prefix_firstLine_iff (by decide),
    prefix_firstLine_iff (by decide)]

/-- Every operative text has an operative line. -/
theorem length_filter_isOperative_le (texts : List String) :
    ((texts.map String.toList).filter isOperative).length ≤
      ((texts.flatMap lines).filter isOperative).length := by
  induction texts with
  | nil => exact Nat.le_refl 0
  | cons text texts ih =>
    rw [List.map_cons, List.flatMap_cons, lines_eq_cons, List.cons_append, List.filter_cons,
      List.filter_cons, isOperative_firstLine, List.filter_append]
    split <;> simp <;> omega

/-- If texts are broken into lines, the operative lines among these are the operative texts exactly
if the operative texts are lines and no later line of a text is operative. -/
theorem filter_flatMap_lines_iff (texts : List String) :
    (texts.flatMap lines).filter isOperative = (texts.map String.toList).filter isOperative ↔
      ∀ text ∈ texts, (isOperative text.toList = true → IsLine text) ∧
        ∀ line ∈ laterLines text, isOperative line = false := by
  induction texts with
  | nil => simp
  | cons text texts ih =>
    rw [List.forall_mem_cons]
    refine Iff.trans ?_ (and_congr_right' ih)
    rw [List.map_cons, List.flatMap_cons, lines_eq_cons, List.cons_append, List.filter_cons,
      List.filter_cons, isOperative_firstLine, List.filter_append]
    cases hop : isOperative text.toList with
    | false =>
      have hlater : (laterLines text).filter isOperative ++ (texts.flatMap lines).filter isOperative
          = (texts.map String.toList).filter isOperative ↔
          (laterLines text).filter isOperative = [] ∧ (texts.flatMap lines).filter isOperative =
            (texts.map String.toList).filter isOperative := by
        refine ⟨fun h ↦ ?_, fun h ↦ by rw [h.1, h.2, List.nil_append]⟩
        -- A line too many is not made up for by the other texts.
        have hnil : (laterLines text).filter isOperative = [] := by
          have hle := length_filter_isOperative_le texts
          rw [← h, List.length_append] at hle
          exact List.eq_nil_of_length_eq_zero (by omega)
        rw [hnil, List.nil_append] at h
        exact ⟨hnil, h⟩
      simpa [List.filter_eq_nil_iff] using hlater
    | true =>
      rw [if_pos rfl, if_pos rfl, List.cons.injEq, firstLine_eq_iff]
      constructor
      · rintro ⟨hline, h⟩
        rw [laterLines_of_isLine hline] at h ⊢
        exact ⟨⟨fun _ ↦ hline, by simp⟩, h⟩
      · rintro ⟨⟨hline, -⟩, h⟩
        rw [laterLines_of_isLine (hline rfl)]
        exact ⟨hline rfl, h⟩

end Text

namespace Statement

/-- Whether a statement declares an asset or a clause. -/
def isOperative : Statement → Bool
  | asset .. | clause .. => true
  | _ => false

/-- Whether a statement declares a text. -/
def isText : Statement → Bool
  | text .. => true
  | _ => false

/-- The statements of which an extension consists. The name of a text is a derived name, and the
text itself has no quotation marks. -/
def IsSimple : Statement → Prop
  | text name value => Text.Over Identifier.IsNameChar name ∧ Text.quotes value = 0
  | subject .. | fact .. | agenda .. => False
  | _ => True

/-- A statement that leaves no line that is read as something else: a declaration keeps to its
line, and the later lines of a comment do no harm. -/
def KeepsTo (declarations : List String) : Statement → Prop
  | comment words => Text.IsHarmless declarations words
  | statement => statement.IsUnbroken

variable {statement : Statement}

theorem isOperative_of_isSilent (h : statement.isSilent = true) :
    statement.isOperative = false := by
  cases statement <;> trivial

theorem isText_of_isSilent (h : statement.isSilent = true) : statement.isText = false := by
  cases statement <;> trivial

theorem isText_of_isOperative (h : statement.isOperative = true) : statement.isText = false := by
  cases statement <;> trivial

theorem isSimple_of_isSilent (h : statement.isSilent = true) : statement.IsSimple := by
  cases statement <;> trivial

theorem isSimple_of_isOperative (h : statement.isOperative = true) : statement.IsSimple := by
  cases statement <;> trivial

theorem line_text (name value : String) :
    (text name value).line = "string " ++ name ++ " = \"" ++ (value ++ "\";") := by
  rw [line, render, ofList_dropLast_declaration]
  simp [declarationLine, quoted, ← String.toList_inj]

theorem line_asset (name : String) (type : AssetType) (giver description receiver : String) :
    (asset name type giver description receiver).line =
      "asset " ++ name ++ " = " ++ type.text ++ ", " ++ giver ++ ", " ++ description ++ ", " ++
        receiver ++ ";" := by
  rw [line, render, ofList_dropLast_declaration]
  simp [declarationLine, ← String.toList_inj]

theorem line_clause (name : String) (premise : Premise) (deontic : Deontic) (conclusion : String) :
    (clause name [premise] deontic conclusion).line =
      "clause " ++ name ++ " = \x7b " ++ premise.render ++ ", " ++ deontic.operator ++ "(" ++
        conclusion ++ ") \x7d;" := by
  rw [line, render, ofList_dropLast_declaration]
  simp [declarationLine, braced, ← String.toList_inj]

theorem lines_of_isSimple (h : statement.IsSimple) : statement.lines = [statement.line] := by
  cases statement with
  | agenda => exact h.elim
  | _ => rfl

theorem isLine_line_iff (h : statement.IsSimple) :
    IsLine statement.line ↔ statement.IsUnbroken := by
  rw [← isLine_lines_iff, lines_of_isSimple h, List.forall_mem_singleton]

/-- Whether a statement is operative is seen at the beginning of its line. -/
theorem isOperative_line (h : statement.IsSimple) :
    Text.isOperative statement.line.toList = statement.isOperative := by
  cases statement with
  | blank =>
    rw [line_blank]
    rfl
  | comment words =>
    rw [line_comment]
    simp [Text.isOperative, isOperative, List.isPrefixOf_cons_cons]
  | subject | fact | agenda => exact h.elim
  | _ =>
    rw [line, render, ofList_dropLast_declaration]
    simp [Text.isOperative, declarationLine, isOperative, List.isPrefixOf_cons_cons]

/-- The declaration of a text has two quotation marks. -/
theorem quotes_line_of_isText (h : statement.IsSimple) (htext : statement.isText = true) :
    Text.quotes statement.line = 2 := by
  cases statement with
  | text name value =>
    obtain ⟨hname, hvalue⟩ := h
    rw [line, render, ofList_dropLast_declaration, quotes_declarationLine rfl, quotes_quoted,
      Text.quotes_eq_zero hname (by simp [Identifier.IsNameChar]), hvalue]
  | _ => simp [isText] at htext

/-- The first line of a text that breaks its line has one quotation mark, so it is no declaration
of a text. -/
theorem isLine_of_firstLine {name value : String} (h : (text name value).IsSimple)
    {declarations : List String} (hdeclarations : ∀ text ∈ declarations, Text.quotes text = 2)
    (hinert : Text.IsInert declarations (Text.firstLine (text name value).line)) :
    IsLine value := by
  obtain ⟨hname, hvalue⟩ := h
  by_contra hbroken
  have hlead : IsLine ("string " ++ name ++ " = \"") := by
    simpa +decide [Text.isLine_append] using Identifier.isLine_of_over hname
  rw [line_text, Text.firstLine_append hlead, Text.firstLine_append_of_not_isLine hbroken] at hinert
  rcases hinert with hblank | hcomment | hmem
  · simp +decide at hblank
  · simp at hcomment
  · obtain ⟨declaration, hdeclaration, heq⟩ := List.mem_map.mp hmem
    have hfirst : (Text.firstLine value).count '"' = 0 :=
      Nat.le_zero.mp (hvalue ▸ (List.takeWhile_sublist _).count_le '"')
    have hcount : Text.quotes declaration = 1 := by
      rw [Text.quotes, heq, List.count_append, hfirst]
      simpa [Text.quotes] using Text.quotes_eq_zero hname (by simp [Identifier.IsNameChar])
    have htwo := hdeclarations declaration hdeclaration
    omega

/-- A statement of a program keeps to itself exactly if an operative one keeps to its line, no later
line is operative, and the other lines are inert. -/
theorem keepsTo_iff (h : statement.IsSimple) {declarations : List String}
    (hdeclarations : ∀ text ∈ declarations, Text.quotes text = 2)
    (hmem : statement.isText = true → statement.line ∈ declarations) :
    ((Text.isOperative statement.line.toList = true → IsLine statement.line) ∧
        ∀ line ∈ Text.laterLines statement.line, Text.isOperative line = false) ∧
      (∀ line ∈ Text.lines statement.line, Text.isOperative line = false →
        Text.IsInert declarations line) ↔
    statement.KeepsTo declarations := by
  have hunbroken := isLine_line_iff h
  have hop := isOperative_line h
  rw [hop, Text.lines_eq_cons, List.forall_mem_cons, Text.isOperative_firstLine, hop]
  cases statement with
  | blank =>
    simp +decide [line_blank, Text.laterLines_of_isLine, KeepsTo, Text.IsInert, Text.firstLine]
  | comment words =>
    have hlater : Text.laterLines ("// " ++ words) = Text.laterLines words :=
      Text.laterLines_append (by decide) words
    have hinert : Text.IsInert declarations (Text.firstLine ("// " ++ words)) :=
      .inr (.inl ((Text.prefix_firstLine_iff (by decide)).mpr ⟨' ' :: words.toList, by simp⟩))
    rw [line_comment, hlater]
    simp only [isOperative, KeepsTo, Text.IsHarmless, hinert]
    grind
  | text name value =>
    constructor
    · rintro ⟨-, hinert, -⟩
      exact isUnbroken_text.mpr ⟨Identifier.isLine_of_over h.1,
        isLine_of_firstLine h hdeclarations (hinert rfl)⟩
    · intro hkeeps
      have hline := hunbroken.mpr hkeeps
      rw [Text.laterLines_of_isLine hline, Text.firstLine_eq_iff.mpr hline]
      exact ⟨⟨fun _ ↦ hline, by simp⟩, fun _ ↦ .inr (.inr (List.mem_map_of_mem (hmem rfl))),
        by simp⟩
  | asset | clause =>
    constructor
    · rintro ⟨⟨hline, -⟩, -⟩
      exact hunbroken.mp (hline rfl)
    · intro hkeeps
      have hline := hunbroken.mpr hkeeps
      rw [Text.laterLines_of_isLine hline]
      exact ⟨⟨fun _ ↦ hline, by simp⟩, fun hfalse ↦ by simp [isOperative] at hfalse, by simp⟩
  | subject | fact | agenda => exact h.elim

end Statement

namespace Program

open Text (isOperative IsInert IsContained laterLines)

/-- The operative lines of a program, as they are written. -/
def operativeLines (program : Program) : List String :=
  (program.filter Statement.isOperative).map Statement.line

/-- The declarations of the texts of a program, as they are written. -/
def textLines (program : Program) : List String :=
  (program.filter Statement.isText).map Statement.line

section Simple

variable {program : Program} (h : ∀ s ∈ program, s.IsSimple)
include h

theorem flatMap_lines_eq : program.flatMap Statement.lines = program.map Statement.line := by
  rw [List.map_eq_flatMap, List.flatMap_def, List.map_congr_left fun s hs ↦
    Statement.lines_of_isSimple (h s hs), ← List.flatMap_def]

theorem filter_map_line :
    ((program.map Statement.line).map String.toList).filter isOperative =
      program.operativeLines.map String.toList := by
  have hfilter : program.filter (isOperative ∘ String.toList ∘ Statement.line) =
      program.filter Statement.isOperative := by
    refine List.filter_congr fun s hs ↦ ?_
    rw [Function.comp_apply, Function.comp_apply, Statement.isOperative_line (h s hs)]
  rw [operativeLines, List.map_map, List.map_map, List.filter_map, hfilter]

theorem quotes_of_mem_textLines : ∀ text ∈ program.textLines, Text.quotes text = 2 := by
  intro text htext
  obtain ⟨s, hs, rfl⟩ := List.mem_map.mp htext
  obtain ⟨hs, hisText⟩ := List.mem_filter.mp hs
  exact Statement.quotes_line_of_isText (h s hs) hisText

/-- The lines of a program declare what its statements declare, and nothing else, exactly if every
statement keeps to itself. -/
theorem isContained_iff :
    IsContained program.operativeLines program.textLines (Text.lines program.render) ↔
      ∀ s ∈ program, s.KeepsTo program.textLines := by
  have hkeeps (s : Statement) (hs : s ∈ program) :=
    Statement.keepsTo_iff (h s hs) (quotes_of_mem_textLines h)
      fun hisText ↦ List.mem_map_of_mem (List.mem_filter.mpr ⟨hs, hisText⟩)
  -- The empty line at the end is neither operative nor harmful.
  have hfilter : ((program.map Statement.line).flatMap Text.lines ++ [[]]).filter isOperative =
        program.operativeLines.map String.toList ↔
      ∀ s ∈ program, (isOperative s.line.toList = true → IsLine s.line) ∧
        ∀ line ∈ laterLines s.line, isOperative line = false := by
    have hend : [[]].filter isOperative = [] := rfl
    rw [List.filter_append, hend, List.append_nil, ← filter_map_line h]
    exact (Text.filter_flatMap_lines_iff _).trans List.forall_mem_map
  have hinert : (∀ line ∈ (program.map Statement.line).flatMap Text.lines ++ [[]],
        isOperative line = false → IsInert program.textLines line) ↔
      ∀ s ∈ program, ∀ line ∈ Text.lines s.line, isOperative line = false →
        IsInert program.textLines line := by
    have hend : IsInert program.textLines [] := .inl rfl
    rw [List.forall_mem_append, List.forall_mem_flatMap, List.forall_mem_map,
      List.forall_mem_singleton, and_iff_left fun _ ↦ hend]
  rw [lines_render_eq, flatMap_lines_eq h]
  constructor
  · rintro ⟨hoperative, hothers⟩ s hs
    exact (hkeeps s hs).mp ⟨hfilter.mp hoperative s hs, hinert.mp hothers s hs⟩
  · intro hall
    exact ⟨hfilter.mpr fun s hs ↦ ((hkeeps s hs).mpr (hall s hs)).1,
      hinert.mpr fun s hs ↦ ((hkeeps s hs).mpr (hall s hs)).2⟩

end Simple

end Program

end Normative
