import Mathlib.Algebra.Ring.Parity
import Normative.Proofs.Program.Lines

/-!
# Quotation marks in a program

The lines of a program that are not comments have quotation marks around their literals, and these
come in pairs. So a line of code has quotation marks in pairs exactly if the texts that stand in it
have.

## Main definitions

* `Text.quotes` : the number of quotation marks in a text.
* `Statement.codeQuotes` : the number of quotation marks that the texts of a statement bring along.
* `Program.IsBalanced` : a program whose lines of code have quotation marks in pairs.

## Main results

* `Statement.even_lines_iff` : the lines of a statement have quotation marks in pairs exactly if the
  texts in its code have.
* `Program.isBalanced_iff` : the same for the lines of a program as it is written.
-/

namespace Normative

namespace Text

/-- The number of quotation marks in a text. -/
def quotes (text : String) : Nat := text.toList.count '"'

/-- Whether a line is a comment. -/
def isComment (line : List Char) : Bool := ['/', '/'].isPrefixOf (line.dropWhile (· == ' '))

theorem isComment_eq_false {line : List Char} {c : Char} (h : line.head? = some c)
    (hspace : c ≠ ' ') (hslash : c ≠ '/') : isComment line = false := by
  obtain ⟨rest, rfl⟩ := List.head?_eq_some_iff.mp h
  have hdrop : (c :: rest).dropWhile (· == ' ') = c :: rest :=
    List.dropWhile_cons_of_neg (by simpa using hspace)
  rw [isComment, hdrop, List.isPrefixOf_cons_cons]
  simp [hslash.symm]

@[simp] theorem quotes_append (text text' : String) :
    quotes (text ++ text') = quotes text + quotes text' := by
  simp [quotes]

@[simp] theorem quotes_join (list : List String) :
    quotes (String.join list) = (list.map quotes).sum := by
  rw [quotes, String.toList_join, List.count_flatMap]
  rfl

theorem quotes_intercalate {separator : String} (h : quotes separator = 0) (list : List String) :
    quotes (separator.intercalate list) = (list.map quotes).sum := by
  induction list with
  | nil => rfl
  | cons text list ih =>
    cases list with
    | nil => simp
    | cons next list =>
      rw [String.intercalate_cons_cons, quotes_append, quotes_append, h, ih]
      simp

theorem quotes_comma (list : List String) :
    quotes (", ".intercalate list) = (list.map quotes).sum :=
  quotes_intercalate rfl list

theorem quotes_eq_zero {p : Char → Prop} {text : String} (h : Over p text) (hp : ¬ p '"') :
    quotes text = 0 :=
  List.count_eq_zero.mpr fun hmem ↦ hp (h _ hmem)

end Text

open Text (quotes)

namespace Statement

/-- The number of quotation marks that the texts in the code of a statement have. -/
def codeQuotes (statement : Statement) : Nat := (statement.codeTexts.map quotes).sum

@[simp] theorem codeQuotes_blank : blank.codeQuotes = 0 := rfl

@[simp] theorem codeQuotes_comment (words : String) : (comment words).codeQuotes = 0 := rfl

@[simp] theorem codeQuotes_text (name value : String) :
    (text name value).codeQuotes = quotes name + quotes value := by
  simp [codeQuotes, codeTexts]

@[simp] theorem codeQuotes_subject (name role : String) :
    (subject name role).codeQuotes = quotes name + (quotes role + quotes role) := by
  simp [codeQuotes, codeTexts]

@[simp] theorem codeQuotes_asset (name : String) (type : AssetType)
    (giver description receiver : String) :
    (asset name type giver description receiver).codeQuotes =
      quotes name + quotes giver + quotes description + quotes receiver := by
  simp [codeQuotes, codeTexts, Nat.add_assoc]

@[simp] theorem codeQuotes_clause (name : String) (premises : List Premise) (deontic : Deontic)
    (conclusion : String) :
    (clause name premises deontic conclusion).codeQuotes =
      quotes name + quotes conclusion + (premises.map fun p ↦ quotes p.asset).sum := by
  simp [codeQuotes, codeTexts, Nat.add_assoc, Function.comp_def]

@[simp] theorem codeQuotes_fact (name related description evidence : String) :
    (fact name related description evidence).codeQuotes =
      quotes name + quotes related + quotes description + quotes evidence := by
  simp [codeQuotes, codeTexts, Nat.add_assoc]

@[simp] theorem codeQuotes_assets (name : String) (outcome : Compliance) (institution : String)
    (names : List String) :
    (agenda name outcome institution (.assets names)).codeQuotes =
      quotes name + quotes institution + (names.map quotes).sum := by
  simp [codeQuotes, codeTexts, Nat.add_assoc]

@[simp] theorem codeQuotes_remedies (name : String) (outcome : Compliance) (institution : String)
    (texts : List String) :
    (agenda name outcome institution (.remedies texts)).codeQuotes =
      quotes name + quotes institution := by
  simp [codeQuotes, codeTexts]

theorem quotes_quoted (text : String) : quotes (quoted text) = quotes text + 2 := by
  have hmark : quotes "\"" = 1 := rfl
  simp only [quoted, Text.quotes_append, hmark]
  omega

theorem quotes_braced (text : String) : quotes (braced text) = quotes text := by
  have hfixed : quotes "\x7b" = 0 ∧ quotes "\x7d" = 0 := by decide
  simp only [braced, Text.quotes_append, hfixed]
  omega

theorem quotes_declarationLine {keyword : String} (hkeyword : quotes keyword = 0)
    (name body : String) :
    quotes (declarationLine keyword name body) = quotes name + quotes body := by
  have hfixed : quotes " " = 0 ∧ quotes " = " = 0 ∧ quotes ";" = 0 := ⟨rfl, rfl, rfl⟩
  simp only [declarationLine, Text.quotes_append, hkeyword, hfixed]
  omega

theorem quotes_premises (premises : List Premise) :
    (premises.map Premise.render).map quotes = premises.map fun p ↦ quotes p.asset := by
  rw [List.map_map]
  refine List.map_congr_left fun premise _ ↦ ?_
  cases premise with
  | holds asset => rfl
  | fails asset =>
    have hnegation : quotes "not(" = 0 ∧ quotes ")" = 0 := by decide
    simp [Premise.render, Premise.asset, hnegation]

theorem quotes_assets (names : List String) :
    quotes (Claim.assets names).render = (names.map quotes).sum := by
  have hnames : (names.map (", " ++ ·)).map quotes = names.map quotes := by
    rw [List.map_map]
    refine List.map_congr_left fun asset _ ↦ ?_
    have hcomma : quotes ", " = 0 := rfl
    simp [hcomma]
  rw [Claim.render, Text.quotes_join, hnames]

/-- A declaration is one line of code, since its keyword begins no comment. -/
theorem even_lines_iff_of_declaration {statement : Statement} {keyword name body : String}
    {c : Char} (hlines : statement.lines = [String.ofList statement.render.toList.dropLast])
    (hrender : statement.render = declaration keyword name body)
    (hkeyword : keyword.toList.head? = some c ∧ c ≠ ' ' ∧ c ≠ '/' ∧ quotes keyword = 0)
    (hquotes : (quotes name + quotes body) % 2 = statement.codeQuotes % 2) :
    (∀ line ∈ statement.lines, Text.isComment line.toList = false → Even (quotes line)) ↔
      Even statement.codeQuotes := by
  obtain ⟨hhead, hspace, hslash, hnone⟩ := hkeyword
  have hcode : Text.isComment (declarationLine keyword name body).toList = false :=
    Text.isComment_eq_false (c := c) (by simp [declarationLine, hhead]) hspace hslash
  rw [hlines, hrender, List.forall_mem_singleton, toList_declaration, List.dropLast_concat,
    String.ofList_toList, quotes_declarationLine hnone, Nat.even_iff, Nat.even_iff, hquotes]
  exact ⟨fun h ↦ h hcode, fun h _ ↦ h⟩

/-- Of an agenda with remedies only the lines that open and close it are code. -/
theorem even_lines_iff_of_remedies (name : String) (outcome : Compliance) (institution : String)
    (texts : List String) :
    (∀ line ∈ (agenda name outcome institution (.remedies texts)).lines,
      Text.isComment line.toList = false → Even (quotes line)) ↔
      Even (agenda name outcome institution (.remedies texts)).codeQuotes := by
  have hquotes : quotes (agendaLine name outcome institution) =
      (agenda name outcome institution (.remedies texts)).codeQuotes := by
    have hfixed : quotes "agenda " = 0 ∧ quotes " = " = 0 ∧ quotes " \x7b" = 0 ∧
      quotes outcome.operator = 0 := by cases outcome <;> decide
    simp only [agendaLine, codeQuotes_remedies, Text.quotes_append, hfixed]
    omega
  have hcode : Text.isComment (agendaLine name outcome institution).toList = false :=
    Text.isComment_eq_false (c := 'a') (by simp [agendaLine]) (by decide) (by decide)
  rw [lines, List.forall_mem_append, List.forall_mem_append, List.forall_mem_map,
    List.forall_mem_singleton, List.forall_mem_singleton, hquotes]
  refine ⟨fun h ↦ h.1.1 hcode, fun h ↦ ⟨⟨fun _ ↦ h, fun text _ hremark ↦ ?_⟩, by decide⟩⟩
  simp [Text.isComment] at hremark

/-- The lines of code of a statement have quotation marks in pairs exactly if the texts in them
do. -/
theorem even_lines_iff (statement : Statement) :
    (∀ line ∈ statement.lines, Text.isComment line.toList = false → Even (quotes line)) ↔
      Even statement.codeQuotes := by
  cases statement with
  | blank => exact iff_of_true (by decide) (by decide)
  | comment words =>
    refine iff_of_true (List.forall_mem_singleton.mpr fun hcode ↦ ?_) ⟨0, rfl⟩
    simp [render, Text.isComment] at hcode
  | text name value =>
    refine even_lines_iff_of_declaration rfl rfl ⟨rfl, by decide⟩ ?_
    simp only [codeQuotes_text, quotes_quoted]
    omega
  | subject name role =>
    have hfixed : quotes "Placeholder " = 0 ∧ quotes "Placeholder address" = 0 ∧
      quotes "12345678" = 0 ∧ quotes "placeholder" = 0 ∧ quotes "@example.com" = 0 := by decide
    refine even_lines_iff_of_declaration rfl rfl ⟨rfl, by decide⟩ ?_
    simp only [codeQuotes_subject, List.map_cons, List.map_nil, List.sum_cons, List.sum_nil,
      Text.quotes_comma, quotes_quoted, Text.quotes_append, hfixed]
    omega
  | asset name type giver description receiver =>
    have htype : quotes type.text = 0 := by obtain ⟨_ | _ | _, _ | _⟩ := type <;> rfl
    refine even_lines_iff_of_declaration rfl rfl ⟨rfl, by decide⟩ ?_
    simp only [codeQuotes_asset, List.map_cons, List.map_nil, List.sum_cons, List.sum_nil,
      Text.quotes_comma, htype]
    omega
  | clause name premises deontic conclusion =>
    have hfixed : quotes " " = 0 ∧ quotes ", " = 0 ∧ quotes "(" = 0 ∧ quotes ") " = 0 ∧
      quotes deontic.operator = 0 := by cases deontic <;> decide
    refine even_lines_iff_of_declaration rfl rfl ⟨rfl, by decide⟩ ?_
    simp only [codeQuotes_clause, quotes_braced, Text.quotes_append,
      Text.quotes_intercalate (rfl : quotes " AND " = 0), quotes_premises, hfixed]
    omega
  | fact name related description evidence =>
    refine even_lines_iff_of_declaration rfl rfl ⟨rfl, by decide⟩ ?_
    simp only [codeQuotes_fact, List.map_cons, List.map_nil, List.sum_cons, List.sum_nil,
      Text.quotes_comma, quotes_quoted]
    omega
  | agenda name outcome institution claim =>
    cases claim with
    | assets names =>
      have hfixed : quotes " " = 0 ∧ quotes outcome.operator = 0 := by cases outcome <;> decide
      refine even_lines_iff_of_declaration rfl rfl ⟨rfl, by decide⟩ ?_
      simp only [codeQuotes_assets, quotes_assets, quotes_braced, Text.quotes_append, hfixed]
      omega
    | remedies texts => exact even_lines_iff_of_remedies name outcome institution texts

end Statement

/-- A program in which every line of code has quotation marks in pairs. -/
def Program.IsBalanced (program : Program) : Prop :=
  ∀ line ∈ Text.lines program.render, Text.isComment line = false → Even (line.count '"')

theorem Program.isBalanced_iff {program : Program} (h : ∀ s ∈ program, s.IsUnbroken) :
    program.IsBalanced ↔ ∀ s ∈ program, Even s.codeQuotes := by
  have hend : ∀ line ∈ [([] : List Char)], Text.isComment line = false → Even (line.count '"') :=
    List.forall_mem_singleton.mpr fun _ ↦ ⟨0, rfl⟩
  rw [IsBalanced, lines_render h, List.forall_mem_append, List.forall_mem_map, and_iff_left hend]
  constructor
  · exact fun hlines s hs ↦ s.even_lines_iff.mp fun line hline ↦
      hlines line (List.mem_flatMap.mpr ⟨s, hs, hline⟩)
  · intro hquotes line hline
    obtain ⟨s, hs, hline⟩ := List.mem_flatMap.mp hline
    exact s.even_lines_iff.mpr (hquotes s hs) line hline

end Normative
