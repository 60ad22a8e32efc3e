import Mathlib.Data.List.Forall2
import Normative.Proofs.Program.Declaration
import Normative.Proofs.Schema.Alphabet

/-!
# The lines of a program

A statement is written on one line, except for an agenda that lists remedies: these are comments on
lines of their own, between the line that opens the agenda and the one that closes it. The lines of
a program as it is written are those of its statements, with an empty line at the end. If the texts
of a program have line breaks, the lines of a statement are broken further.

## Main definitions

* `Text.lines` : the lines of a text.
* `Statement.lines` : the lines of a statement.
* `Program.ShowsDeclarations` : a program whose declarations can be told from its lines.
* `Statement.codeTexts`, `Statement.remarkTexts` : the texts that stand in the code and in the
  comments of a statement.

## Main results

* `Program.lines_render_eq` : the lines of a program are those of its statements, broken or not.
* `Program.lines_render` : the lines of a program none of whose texts breaks a line.
* `Program.showsDeclarations` : its lines show its declarations.
-/

namespace Normative

/-- The lines of a text. -/
def Text.lines (text : String) : List (List Char) := text.toList.splitOn '\n'

open Text (IsLine)

theorem Text.lines_of_isLine {text : String} (h : IsLine text) : lines text = [text.toList] :=
  List.splitOn_eq_singleton (isLine_iff.mp h)

/-- Texts that are written one after the other, each with a line break after it, have the lines that
they have by themselves. -/
theorem Text.splitOn_flatMap (list : List String) :
    (list.flatMap (fun text ↦ text.toList ++ ['\n'])).splitOn '\n' =
      list.flatMap lines ++ [[]] := by
  induction list with
  | nil => exact List.splitOn_nil '\n'
  | cons text list ih =>
    rw [List.flatMap_cons, List.append_assoc, List.singleton_append,
      List.splitOn_append_cons_self, ih, List.flatMap_cons, List.append_assoc]
    rfl

namespace Statement

/-! ### The texts of a statement -/

/-- The texts that stand in the code of a statement, as often as they do. -/
def codeTexts : Statement → List String
  | blank | comment _ => []
  | text name value => [name, value]
  | subject name role => [name, role, role]
  | asset name _ giver description receiver => [name, giver, description, receiver]
  | clause name premises _ conclusion => name :: conclusion :: premises.map Premise.asset
  | fact name related description evidence => [name, related, description, evidence]
  | agenda name _ institution (.assets names) => name :: institution :: names
  | agenda name _ institution (.remedies _) => [name, institution]

/-- The texts of the comments of a statement. -/
def remarkTexts : Statement → List String
  | comment words => [words]
  | agenda _ _ _ (.remedies texts) => texts
  | _ => []

/-- A statement none of whose texts breaks a line. -/
def IsUnbroken (statement : Statement) : Prop :=
  ∀ text ∈ statement.codeTexts ++ statement.remarkTexts, IsLine text

@[simp] theorem isUnbroken_blank : blank.IsUnbroken := by
  simp [IsUnbroken, codeTexts, remarkTexts]

@[simp] theorem isUnbroken_comment {words : String} :
    (comment words).IsUnbroken ↔ IsLine words := by
  simp [IsUnbroken, codeTexts, remarkTexts]

@[simp] theorem isUnbroken_text {name value : String} :
    (text name value).IsUnbroken ↔ IsLine name ∧ IsLine value := by
  simp [IsUnbroken, codeTexts, remarkTexts]

@[simp] theorem isUnbroken_subject {name role : String} :
    (subject name role).IsUnbroken ↔ IsLine name ∧ IsLine role := by
  simp [IsUnbroken, codeTexts, remarkTexts]

@[simp] theorem isUnbroken_asset {name giver description receiver : String} {type : AssetType} :
    (asset name type giver description receiver).IsUnbroken ↔
      IsLine name ∧ IsLine giver ∧ IsLine description ∧ IsLine receiver := by
  simp [IsUnbroken, codeTexts, remarkTexts]

@[simp] theorem isUnbroken_clause {name conclusion : String} {premises : List Premise}
    {deontic : Deontic} :
    (clause name premises deontic conclusion).IsUnbroken ↔
      IsLine name ∧ (∀ premise ∈ premises, IsLine premise.asset) ∧ IsLine conclusion := by
  simp [IsUnbroken, codeTexts, remarkTexts, and_comm]

@[simp] theorem isUnbroken_fact {name related description evidence : String} :
    (fact name related description evidence).IsUnbroken ↔
      IsLine name ∧ IsLine related ∧ IsLine description ∧ IsLine evidence := by
  simp [IsUnbroken, codeTexts, remarkTexts]

@[simp] theorem isUnbroken_assets {name institution : String} {outcome : Compliance}
    {names : List String} :
    (agenda name outcome institution (.assets names)).IsUnbroken ↔
      IsLine name ∧ IsLine institution ∧ ∀ asset ∈ names, IsLine asset := by
  simp [IsUnbroken, codeTexts, remarkTexts]

@[simp] theorem isUnbroken_remedies {name institution : String} {outcome : Compliance}
    {texts : List String} :
    (agenda name outcome institution (.remedies texts)).IsUnbroken ↔
      IsLine name ∧ IsLine institution ∧ ∀ text ∈ texts, IsLine text := by
  simp [IsUnbroken, codeTexts, remarkTexts]

/-! ### The lines of a statement -/

/-- The line of a declaration. -/
def declarationLine (keyword name body : String) : String :=
  keyword ++ " " ++ name ++ " = " ++ body ++ ";"

/-- The line that opens an agenda with remedies. -/
def agendaLine (name : String) (outcome : Compliance) (institution : String) : String :=
  "agenda " ++ name ++ " = " ++ outcome.operator ++ " \x7b" ++ institution

/-- A statement as it is written, without the line break at its end. -/
def line (statement : Statement) : String := String.ofList statement.render.toList.dropLast

/-- The lines of a statement. -/
def lines : Statement → List String
  | agenda name outcome institution (.remedies texts) =>
    [agendaLine name outcome institution] ++ texts.map ("    // " ++ ·) ++ ["\x7d;"]
  | statement => [String.ofList statement.render.toList.dropLast]

theorem toList_declaration (keyword name body : String) :
    (declaration keyword name body).toList =
      (declarationLine keyword name body).toList ++ ['\n'] := by
  simp [declaration, declarationLine]

theorem line_blank : blank.line = "" := by simp [line, render]

theorem line_comment (words : String) : (comment words).line = "// " ++ words := by
  have hrender : (comment words).render.toList = ("// " ++ words).toList ++ ['\n'] := by
    simp [render]
  rw [line, hrender, List.dropLast_concat, String.ofList_toList]

/-- The line of a declaration, without the line break. -/
theorem ofList_dropLast_declaration (keyword name body : String) :
    String.ofList (declaration keyword name body).toList.dropLast =
      declarationLine keyword name body := by
  rw [toList_declaration, List.dropLast_concat, String.ofList_toList]

/-- Comments that begin with a line break, and comments that end with one. -/
theorem flatMap_newline_append (texts : List String) :
    texts.flatMap (fun text ↦ ("\n    // " ++ text).toList) ++ ['\n'] =
      '\n' :: texts.flatMap (fun text ↦ ("    // " ++ text).toList ++ ['\n']) := by
  induction texts with
  | nil => rfl
  | cons text texts ih =>
    rw [List.flatMap_cons, List.append_assoc, ih, List.flatMap_cons]
    simp

/-- A statement as it is written consists of its lines. -/
theorem toList_render (statement : Statement) :
    statement.render.toList = statement.lines.flatMap (fun line ↦ line.toList ++ ['\n']) := by
  have hone (line : String) (h : statement.render.toList = line.toList ++ ['\n']) :
      statement.render.toList =
        [String.ofList statement.render.toList.dropLast].flatMap
          (fun line ↦ line.toList ++ ['\n']) := by
    simp [h]
  cases statement with
  | blank => exact hone "" (by simp [render])
  | comment words => exact hone ("// " ++ words) (by simp [render])
  | agenda name outcome institution claim =>
    cases claim with
    | assets names => exact hone _ (toList_declaration _ _ _)
    | remedies texts =>
      -- Remedies are written with a line break before each of them, and lines end with one.
      calc (render (agenda name outcome institution (.remedies texts))).toList
        _ = (agendaLine name outcome institution).toList ++
              (texts.flatMap (fun text ↦ ("\n    // " ++ text).toList) ++ ['\n']) ++
              ['\x7d', ';', '\n'] := by
            simp [render, declaration, braced, Claim.render, agendaLine, String.toList_join,
              List.flatMap_map]
        _ = _ := by
            rw [flatMap_newline_append]
            simp [lines, List.flatMap_map]
  | _ => exact hone _ (toList_declaration _ _ _)

/-- The lines of a statement are lines exactly if its texts are. -/
theorem isLine_lines_iff {statement : Statement} :
    (∀ line ∈ statement.lines, IsLine line) ↔ statement.IsUnbroken := by
  have hone (line : String) (hrender : statement.render.toList = line.toList ++ ['\n']) :
      (∀ line' ∈ [String.ofList statement.render.toList.dropLast], IsLine line') ↔
        IsLine line := by
    rw [List.forall_mem_singleton, hrender, List.dropLast_concat, String.ofList_toList]
  cases statement with
  | blank =>
    refine (hone "" (by simp [render])).trans ?_
    simp +decide
  | comment words =>
    refine (hone ("// " ++ words) (by simp [render])).trans ?_
    simp +decide [Text.isLine_append]
  | text name value =>
    refine (hone _ (toList_declaration _ _ _)).trans ?_
    simp +decide [declarationLine, quoted, Text.isLine_append]
  | subject name role =>
    refine (hone _ (toList_declaration _ _ _)).trans ?_
    simp +decide [declarationLine, quoted, Text.isLine_append]
  | asset name type giver description receiver =>
    have htype : IsLine type.text := by obtain ⟨_ | _ | _, _ | _⟩ := type <;> decide
    refine (hone _ (toList_declaration _ _ _)).trans ?_
    simp +decide [declarationLine, Text.isLine_append, htype]
  | clause name premises deontic conclusion =>
    have hdeontic : IsLine deontic.operator := by cases deontic <;> decide
    have hpremise (premise : Premise) : IsLine premise.render ↔ IsLine premise.asset := by
      cases premise <;> simp +decide [Premise.render, Premise.asset, Text.isLine_append]
    refine (hone _ (toList_declaration _ _ _)).trans ?_
    simp +decide [declarationLine, braced, Text.isLine_append, hdeontic, Text.isLine_intercalate,
      hpremise]
  | fact name related description evidence =>
    refine (hone _ (toList_declaration _ _ _)).trans ?_
    simp +decide [declarationLine, quoted, Text.isLine_append]
  | agenda name outcome institution claim =>
    have houtcome : IsLine outcome.operator := by cases outcome <;> decide
    cases claim with
    | assets names =>
      refine (hone _ (toList_declaration _ _ _)).trans ?_
      simp +decide [declarationLine, braced, Claim.render, Text.isLine_append, Text.isLine_join,
        houtcome]
    | remedies texts =>
      rw [lines, List.forall_mem_append, List.forall_mem_append, List.forall_mem_map,
        List.forall_mem_singleton, List.forall_mem_singleton]
      simp +decide [agendaLine, Text.isLine_append, houtcome, and_assoc]

end Statement

/-- The lines of a program are those of the lines of its statements, which may be broken, with an
empty one at the end. -/
theorem Program.lines_render_eq (program : Program) :
    Text.lines program.render = (program.flatMap Statement.lines).flatMap Text.lines ++ [[]] := by
  rw [← Text.splitOn_flatMap, Text.lines]
  simp only [Program.render, String.toList_join, List.flatMap_map, List.flatMap_assoc,
    Statement.toList_render]

/-- If no text breaks a line, the lines of a program are those of its statements. -/
theorem Program.lines_render {program : Program} (h : ∀ s ∈ program, s.IsUnbroken) :
    Text.lines program.render =
      (program.flatMap Statement.lines).map String.toList ++ [[]] := by
  have hline : ∀ line ∈ program.flatMap Statement.lines, Text.lines line = [line.toList] := by
    intro line hline
    obtain ⟨s, hs, hline⟩ := List.mem_flatMap.mp hline
    exact Text.lines_of_isLine (Statement.isLine_lines_iff.mpr (h s hs) line hline)
  rw [lines_render_eq, List.map_eq_flatMap, List.flatMap_def, List.map_congr_left hline,
    ← List.flatMap_def]

theorem Program.mem_lines_render {program : Program} {statement : Statement}
    (hstatement : statement ∈ program) {text : String} (htext : text ∈ statement.lines)
    {line : List Char} (hline : line ∈ Text.lines text) : line ∈ Text.lines program.render := by
  rw [lines_render_eq]
  exact List.mem_append_left _ (List.mem_flatMap.mpr
    ⟨text, List.mem_flatMap.mpr ⟨statement, hstatement, htext⟩, hline⟩)

/-! ### Lines that open declarations -/

/-- The word with which the declarations of a kind begin. -/
def DeclarationKind.keyword : DeclarationKind → String
  | text => "string"
  | subject => "subject"
  | asset => "asset"
  | clause => "clause"
  | fact => "fact"
  | agenda => "agenda"

/-- Whether a line begins like a declaration of a kind. -/
def DeclarationKind.opens (kind : DeclarationKind) (line : List Char) : Bool :=
  (kind.keyword ++ " ").toList.isPrefixOf line

namespace Statement

variable {statement : Statement} {kind : DeclarationKind}

/-- The first line of a statement. -/
def opening : Statement → String
  | agenda name outcome institution (.remedies _) => agendaLine name outcome institution
  | statement => statement.line

theorem opening_eq_line (hkind : kind ≠ .agenda) (h : (statement.name? kind).isSome) :
    statement.opening = statement.line := by
  cases statement with
  | agenda => simp [name?, hkind] at h
  | _ => rfl

theorem opens_declarationLine (kind kind' : DeclarationKind) (name body : String) :
    kind.opens (declarationLine kind'.keyword name body).toList = decide (kind = kind') := by
  cases kind <;> cases kind' <;>
    simp [DeclarationKind.opens, DeclarationKind.keyword, declarationLine,
      List.isPrefixOf_cons_cons]

theorem opens_agendaLine (kind : DeclarationKind) (name : String) (outcome : Compliance)
    (institution : String) :
    kind.opens (agendaLine name outcome institution).toList = decide (kind = .agenda) := by
  cases kind <;>
    simp [DeclarationKind.opens, DeclarationKind.keyword, agendaLine, List.isPrefixOf_cons_cons]

theorem opens_cons_eq_false (kind : DeclarationKind) {c : Char} (hc : c ∉ ['a', 'c', 'f', 's'])
    (line : List Char) : kind.opens (c :: line) = false := by
  simp only [List.mem_cons, List.not_mem_nil, or_false, not_or] at hc
  cases kind <;>
    simp [DeclarationKind.opens, DeclarationKind.keyword, List.isPrefixOf_cons_cons, Ne.symm, hc]

theorem filter_lines_of_declaration (kind' : DeclarationKind) {name body : String}
    (hrender : statement.render = declaration kind'.keyword name body)
    (hlines : statement.lines = [statement.line]) (hopening : statement.opening = statement.line)
    (hname : statement.name? kind = if kind = kind' then some name else none) :
    statement.lines.filter (fun line ↦ kind.opens line.toList) =
      if (statement.name? kind).isSome then [statement.opening] else [] := by
  have hline : statement.line = declarationLine kind'.keyword name body := by
    rw [line, hrender, ofList_dropLast_declaration]
  rw [hlines, hname, hopening, hline]
  by_cases h : kind = kind' <;> simp [opens_declarationLine, h]

/-- A line of a statement begins like a declaration of a kind if the statement is one and the line
is its first. -/
theorem filter_lines (kind : DeclarationKind) (statement : Statement) :
    statement.lines.filter (fun line ↦ kind.opens line.toList) =
      if (statement.name? kind).isSome then [statement.opening] else [] := by
  cases statement with
  | blank => cases kind <;> rfl
  | comment words =>
    have hlines : (comment words).lines = [(comment words).line] := rfl
    rw [hlines, line_comment]
    simp [opens_cons_eq_false, name?]
  | text => exact filter_lines_of_declaration .text rfl rfl rfl rfl
  | subject => exact filter_lines_of_declaration .subject rfl rfl rfl rfl
  | asset => exact filter_lines_of_declaration .asset rfl rfl rfl rfl
  | clause => exact filter_lines_of_declaration .clause rfl rfl rfl rfl
  | fact => exact filter_lines_of_declaration .fact rfl rfl rfl rfl
  | agenda name outcome institution claim =>
    cases claim with
    | assets => exact filter_lines_of_declaration .agenda rfl rfl rfl rfl
    | remedies texts =>
      by_cases hkind : kind = .agenda <;>
        simp [lines, name?, opening, hkind, opens_agendaLine, opens_cons_eq_false]

theorem declares_of_declaration (kind' : DeclarationKind) {name name' body : String}
    (hrender : statement.render = declaration kind'.keyword name' body)
    (hopening : statement.opening = statement.line)
    (h : (if kind = kind' then some name' else none) = some name) :
    (kind.keyword ++ " " ++ name ++ " = ").toList <+: statement.opening.toList := by
  obtain ⟨rfl, hname⟩ := Option.ite_none_right_eq_some.mp h
  obtain rfl := Option.some.inj hname
  rw [hopening, line, hrender, ofList_dropLast_declaration]
  simp [declarationLine]

/-- The first line of a declaration begins with its kind and its name. -/
theorem declares_opening {name : String} (h : statement.name? kind = some name) :
    (kind.keyword ++ " " ++ name ++ " = ").toList <+: statement.opening.toList := by
  cases statement with
  | blank | comment => simp [name?] at h
  | text => exact declares_of_declaration .text rfl rfl h
  | subject => exact declares_of_declaration .subject rfl rfl h
  | asset => exact declares_of_declaration .asset rfl rfl h
  | clause => exact declares_of_declaration .clause rfl rfl h
  | fact => exact declares_of_declaration .fact rfl rfl h
  | agenda name' outcome institution claim =>
    cases claim with
    | assets => exact declares_of_declaration .agenda rfl rfl h
    | remedies texts =>
      obtain ⟨rfl, hname⟩ := Option.ite_none_right_eq_some.mp h
      obtain rfl := Option.some.inj hname
      simp [opening, agendaLine, DeclarationKind.keyword]

end Statement

/-- The lines of a program show its declarations: those that begin like declarations of a kind are
the first lines of the declarations of that kind, and they begin with the names that these
declare. -/
structure Program.ShowsDeclarations (program : Program) : Prop where
  openings : ∀ kind : DeclarationKind, (Text.lines program.render).filter kind.opens =
    (program.filter fun s ↦ (s.name? kind).isSome).map fun s ↦ s.opening.toList
  names : ∀ kind : DeclarationKind, List.Forall₂
    (fun line name ↦ (kind.keyword ++ " " ++ name ++ " = ").toList <+: line)
    ((Text.lines program.render).filter kind.opens) (names kind program)

/-- If no text breaks a line, the lines that begin like declarations of a kind are the first lines
of the declarations. -/
theorem Program.filter_opens_lines (kind : DeclarationKind) {program : Program}
    (h : ∀ s ∈ program, s.IsUnbroken) :
    (Text.lines program.render).filter kind.opens =
      (program.filter fun s ↦ (s.name? kind).isSome).map fun s ↦ s.opening.toList := by
  have hend : [[]].filter kind.opens = [] := by cases kind <;> rfl
  have hstatements : (program.flatMap Statement.lines).filter (fun line ↦ kind.opens line.toList) =
      (program.filter fun s ↦ (s.name? kind).isSome).map Statement.opening := by
    rw [List.filter_flatMap]
    simp only [Statement.filter_lines kind]
    induction program with
    | nil => rfl
    | cons s program ih =>
      rw [List.flatMap_cons, ih fun s hs ↦ h s (List.mem_cons_of_mem _ hs), List.filter_cons]
      split <;> rfl
  rw [lines_render h, List.filter_append, hend, List.append_nil, List.filter_map]
  exact (congrArg (List.map String.toList) hstatements).trans List.map_map

theorem Program.showsDeclarations {program : Program} (h : ∀ s ∈ program, s.IsUnbroken) :
    program.ShowsDeclarations where
  openings kind := filter_opens_lines kind h
  names kind := by
    rw [filter_opens_lines kind h, List.forall₂_map_left_iff, names]
    clear h
    induction program with
    | nil => exact .nil
    | cons s program ih =>
      cases hname : s.name? kind with
      | none =>
        rw [List.filter_cons_of_neg (by simp [hname]), List.filterMap_cons_none hname]
        exact ih
      | some name =>
        rw [List.filter_cons_of_pos (by simp [hname]), List.filterMap_cons_some hname]
        exact .cons (Statement.declares_opening hname) ih

end Normative
