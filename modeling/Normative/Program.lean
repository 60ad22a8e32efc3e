import Normative.Asset

/-!
# Programs in the Kelsen language

A program is a list of statements: declarations of texts, subjects, assets, clauses, facts and
agendas, with comments and blank lines between them. A clause states that a deontic position holds
of an asset under the premises that other assets are given, or are not.

## Main definitions

* `Premise`, `Claim`, `Statement` : the parts of a program.
* `Statement.render`, `Program.render` : how they are written.
-/

namespace Normative

/-- A premise of a clause. -/
inductive Premise where
  /-- The asset is given. -/
  | holds (asset : String)
  /-- The asset is not given. -/
  | fails (asset : String)
  deriving DecidableEq

/-- A premise as it is written. -/
def Premise.render : Premise → String
  | holds asset => asset
  | fails asset => "not(" ++ asset ++ ")"

/-- The asset that a premise names. -/
def Premise.asset : Premise → String
  | holds asset | fails asset => asset

/-- What an agenda lists after the institution. -/
inductive Claim where
  /-- Assets of the program. -/
  | assets (names : List String)
  /-- Remedies in words. -/
  | remedies (texts : List String)
  deriving DecidableEq

/-- The end of an agenda as it is written: assets on the same line, remedies as comments on lines
of their own. -/
def Claim.render : Claim → String
  | assets names => String.join (names.map (", " ++ ·))
  | remedies texts => String.join (texts.map ("\n    // " ++ ·)) ++ "\n"

/-- A statement of a program, or the space between statements. -/
inductive Statement where
  | blank
  | comment (text : String)
  /-- A named text. -/
  | text (name value : String)
  /-- A subject that plays a role. -/
  | subject (name role : String)
  /-- An asset that goes from one subject to another and is described by a named text. -/
  | asset (name : String) (type : AssetType) (giver text receiver : String)
  | clause (name : String) (premises : List Premise) (deontic : Deontic) (conclusion : String)
  /-- A fact about an asset. -/
  | fact (name asset description evidence : String)
  | agenda (name : String) (outcome : Compliance) (institution : String) (claim : Claim)
  deriving DecidableEq

namespace Statement

/-- A text in quotation marks. -/
def quoted (text : String) : String := "\"" ++ text ++ "\""

/-- A text in braces. -/
def braced (text : String) : String := "\x7b" ++ text ++ "\x7d"

/-- A declaration: a keyword, a name and what the name stands for. -/
def declaration (keyword name body : String) : String :=
  keyword ++ " " ++ name ++ " = " ++ body ++ ";\n"

/-- A statement as it is written, with the end of its line. -/
def render : Statement → String
  | blank => "\n"
  | comment words => "// " ++ words ++ "\n"
  | text name value => declaration "string" name (quoted value)
  | subject name role =>
    declaration "subject" name
      (", ".intercalate [quoted ("Placeholder " ++ role), quoted "Placeholder address", "12345678",
        quoted ("placeholder" ++ role ++ "@example.com")])
  | asset name type giver description receiver =>
    declaration "asset" name (", ".intercalate [type.text, giver, description, receiver])
  | clause name premises deontic conclusion =>
    declaration "clause" name
      (braced (" " ++ " AND ".intercalate (premises.map Premise.render) ++ ", " ++
        deontic.operator ++ "(" ++ conclusion ++ ") "))
  | fact name related description evidence =>
    declaration "fact" name (", ".intercalate [related, quoted description, quoted evidence])
  | agenda name outcome institution claim =>
    declaration "agenda" name (outcome.operator ++ " " ++ braced (institution ++ claim.render))

end Statement

/-- A program. -/
abbrev Program := List Statement

/-- A program as it is written. -/
def Program.render (program : Program) : String := String.join (program.map Statement.render)

end Normative
