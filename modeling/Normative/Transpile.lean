import Normative.Configuration.Review
import Normative.Enrichment
import Normative.FileFault
import Normative.Program.Extension
import Normative.Schema.Parse

/-!
# From a schema text to a program

A text is parsed, reviewed against a configuration, enriched with generated norms, and turned into
a program; a corpus extends the program. Issues and dangling references are warnings: they are
returned along with the result, also if a later step fails.

## Main definitions

* `Warning`, `TranspileFault` : what can be remarked, and what can go wrong.
* `Outcome` : a result with its warnings.
* `transpile` : the program that a schema text stands for.
-/

namespace Normative

/-- A remark that does not stop anything. -/
inductive Warning where
  /-- A value of the schema is not on its list. -/
  | issue (issue : Issue)
  /-- A norm is referred to that does not exist. -/
  | dangling (reference : DanglingReference)
  /-- The program that checks the result ended with an exit status other than zero. -/
  | checkFailed (program : String) (status : Nat)
  /-- The program that checks the result cannot be started. -/
  | checkNotStarted (program : String) (fault : FileFault)
  deriving DecidableEq

/-- The wording of a warning. -/
def Warning.message : Warning → String
  | issue i => "schema validation issue=" ++ i.message
  | dangling reference => reference.message
  | checkFailed program status =>
    "validator rejected output program=" ++ program ++ " status=exit status: " ++ toString status
  | checkNotStarted program fault =>
    "could not run validator program=" ++ program ++ " error=" ++ fault.message

/-- Why a text has no program. -/
inductive TranspileFault where
  | parsing (e : ParseError)
  | enriching (e : Enrichment.IdsExhausted)
  | missingInstitution
  deriving DecidableEq

/-- The wording of a missing institution. -/
def missingInstitutionMessage : String := "schema has no institution"

/-- The step that failed and the cause of its failure. -/
def TranspileFault.causes : TranspileFault → List String
  | parsing e => ["parsing schema", e.message]
  | enriching e => ["enriching schema", e.message]
  | missingInstitution => ["generating Kelsen source", missingInstitutionMessage]

/-- A result with its warnings, in order. -/
structure Outcome (ε α : Type) where
  warnings : List Warning
  result : Except ε α

/-- The numbers of norms, of generated norms among them, and of issues. -/
structure Stats where
  norms : Nat
  generated : Nat
  issues : Nat
  deriving DecidableEq

/-- A schema with its generated norms and their number, unless enrichment is to be skipped. -/
def enrichUnless (skip : Bool) (norms : AutomatedNorms) (schema : Schema) :
    Except Enrichment.IdsExhausted (Schema × Nat) :=
  if skip then .ok (schema, 0) else (schema.enrich norms).map (fun r ↦ (r.1, r.2.total))

/-- The program of a schema, extended by a corpus if there is one. -/
def Schema.programWith? (corpus : Option Corpus) (schema : Schema) : Option Program :=
  match corpus with
  | some corpus => schema.extendedProgram? .byKeyword corpus
  | none => schema.program? .byKeyword

/-- The program that a schema text stands for. -/
def transpile (configuration : Configuration) (corpus : Option Corpus) (skipEnrichment : Bool)
    (text : String) : Outcome TranspileFault (Program × Stats) :=
  match Schema.parse text with
  | .error e => ⟨[], .error (.parsing e)⟩
  | .ok parsed =>
    let issues := configuration.review parsed
    let remarks := issues.map Warning.issue
    match enrichUnless skipEnrichment configuration.automatedNorms parsed with
    | .error e => ⟨remarks, .error (.enriching e)⟩
    | .ok (schema, generated) =>
      match schema.programWith? corpus with
      | none => ⟨remarks, .error .missingInstitution⟩
      | some program =>
        ⟨remarks ++ schema.danglingReferences.map Warning.dangling,
          .ok (program, ⟨schema.norms.length, generated, issues.length⟩)⟩

end Normative
