import Normative.Corpus.Citation
import Normative.Program.Draft

/-!
# The extension of a program by a corpus

Every norm of a corpus that applies to the institution of a schema adds a text to the program. If
both of its parties are known it also adds an asset between them and a clause; unless the parties
are the two canonical roles of the institution, the asset and the clause are repeated with the
parties exchanged. The extension ends with the norms of the corpus to which the authored norms of
the schema are related.

Names must not clash. The name of a text comes from the action and is changed until neither the
program nor the extension uses it; the names of assets and clauses come from the key of the norm
and are changed until the extension does not use them.

## Main definitions

* `firstFree` : the first of a sequence of names that is not taken.
* `Extension` : the extension as it grows.
* `Extension.program` : the extension as a program.
* `Schema.extendedProgram?` : the program of a schema with its extension.
-/

namespace Normative

open Text (sameFold occursIn)

/-- The first name of a sequence, from a given place on, that is not taken. After `fuel` names that
are taken, the next one is returned as it is. -/
def firstFree (taken : String → Bool) (candidate : Nat → String) : Nat → Nat → String
  | 0, n => candidate n
  | fuel + 1, n =>
    if taken (candidate n) then firstFree taken candidate fuel (n + 1) else candidate n

/-- An extension as it grows: the names of the texts and the stems of the assets and clauses that
it has defined, and its statements by kind. -/
structure Extension where
  textNames : List String
  stems : List String
  texts : Program
  assets : Program
  clauses : Program
  deriving DecidableEq

namespace Extension

/-- The extension without statements. -/
def empty : Extension := ⟨[], [], [], [], []⟩

/-- What the statements of an extension depend on: the written program that is extended, the name
of the institution, its canonical roles, and the classifier. -/
structure Setting where
  base : String
  institution : String
  firstRole : String
  secondRole : String
  classifier : Classifier

/-- Whether a program as it is written declares a text with a name. -/
def declaresText (base name : String) : Bool := occursIn ("string " ++ name ++ " =") base

/-- The names that are tried for a text: the variable name of the action, then that name with a
lead, then also with a number. -/
def textCandidate (variableName : String) : Nat → String
  | 0 => variableName
  | 1 => "legal_" ++ variableName
  | n => "legal_" ++ variableName ++ "_" ++ toString n

/-- The name of the text of an action. There are at most as many declarations in the program as it
has characters, so a name is free after that many further ones. -/
def textName (setting : Setting) (extension : Extension) (action : String) : String :=
  firstFree (fun name ↦ declaresText setting.base name || extension.textNames.contains name)
    (textCandidate (Identifier.variableName action))
    (setting.base.length + extension.textNames.length + 3) 0

/-- A key as a name: every character but an ASCII letter or digit becomes an underscore. -/
def keyName (key : String) : String :=
  Identifier.letterFirst
    (String.ofList (key.toList.map (fun c ↦ if c.isAlphanum then c else '_'))) "norma_"

/-- The stems that are tried for a norm: its key, then also the key of its source, then also a
number. -/
def stemCandidate (sourceKey normKey : String) : Nat → String
  | 0 => keyName normKey
  | 1 => keyName (sourceKey ++ "_" ++ normKey)
  | n => keyName (sourceKey ++ "_" ++ normKey) ++ "_" ++ toString n

/-- The stem of the names of the asset and the clause of a norm. -/
def stem (extension : Extension) (sourceKey normKey : String) : String :=
  firstFree extension.stems.contains (stemCandidate sourceKey normKey)
    (extension.stems.length + 3) 0

/-- A norm of a corpus that applies to the institution. -/
structure Applicable where
  entry : Corpus.Entry
  id : String
  details : Corpus.Structure
  action : String
  deriving DecidableEq

/-- The norm as one that applies to an institution, if it does and has an identifier and an
action. -/
def applicable? (institution : String) (entry : Corpus.Entry) : Option Applicable := do
  let id ← entry.norm.id
  let details ← entry.norm.structure?
  let action ← details.action
  if details.appliesTo institution then some ⟨entry, id, details, action⟩ else none

/-- The comments in front of a norm. -/
def remarks (setting : Setting) (norm : Applicable) : Program :=
  let source := norm.entry.source.name.getD norm.entry.sourceKey
  let context := norm.entry.norm.context
  [.comment ("Source: " ++ source ++ " - " ++ norm.id)] ++
  (norm.entry.norm.derivedFrom.map (fun parent ↦
    Statement.comment ("Derived from: " ++ parent))).toList ++
  (if context.isEmpty then [] else [.comment ("Context: " ++ ", ".intercalate context)]) ++
  [.comment ("Note: Applies to " ++ setting.institution ++ " (in conditions list)")]

/-- A party in the spelling of the canonical role that it names, if it names one. -/
def canonicalRole (setting : Setting) (role : String) : String :=
  if sameFold role setting.firstRole then setting.firstRole
  else if sameFold role setting.secondRole then setting.secondRole
  else role

/-- Whether two parties are the two canonical roles, in either order. -/
def areCanonical (setting : Setting) (giver receiver : String) : Bool :=
  (sameFold giver setting.firstRole && sameFold receiver setting.secondRole) ||
    (sameFold giver setting.secondRole && sameFold receiver setting.firstRole)

/-- The assets between two parties. -/
def partyAssets (setting : Setting) (norm : Applicable) (stem text giver receiver : String) :
    Program :=
  let type : AssetType := ⟨setting.classifier.objectKind norm.details.object, .positive⟩
  let giverSubject := Identifier.subject giver
  let receiverSubject := Identifier.subject receiver
  .asset (stem ++ "Asset") type giverSubject text receiverSubject ::
    if areCanonical setting giver receiver then []
    else [.asset (stem ++ "Asset_Reciprocal") type receiverSubject text giverSubject]

/-- The clauses between two parties. -/
def partyClauses (setting : Setting) (norm : Applicable) (stem giver receiver : String) :
    Program :=
  let premises := [Premise.holds setting.institution]
  let deontic := Deontic.ofCorpusName norm.details.deontic
  .clause (stem ++ "_obligation") premises deontic (stem ++ "Asset") ::
    if areCanonical setting giver receiver then []
    else [.clause (stem ++ "_obligation_reciprocal") premises deontic (stem ++ "Asset_Reciprocal")]

/-- The two parties of a norm, if both are known: the one that benefits and the one that is
bound. -/
def parties? (setting : Setting) (norm : Applicable) : Option (String × String) := do
  return (canonicalRole setting (← norm.details.active),
    canonicalRole setting (← norm.details.passive))

/-- Add a norm to an extension. -/
def addNorm (setting : Setting) (extension : Extension) (norm : Applicable) : Extension :=
  let text := extension.textName setting norm.action
  let extended : Extension :=
    { extension with
      textNames := extension.textNames ++ [text]
      texts := extension.texts ++ [.text text (Identifier.literal norm.action)]
      assets := extension.assets ++ remarks setting norm }
  match parties? setting norm with
  | none => { extended with assets := extended.assets ++ [.blank] }
  | some (giver, receiver) =>
    let stem := extension.stem norm.entry.sourceKey norm.entry.normKey
    { extended with
      stems := extension.stems ++ [stem]
      assets := extended.assets ++ partyAssets setting norm stem text giver receiver ++ [.blank]
      clauses := extension.clauses ++ partyClauses setting norm stem giver receiver }

/-- A line of one character, repeated. -/
def rule (c : Char) : Statement := .comment (String.ofList (List.replicate 73 c))

/-- The header of a section. -/
def header (title : String) : Program := [rule '-', .comment title, rule '-', .blank]

/-- The norms of a source that apply to an institution. -/
def applicableNorms (institution sourceKey : String) (source : Corpus.Source) : List Applicable :=
  source.norms.entries.filterMap (fun n ↦ applicable? institution ⟨sourceKey, source, n.1, n.2⟩)

/-- Add the norms of a source to an extension, under a header if there are any. -/
def addSource (setting : Setting) (extension : Extension) (source : String × Corpus.Source) :
    Extension :=
  match applicableNorms setting.institution source.1 source.2 with
  | [] => extension
  | norms =>
    norms.foldl (addNorm setting)
      { extension with assets := extension.assets ++ header ("Assets from " ++ source.1) }

/-- The extension that a corpus gives. -/
def ofCorpus (setting : Setting) (corpus : Corpus) : Extension :=
  corpus.sources.entries.foldl (addSource setting) empty

/-- An extension as a program: texts, assets and clauses under their headers. -/
def program (extension : Extension) : Program :=
  [.blank, rule '=', .comment "LEGAL CONTEXT EXTENSIONS", rule '=', .blank] ++
  (if extension.texts.isEmpty then []
    else [.comment "String definitions for legal context actions"] ++ extension.texts ++
      [.blank]) ++
  extension.assets ++
  (if extension.clauses.isEmpty then []
    else header "Obligation clauses from legal sources" ++ extension.clauses)

/-- The citations of a norm under a line that names it; nothing for a norm without citations. -/
def normCitations (corpus : Corpus) (contractType : String) (norm : Norm) : Program :=
  match corpus.citations norm contractType with
  | [] => []
  | citations =>
    [.comment ("Norm " ++ norm.id.decimal ++ ": " ++
      " ".intercalate [norm.role, norm.deontic.keyword, norm.action])] ++
    citations.map (fun c ↦ .comment c.text) ++ [.blank]

/-- The citations of the authored norms of a schema. -/
def schemaCitations (corpus : Corpus) (contractType : String) (schema : Schema) : Program :=
  match schema.authored.flatMap (normCitations corpus contractType) with
  | [] => []
  | notes => [.blank] ++ header "Legal annotations" ++ notes

end Extension

open Extension in
/-- What a corpus adds to the program of a schema. -/
def Schema.extension (classifier : Classifier) (corpus : Corpus) (schema : Schema)
    (institution : Institution) (base : Program) : Program :=
  let (firstRole, secondRole) := corpus.institutionRoles institution.name
  let setting : Setting := ⟨base.render, institution.name, firstRole, secondRole, classifier⟩
  (ofCorpus setting corpus).program ++
    schemaCitations corpus (Text.lowercase institution.name) schema

/-- The program of a schema with what a corpus adds to it, if the schema has an institution. -/
def Schema.extendedProgram? (classifier : Classifier) (corpus : Corpus) (schema : Schema) :
    Option Program :=
  schema.institution.map (fun institution ↦
    let base := (schema.draft institution classifier).program
    base ++ schema.extension classifier corpus institution base)

end Normative
