import Normative.Proofs.Grammar.Rule

/-!
# The grammar of schemas as a set of rules

The grammar of `Normative.Schema.Grammar`, stated without an order of reading:

```text
schema      := institution item*
institution := INSTITUTION (NAME | WORD | STRING) TYPE? MULTIPLICITY? DOMAIN?
item        := norm | VIOLATION violation | FACT fact | agenda
norm        := NUMBER ROLE DEONTIC aphrase (SCOPE aphrase)? (CONDITIONAL cond (CONJUNCTION cond)*)?
cond        := NORM_REFERENCE NUMBER | phrase
violation   := NORM_REFERENCE? NUMBER (CONJUNCTION NORM_REFERENCE? NUMBER)?
               CONSEQUENCE ROLE DEONTIC? aphrase
fact        := aphrase EVIDENCE aphrase
agenda      := ROLE SEEK ESTABLISH? COMPLIANCE (NAME | STRING)? ADJUDICATE? ROLE?
               (ESSENTIAL | FOLLOWING phrase (CONJUNCTION phrase)*)
phrase      := t t*
aphrase     := t (t | CONJUNCTION)*
```

Here `t` is a lexeme that carries a text and is not a role that opens an agenda. Every derivation
denotes a part of a schema, and a schema is written by a list of lexemes of which nothing remains
after a derivation.

## Main definitions

* `Grammar.Rule.schema` : the rule for a schema, with `Grammar.SchemaTree` for its derivations.
* `Grammar.SchemaTree.schema` : the schema that a derivation denotes.
* `Grammar.SchemaTree.numbers` : the numbers of its norms.
-/

namespace Normative.Grammar

/-! ### Derivations and what they denote -/

/-- The text that a lexeme adds to a phrase. With `joined` the conjunction adds itself as it is
written. -/
def wordText? (joined : Bool) (l : Lexeme) : Option String :=
  match l.token.text? with
  | some text => some text
  | none => if joined && l.token == .conjunction then some l.raw else none

/-- A derivation of a phrase: its first word and the others. -/
abbrev PhraseTree := Leaf String × List (Leaf String)

/-- The text of a phrase: its words joined by single spaces. -/
def PhraseTree.text (d : PhraseTree) : String :=
  " ".intercalate (d.1.value :: d.2.map Leaf.value)

/-- A derivation of a list whose members the conjunction separates. -/
abbrev JoinedTree (δ : Type) := δ × List (Leaf Unit × δ)

/-- The members of a list that the conjunction separates. -/
def JoinedTree.members {δ α : Type} (value : δ → α) (d : JoinedTree δ) : List α :=
  value d.1 :: d.2.map (fun e ↦ value e.2)

/-- A derivation of a condition. -/
abbrev ConditionTree := (Leaf Unit × Leaf NormId) ⊕ PhraseTree

/-- The condition that a derivation denotes. -/
def ConditionTree.condition : ConditionTree → Condition
  | .inl (_, id) => .norm id.value
  | .inr text => .text (PhraseTree.text text)

/-- A derivation of a norm. -/
abbrev NormTree :=
  Leaf NormId × Leaf String × Leaf Deontic × PhraseTree × Option (Leaf Unit × PhraseTree) ×
    Option (Leaf Unit × JoinedTree ConditionTree)

/-- The norm that a derivation denotes. -/
def NormTree.norm : NormTree → Norm
  | (id, role, deontic, action, scope, conditions) =>
    ⟨id.value, role.value, deontic.value, PhraseTree.text action,
      scope.map (fun d ↦ PhraseTree.text d.2),
      (conditions.map (fun d ↦ JoinedTree.members ConditionTree.condition d.2)).getD [],
      .authored⟩

/-- A derivation of a number, before which the word for a norm may stand. -/
abbrev ReferenceTree := Option (Leaf Unit) × Leaf NormId

/-- A derivation of the norms of a violation: one, or two joined by the conjunction. -/
abbrev ViolatedTree := ReferenceTree × Option (Leaf Unit × ReferenceTree)

/-- The violated norms that a derivation denotes. -/
def ViolatedTree.norms : ViolatedTree → ViolatedNorms
  | (first, none) => .single first.2.value
  | (first, some (_, second)) => .compound first.2.value second.2.value

/-- A derivation of a violation without its mark. -/
abbrev ViolationTree :=
  ViolatedTree × Leaf Unit × Leaf String × Option (Leaf Deontic) × PhraseTree

/-- The violation that a derivation denotes. A consequence without a deontic position is a claim
right. -/
def ViolationTree.violation : ViolationTree → Violation
  | (norms, _, role, deontic, consequence) =>
    ⟨ViolatedTree.norms norms, role.value, (deontic.map Leaf.value).getD .claimRight,
      PhraseTree.text consequence⟩

/-- A derivation of a fact without its mark. -/
abbrev FactTree := PhraseTree × Leaf Unit × PhraseTree

/-- The fact that a derivation denotes. -/
def FactTree.fact : FactTree → LegalFact
  | (description, _, evidence) => ⟨PhraseTree.text description, PhraseTree.text evidence⟩

/-- A derivation of what an agenda asks for. -/
abbrev ReliefTree := Leaf Unit ⊕ (Leaf Unit × JoinedTree PhraseTree)

/-- The relief that a derivation denotes. -/
def ReliefTree.relief : ReliefTree → Relief
  | .inl _ => .essential
  | .inr (_, remedies) => .remedies (JoinedTree.members PhraseTree.text remedies)

/-- A derivation of an agenda. -/
abbrev AgendaTree :=
  Leaf String × Leaf Unit × Option (Leaf Unit) × Leaf Compliance × Option (Leaf String) ×
    Option (Leaf Unit) × Option (Leaf String) × ReliefTree

/-- The agenda that a derivation denotes. It concerns the institution of the schema and benefits
the party that seeks it, unless it says otherwise. -/
def AgendaTree.agenda (institutionName : String) : AgendaTree → Agenda
  | (requester, _, _, outcome, institution, _, beneficiary, relief) =>
    ⟨requester.value, outcome.value, (institution.map Leaf.value).getD institutionName,
      (beneficiary.map Leaf.value).getD requester.value, ReliefTree.relief relief⟩

/-- A derivation of an item. -/
abbrev ItemTree :=
  NormTree ⊕ (Leaf Unit × ViolationTree) ⊕ (Leaf Unit × FactTree) ⊕ AgendaTree

namespace ItemTree

/-- The item that a derivation denotes. -/
def item (institutionName : String) : ItemTree → Item
  | .inl d => .norm d.1.lexeme (NormTree.norm d)
  | .inr (.inl d) => .violation (ViolationTree.violation d.2)
  | .inr (.inr (.inl d)) => .fact (FactTree.fact d.2)
  | .inr (.inr (.inr d)) => .agenda (AgendaTree.agenda institutionName d)

/-- The norm that an item denotes. -/
def norm? : ItemTree → Option Norm
  | .inl d => some (NormTree.norm d)
  | _ => none

/-- The violation that an item denotes. -/
def violation? : ItemTree → Option Violation
  | .inr (.inl d) => some (ViolationTree.violation d.2)
  | _ => none

/-- The fact that an item denotes. -/
def fact? : ItemTree → Option LegalFact
  | .inr (.inr (.inl d)) => some (FactTree.fact d.2)
  | _ => none

/-- The agenda that an item denotes. -/
def agenda? (institutionName : String) : ItemTree → Option Agenda
  | .inr (.inr (.inr d)) => some (AgendaTree.agenda institutionName d)
  | _ => none

end ItemTree

/-- The numbers of the norms among items, in the order in which they stand. -/
def itemNumbers (ds : List ItemTree) : List NormId :=
  ds.filterMap (fun d ↦ (ItemTree.norm? d).map Norm.id)

/-- A derivation of the institution that opens a schema. -/
abbrev InstitutionTree :=
  Leaf Unit × Leaf String × Option (Leaf String) × Option (Leaf Multiplicity) ×
    Option (Leaf String)

/-- The institution that a derivation denotes. -/
def InstitutionTree.institution : InstitutionTree → Institution
  | (_, name, typeName, multiplicity, legalDomain) =>
    ⟨name.value, (typeName.map Leaf.value).getD "contrato",
      (multiplicity.map Leaf.value).getD .multiple, (legalDomain.map Leaf.value).getD ""⟩

/-- A derivation of a schema. -/
abbrev SchemaTree := InstitutionTree × List ItemTree

namespace SchemaTree

/-- The schema that a derivation denotes: its institution, and its items of each kind in the order
in which they stand. -/
def schema (d : SchemaTree) : Schema where
  institution := some (InstitutionTree.institution d.1)
  norms := d.2.filterMap ItemTree.norm?
  violations := d.2.filterMap ItemTree.violation?
  facts := d.2.filterMap ItemTree.fact?
  agendas := d.2.filterMap (ItemTree.agenda? (InstitutionTree.institution d.1).name)

/-- The numbers of the norms, in the order in which they stand. -/
def numbers (d : SchemaTree) : List NormId := itemNumbers d.2

end SchemaTree

/-! ### The rules -/

namespace Rule

/-- A word of a phrase, which is not a role that opens an agenda. -/
def word (joined : Bool) : Rule (Leaf String) := fun input d rest ↦
  input = d.lexeme :: rest ∧ opensAgenda input = false ∧ wordText? joined d.lexeme = some d.value

/-- A phrase. With `joined` the conjunction may stand among the words after the first. -/
def phrase (joined : Bool) : Rule PhraseTree := (word false).andThen (word joined).many

/-- One or more occurrences of a rule, separated by the conjunction. -/
def joined {δ : Type} (rule : Rule δ) : Rule (JoinedTree δ) :=
  rule.andThen ((mark .conjunction).andThen rule).many

/-- A condition. -/
def condition : Rule ConditionTree :=
  ((mark .normReference).andThen (terminal number?)).orElse (phrase false)

/-- A norm. -/
def norm : Rule NormTree :=
  (terminal number?).andThen <| (terminal role?).andThen <| (terminal deontic?).andThen <|
    (phrase true).andThen <| ((mark .scope).andThen (phrase true)).opt.andThen
      ((mark .conditional).andThen condition.joined).opt

/-- A reference to a norm by its number. -/
def reference : Rule ReferenceTree := (mark .normReference).opt.andThen (terminal number?)

/-- The norms of a violation. -/
def violatedNorms : Rule ViolatedTree :=
  reference.andThen ((mark .conjunction).andThen reference).opt

/-- A violation without its mark. -/
def violation : Rule ViolationTree :=
  violatedNorms.andThen <| (mark .consequence).andThen <| (terminal role?).andThen <|
    (terminal deontic?).opt.andThen (phrase true)

/-- A fact without its mark. -/
def fact : Rule FactTree := (phrase true).andThen <| (mark .evidence).andThen (phrase true)

/-- What an agenda asks for. -/
def relief : Rule ReliefTree :=
  (mark .essential).orElse ((mark .following).andThen (phrase false).joined)

/-- An agenda. -/
def agenda : Rule AgendaTree :=
  (terminal role?).andThen <| (mark .seek).andThen <| (mark .establish).opt.andThen <|
    (terminal compliance?).andThen <| (terminal referredName?).opt.andThen <|
      (mark .adjudicate).opt.andThen <| (terminal role?).opt.andThen relief

/-- An item. -/
def item : Rule ItemTree :=
  norm.orElse <| ((mark .violation).andThen violation).orElse <|
    ((mark .fact).andThen fact).orElse agenda

/-- The institution that opens a schema. -/
def institution : Rule InstitutionTree :=
  (mark .institution).andThen <| (terminal institutionName?).andThen <|
    (terminal institutionType?).opt.andThen <| (terminal multiplicity?).opt.andThen
      (terminal legalDomain?).opt

/-- A schema. -/
def schema : Rule SchemaTree := institution.andThen item.many

end Rule

end Normative.Grammar
