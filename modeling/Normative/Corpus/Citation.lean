import Normative.Corpus.RoleTable
import Normative.Norm

/-!
# Citations of a corpus

A norm of a schema is related to the norms of a corpus that share a verb with its action, share a
noun with its object, or bind the same party. Norms of a corpus are cited if they can be named: the
source has a name and a kind, and the norm has an identifier and an action.

## Main definitions

* `Citation` : the reference to a norm of a corpus.
* `Corpus.citations` : the norms of a corpus to which a norm is related.
* `Corpus.annotations?` : the citations of a norm as comments.
-/

namespace Normative

open Text (occursIn sameFold)

/-- A reference to a norm of a corpus. -/
structure Citation where
  source : String
  id : String
  action : String
  deriving DecidableEq

/-- The wording of a citation. -/
def Citation.text (c : Citation) : String :=
  "Related to " ++ c.source ++ ": " ++ c.id ++ " - " ++ c.action

/-- A citation as a comment on a line of its own. -/
def Citation.line (c : Citation) : String := "// " ++ c.text ++ "\n"

namespace Corpus

/-- The verbs that relate two actions. -/
def keyVerbs : List String := ["entregar", "pagar", "reparar", "garantizar", "transferir"]

/-- The nouns that relate two objects. -/
def keyNouns : List String := ["bien", "producto", "precio", "pago", "servicio", "inmueble"]

/-- Whether two texts mention one of the words. -/
def shareWord (words : List String) (a b : String) : Bool :=
  words.any (fun w ↦ occursIn w a && occursIn w b)

/-- Whether the object of a norm and that of a structure share a noun. -/
def sharesObject (norm : Normative.Norm) (s : Structure) : Bool :=
  match norm.scope, s.object with
  | some scope, some object => shareWord keyNouns scope object
  | _, _ => false

/-- Whether a structure binds the role of a norm, directly or as a generic role. -/
def bindsRole (mapRole : String → String) (norm : Normative.Norm) (s : Structure) : Bool :=
  s.passive.any (fun passive ↦
    sameFold passive norm.role || sameFold (mapRole passive) norm.role)

/-- The citation of a norm of a corpus, if it can be named and is related to a norm. -/
def citation? (mapRole : String → String) (norm : Normative.Norm) (e : Entry) :
    Option Citation := do
  let source ← e.source.name
  let _ ← e.source.kind
  let id ← e.norm.id
  let s ← e.norm.structure?
  let action ← s.action
  if shareWord keyVerbs norm.action action || sharesObject norm s || bindsRole mapRole norm s then
    some ⟨source, id, action⟩
  else none

/-- The norms of a corpus to which a norm is related, in the order of the document. -/
def citations (corpus : Corpus) (norm : Normative.Norm) (contractType : String) : List Citation :=
  let inferred := corpus.infer? contractType
  corpus.entries.filterMap (citation? (corpus.mapRoleWith inferred contractType) norm)

/-- The citations of a norm as lines of comments, if there are any. -/
def annotations? (corpus : Corpus) (norm : Normative.Norm) (contractType : String) :
    Option String :=
  let lines := String.join ((corpus.citations norm contractType).map Citation.line)
  if lines.isEmpty then none else some lines

end Corpus

end Normative
