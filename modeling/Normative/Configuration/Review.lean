import Normative.Configuration
import Normative.Schema
import Normative.Text.EditDistance

/-!
# Review of a schema

A schema is compared with the lists of a configuration. A value that is not on its list, letter
case apart, is an issue; an issue never stops anything. The entry of the list that is closest to
the value is suggested in its place, if it is close enough.

## Main definitions

* `closest?` : the first entry of a list at the least edit distance, within a limit.
* `suggest?` : the entry that is suggested for a value which is not on a list.
* `Reviewer` : a configuration together with the institution whose roles are in question.
* `Configuration.review` : the issues of a schema.
-/

namespace Normative

open Text (memFold sameFold editDistance)

/-- The greatest distance at which an entry is suggested. -/
def suggestionLimit : Nat := 3

/-- The better of the entry found so far, with its distance, and a further entry. The earlier one
is kept if both are equally close. -/
def closer (value : String) (best : Option (String × Nat)) (entry : String) :
    Option (String × Nat) :=
  let distance := editDistance value entry
  if suggestionLimit < distance then best
  else
    match best with
    | none => some (entry, distance)
    | some (found, least) =>
      if distance < least then some (entry, distance) else some (found, least)

/-- The first entry of a list at the least distance from a value, if that is within the limit. -/
def closest? (value : String) (list : List String) : Option String :=
  (list.foldl (closer value) none).map Prod.fst

/-- The entry that is suggested for a value; there is none for a value on the list. -/
def suggest? (value : String) (list : List String) : Option String :=
  if memFold value list then none else closest? value list

/-- A configuration together with the institution whose roles are in question. -/
structure Reviewer where
  configuration : Configuration
  institution : Option String

namespace Reviewer

/-- The roles of the institution in question. -/
def roles? (reviewer : Reviewer) : Option (List String) :=
  reviewer.institution.bind reviewer.configuration.rolesFor?

/-- Whether a role belongs to an institution. -/
def isRoleOf (reviewer : Reviewer) (institution role : String) : Bool :=
  (reviewer.configuration.rolesFor? institution).any (memFold role)

/-- Whether a role belongs to the institution in question. -/
def isRole (reviewer : Reviewer) (role : String) : Bool := reviewer.roles?.any (memFold role)

/-- The role of the institution in question that is suggested for a role. -/
def suggestRole? (reviewer : Reviewer) (role : String) : Option String :=
  reviewer.roles?.bind (suggest? role)

end Reviewer

/-- What an issue is about. -/
inductive IssueKind where
  | institution
  | institutionType
  | legalDomain
  | role
  deriving DecidableEq

/-- The subject of an issue in words. -/
def IssueKind.label : IssueKind → String
  | institution => "institution"
  | institutionType => "institution type"
  | legalDomain => "legal domain"
  | role => "role"

/-- A value that is not on its list. -/
structure Issue where
  kind : IssueKind
  value : String
  suggestion : Option String
  deriving DecidableEq

/-- The wording of an issue. -/
def Issue.message (issue : Issue) : String :=
  let subject := "unknown " ++ Token.quote issue.kind.label issue.value
  match issue.suggestion with
  | some suggestion => subject ++ " (did you mean '" ++ suggestion ++ "'?)"
  | none => subject

/-- The issue of a value that is not on its list. -/
def issue? (kind : IssueKind) (value : String) (list : List String) : Option Issue :=
  if memFold value list then none else some ⟨kind, value, suggest? value list⟩

/-- A list of roles with one more role, unless it is listed in some letter case. -/
def addDistinct (roles : List String) (role : String) : List String :=
  if roles.any (fun r ↦ sameFold r role) then roles else roles ++ [role]

namespace Configuration

/-- The issues of the roles of a schema. Roles are reviewed only if the configuration lists roles
for the institution. -/
def reviewRoles (configuration : Configuration) (institution : String) (roles : List String) :
    List Issue :=
  match configuration.rolesFor? institution with
  | none => []
  | some list => (roles.foldl addDistinct []).filterMap (fun role ↦ issue? .role role list)

/-- The issues of a schema: those of its institution, then those of its roles. -/
def review (configuration : Configuration) (schema : Schema) : List Issue :=
  match schema.institution with
  | none => []
  | some institution =>
    (issue? .institution institution.name configuration.institutions).toList ++
      (issue? .institutionType institution.typeName configuration.types).toList ++
      (if institution.legalDomain.isEmpty then []
        else (issue? .legalDomain institution.legalDomain configuration.domains).toList) ++
      configuration.reviewRoles institution.name schema.roles

end Configuration

end Normative
