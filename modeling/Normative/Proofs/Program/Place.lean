import Mathlib.Data.List.Nodup
import Normative.Program.Extension
import Normative.Proofs.Identifier.Ending

/-!
# Places that names tell

The names of a program are made from free texts: actions, consequences, descriptions, roles and
keys. Nothing can be said about such a text, but it is never the end of a name. A name ends in a
fixed word, or in a fixed word and a number, so that the end of a name tells the part of the schema
or of the corpus to which it belongs: which norm, which of its conditions, which violation, or which
norm of the corpus. Names of different parts are therefore different, whatever the texts are.

## Main definitions

* `Place` : a part for which a program declares an asset or a clause.
* `Place.ofLabel?` : the condition that a name with its label tells.
* `Place.ofAsset?`, `Place.ofClause?` : the part that the name of an asset or a clause tells.

## Main results

* `Place.ofLabel?_condition` : the names of conditions.
* `Place.ofAsset?_normAsset`, `Place.ofAsset?_condition`, `Place.ofAsset?_consequence`,
  `Place.ofAsset?_corpus`, `Place.ofAsset?_exchanged` : the names of assets.
* `Place.ofClause?_norm`, `Place.ofClause?_violation`, `Place.ofClause?_corpus`,
  `Place.ofClause?_exchanged` : the names of clauses.
-/

namespace Normative

open Identifier

/-- A part of a schema or of a corpus for which a program declares an asset or a clause. -/
inductive Place where
  /-- The norm at a position. -/
  | norm (position : Nat)
  /-- A condition in words of the norm at a position. -/
  | condition (position number : Nat)
  /-- The violation at a position. -/
  | violation (position : Nat)
  /-- A norm of the corpus. -/
  | corpus (stem : String)
  /-- A norm of the corpus with the parties exchanged. -/
  | exchanged (stem : String)
  deriving DecidableEq

namespace Place

/-- A name without so many characters at its end. -/
def shortened (name : String) (count : Nat) : String :=
  String.ofList (name.toList.take (name.length - count))

/-- The condition that a name with its label tells. -/
def ofLabel? (name : String) : Option Place :=
  match ending name with
  | (some 'n', some n) => some (condition n 1)
  | (some '_', some n) =>
    (number? (shortened (front name) "_".length)).map fun position ↦ condition position n
  | _ => none

/-- The place that the name of an asset tells. -/
def ofAsset? (name : String) : Option Place :=
  (ofLabel? name).or
    (match ending name with
    | (some 't', some n) => some (norm n)
    | (some 'e', some n) => some (violation n)
    | (some 't', none) => some (corpus (shortened name "Asset".length))
    | (some 'l', none) => some (exchanged (shortened name "Asset_Reciprocal".length))
    | _ => none)

/-- The place that the name of a clause tells. -/
def ofClause? (name : String) : Option Place :=
  match ending name with
  | (some 'm', some n) => some (norm n)
  | (some '_', some n) => some (violation n)
  | (some 'n', none) => some (corpus (shortened name "_obligation".length))
  | (some 'l', none) => some (exchanged (shortened name "_obligation_reciprocal".length))
  | _ => none

theorem shortened_append (name word : String) : shortened (name ++ word) word.length = name := by
  rw [shortened, String.length_append, Nat.add_sub_cancel, String.toList_append,
    ← String.length_toList, List.take_left, String.ofList_toList]

/-! ### Names of conditions -/

/-- A label with a number has two numbers, with an underscore between them. -/
theorem append_label (word : String) {position number : Nat} (hnumber : number ≠ 1) :
    word ++ Draft.conditionLabel position number =
      word ++ toString position ++ "_" ++ toString number := by
  rw [Draft.conditionLabel, if_neg hnumber, ← String.append_assoc, ← String.append_assoc]

section Label

variable {word : String} {c : Char} (hword : word.toList.getLast? = some c)
include hword

/-- The label of the first condition is the position of the norm. -/
theorem ending_firstLabel (hc : c.isDigit = false) (position : Nat) :
    ending (word ++ Draft.conditionLabel position 1) = (some c, some position) := by
  rw [Draft.conditionLabel, if_pos rfl, String.append_empty, ending_append_toString hword hc]

theorem ofLabel?_condition (hc : c = 'n') (position number : Nat) :
    ofLabel? (word ++ Draft.conditionLabel position number) = some (condition position number) := by
  subst hc
  by_cases hone : number = 1
  · rw [hone, ofLabel?, ending_firstLabel hword rfl]
    rfl
  · rw [append_label word hone, ofLabel?, ending_append_toString (getLast?_underscore _) rfl]
    simp only [front_append_toString (getLast?_underscore _) rfl, shortened_append,
      number?_append_toString hword rfl, Option.map_some]

end Label

/-! ### Names of assets -/

theorem ofAsset?_normAsset (action : String) (position : Nat) :
    ofAsset? (Identifier.normAsset action position) = some (norm position) := by
  have hname : (Identifier.assetStem action ++ "Asset").toList.getLast? = some 't' := by simp
  rw [ofAsset?, ofLabel?, Identifier.normAsset, ending_append_toString hname rfl]
  rfl

theorem ofAsset?_condition (position number : Nat) :
    ofAsset? ("Condition" ++ Draft.conditionLabel position number) =
      some (condition position number) := by
  rw [ofAsset?, ofLabel?_condition (by simp) rfl, Option.some_or]

theorem ofAsset?_consequence (stem : String) (position : Nat) :
    ofAsset? (stem ++ "Consequence" ++ toString position) = some (violation position) := by
  have hname : (stem ++ "Consequence").toList.getLast? = some 'e' := by simp
  rw [ofAsset?, ofLabel?, ending_append_toString hname rfl]
  rfl

theorem ofAsset?_corpus (stem : String) : ofAsset? (stem ++ "Asset") = some (corpus stem) := by
  have hname : (stem ++ "Asset").toList.getLast? = some 't' := by simp
  rw [ofAsset?, ofLabel?, ending_eq hname rfl, shortened_append]
  rfl

theorem ofAsset?_exchanged (stem : String) :
    ofAsset? (stem ++ "Asset_Reciprocal") = some (exchanged stem) := by
  have hname : (stem ++ "Asset_Reciprocal").toList.getLast? = some 'l' := by simp
  rw [ofAsset?, ofLabel?, ending_eq hname rfl, shortened_append]
  rfl

/-! ### Names of clauses -/

theorem ofClause?_norm (position : Nat) :
    ofClause? ("norm" ++ toString position) = some (norm position) := by
  have hname : "norm".toList.getLast? = some 'm' := by simp
  rw [ofClause?, ending_append_toString hname rfl]
  rfl

theorem ofClause?_violation {word : String} (hword : word.toList.getLast? = some '_')
    (position : Nat) : ofClause? (word ++ toString position) = some (violation position) := by
  rw [ofClause?, ending_append_toString hword rfl]
  rfl

theorem ofClause?_corpus (stem : String) :
    ofClause? (stem ++ "_obligation") = some (corpus stem) := by
  have hname : (stem ++ "_obligation").toList.getLast? = some 'n' := by simp
  rw [ofClause?, ending_eq hname rfl, shortened_append]
  rfl

theorem ofClause?_exchanged (stem : String) :
    ofClause? (stem ++ "_obligation_reciprocal") = some (exchanged stem) := by
  have hname : (stem ++ "_obligation_reciprocal").toList.getLast? = some 'l' := by simp
  rw [ofClause?, ending_eq hname rfl, shortened_append]
  rfl

end Place

end Normative
