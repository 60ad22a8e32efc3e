import Normative.Norm
import Normative.Text.Search

/-!
# Types of assets

An asset of a generated program is a service, which has a polarity, or movable or immovable
property. A classifier decides which; the classifier by keywords looks for words in the scope of a
norm, in its action, and in the object of a norm of a corpus.

## Main definitions

* `AssetKind`, `Polarity`, `AssetType` : the type of an asset.
* `Classifier` : the decisions that a program needs.
* `Classifier.byKeyword` : the decisions by keywords.
-/

namespace Normative

/-- The kinds of assets. -/
inductive AssetKind where
  | service
  | movable
  | immovable
  deriving DecidableEq

/-- A kind of asset as a program names it. -/
def AssetKind.text : AssetKind → String
  | service => "Service"
  | movable => "Property, M"
  | immovable => "Property, NM"

/-- Whether a kind of asset is property. -/
def AssetKind.isProperty (kind : AssetKind) : Bool := kind != .service

/-- Whether a service consists in doing something or in refraining from it. -/
inductive Polarity where
  | positive
  | negative
  deriving DecidableEq

/-- A polarity as a program names it. -/
def Polarity.text : Polarity → String
  | positive => "+"
  | negative => "-"

/-- The type of an asset. The polarity matters for services only. -/
structure AssetType where
  kind : AssetKind
  polarity : Polarity
  deriving DecidableEq

/-- The type of an asset as a program names it. -/
def AssetType.text (type : AssetType) : String :=
  match type.kind with
  | .service => "Service, " ++ type.polarity.text
  | kind => kind.text

/-- A service that consists in doing something. -/
def AssetType.performance : AssetType := ⟨.service, .positive⟩

/-- The decisions about assets. -/
structure Classifier where
  /-- The kind of the asset of a norm. -/
  normKind : Norm → AssetKind
  /-- The polarity of the action of a norm. -/
  polarity : String → Polarity
  /-- The kind of the asset of a norm of a corpus, from its object. -/
  objectKind : Option String → AssetKind

/-- The type of the asset of a norm. -/
def Classifier.normType (classifier : Classifier) (norm : Norm) : AssetType :=
  ⟨classifier.normKind norm, classifier.polarity norm.action⟩

namespace Keyword

/-- Whether a text mentions one of the words, letter for letter. -/
def mentions (words : List String) (text : String) : Bool :=
  words.any (fun w ↦ Text.occursIn w text)

/-- The kind of asset for a text, given the words for immovable and for movable property. -/
def kindOf (immovable movable : List String) : Option String → AssetKind
  | none => .service
  | some text =>
    if mentions immovable text then .immovable
    else if mentions movable text then .movable
    else .service

/-- The words that make an action an omission. -/
def omissionWords : List String := ["no ", "abstenerse", "evitar"]

/-- The polarity of an action. -/
def polarity (action : String) : Polarity :=
  if mentions omissionWords action then .negative else .positive

end Keyword

/-- The decisions by keywords. -/
def Classifier.byKeyword : Classifier where
  normKind norm := Keyword.kindOf ["inmueble"] ["propiedad"] norm.scope
  polarity := Keyword.polarity
  objectKind := Keyword.kindOf ["inmueble", "propiedad", "bien"] ["documento", "precio", "pago"]

end Normative
