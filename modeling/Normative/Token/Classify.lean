import Normative.Text.Upper
import Normative.Text.Word
import Normative.Token

/-!
# The class of a word

A word is classified by the first rule that it matches. All rules but the last two disregard
letter case: a word that no rule claims is a name if it begins with a capital, and a plain word
otherwise. Noise words are dropped before classification, so that a schema may be written in whole
sentences.

## Main definitions

* `Token.isNoise` : the filler words.
* `Token.readNumber?` : the number that a word writes.
* `Token.classify` : the class of a word.
-/

namespace Normative.Token

open Text (sameFold startsFold memFold isCapital digitsValue)

/-- The filler words of a schema. -/
def noiseWords : List String :=
  ["comienza", "como", "un", "una", "que", "en", "personas", "establecen", "dentro", "del",
    "dadas", "condiciones", "legales", "forma", "requerida", "la", "norma", "si", "hay", "de",
    "please", "hello", "maybe", "a", "al", "por", "con", "esta", "incluye", "para", "su", "los",
    "las", "es", "son", "está", "están", "ha", "han", "fue", "fueron", "será", "serán", "&", "$",
    "el", "pero", "siguiente", "resolución", "lo", "proteger", "sus", "derechos", "e",
    "intereses"]

/-- The nouns that name a role without an article. -/
def roleNouns : List String :=
  ["comprador", "vendedor", "arrendador", "arrendatario", "acreedor", "deudor", "juez", "quejoso",
    "autoridad", "trabajador", "empleador", "parte1", "parte2"]

/-- The words for a type of institution. -/
def institutionTypes : List String :=
  ["contrato", "procedimiento", "acto-juridico", "hecho-juridico", "acto", "hecho"]

/-- The words for a multiplicity. -/
def multiplicities : List String := ["múltiples", "multiples", "multiple", "una", "single"]

/-- Whether a word is filler. -/
def isNoise (word : String) : Bool := memFold word noiseWords

/-- A list of characters without the full stop at its end, if it has one. -/
def dropFullStop (word : List Char) : List Char :=
  if word.getLast? = some '.' then word.dropLast else word

/-- The number that a word writes: one or more digits, perhaps with a full stop after them, whose
value has 32 bits. -/
def readNumber? (word : String) : Option NormId :=
  let digits := dropFullStop word.toList
  if !digits.isEmpty && digits.all Char.isDigit && digitsValue digits < UInt32.size then
    some (UInt32.ofNat (digitsValue digits))
  else none

/-- The class of a word that stands for one of the parts of a schema or carries no text. -/
def marker? (word : String) : Option Token :=
  if memFold word ["institution", "[institution]"] then some institution
  else if let some id := readNumber? word then some (number id)
  else if sameFold word "regla" then some normReference
  else if let some position := Deontic.ofKeyword? word then some (deontic position)
  else if sameFold word "en-caso-que" then some conditional
  else if sameFold word "y" then some conjunction
  else if sameFold word "violación" || startsFold word "violacion" then some violation
  else if sameFold word "entonces" then some consequence
  else if sameFold word "hecho" || startsFold word "hecho-juridico" then some fact
  else if sameFold word "evidencia" then some evidence
  else if sameFold word "busca" then some seek
  else if sameFold word "establezca" then some establish
  else if memFold word ["cumplimiento", "incumplimiento"] then
    some (compliance (Compliance.ofKeyword word))
  else if sameFold word "adjudique" then some adjudicate
  else if startsFold word "lo-esencial" || sameFold word "esencial" then some essential
  else if startsFold word "lo-siguiente" || sameFold word "siguiente" then some following
  else if startsFold word "actua" then some scope
  else none

/-- The class of a word that no marker claims. -/
def classifyText (word : String) : Token :=
  if memFold word institutionTypes then institutionType word
  else if memFold word multiplicities then multiplicity word
  else if startsFold word "derecho-" then legalDomain word
  else if startsFold word "el-" || startsFold word "la-" || memFold word roleNouns then role word
  else if word.toList.head?.any isCapital then name word
  else Token.word word

/-- The class of a word. -/
def classify (word : String) : Token := (marker? word).getD (classifyText word)

end Normative.Token
