import VariantSelector.Json.Outline
import VariantSelector.Transform
import VariantSelector.Variant.Resolution

/-!
Configurations, and why a document is not one.
-/

namespace VariantSelector

/-- A configuration: how markers are spelled, and how encoded tokens are restored. -/
structure Config where
  /-- Whether markers are attributes instead of classes. -/
  attributify : Bool := false
  rules : TransformRules := []
  deriving DecidableEq, Repr

namespace Config

/-- What variants are read with under this configuration. -/
def context (c : Config) : Context where
  style := if c.attributify then .byAttribute else .byClass
  rules := c.rules

/-- The members that a document may set. -/
inductive Field
  | attributifyPseudo
  | theme
  | transformRules
  deriving DecidableEq, Repr

def Field.name : Field → Text
  | .attributifyPseudo => "attributifyPseudo".toList
  | .theme => "theme".toList
  | .transformRules => "transformRules".toList

/-- What a document must hold at one of its places. -/
inductive Expected
  | config
  | theme
  | boolean
  | rules
  | string
  deriving DecidableEq, Repr

def Expected.describe : Expected → Text
  | .config => "struct Config".toList
  | .theme => "struct Theme".toList
  | .boolean => "a boolean".toList
  | .rules => "a map".toList
  | .string => "a string".toList

/-- Why a text is no configuration. -/
inductive Fault
  /-- It is not JSON. -/
  | malformed
  /-- It ends too early. -/
  | truncated
  /-- A value is not of the kind that its place asks for. -/
  | wrongType (found : Json.Outline) (expected : Expected)
  /-- A member is set twice. -/
  | duplicate (field : Field)
  deriving Repr

/-- The fault in words, as the report of a file that cannot be loaded prints it. For a text that is
malformed or truncated the words are a summary of this library's own: a message of a parser would
name what it met and the position. -/
def Fault.reason : Fault → Text
  | .malformed => "malformed JSON".toList
  | .truncated => "unexpected end of JSON".toList
  | .wrongType found expected =>
    "invalid type: ".toList ++ (found.describe ++ (", expected ".toList ++ expected.describe))
  | .duplicate field => "duplicate field `".toList ++ (field.name ++ ['`'])

end Config

end VariantSelector
