import VariantSelector.Decimal.Shortest
import VariantSelector.Json.Numeral
import VariantSelector.Json.Quotation
import VariantSelector.Text.Quoted

/-!
Scalars that are being read, and what is known of a value that was met: all of a scalar, and of an
array or object no more than that it is one.
-/

namespace VariantSelector.Json

/-- The two kinds of container. -/
inductive Shape
  | array
  | object
  deriving DecidableEq, Repr

/-- A value as far as it is looked at. -/
inductive Outline
  | null
  | boolean (b : Bool)
  | integer (n : Int)
  | floating (x : Float)
  | string (s : Text)
  | container (shape : Shape)
  deriving Repr

/-- The value as a message names it. -/
def Outline.describe : Outline → Text
  | .null => "null".toList
  | .boolean true => "boolean `true`".toList
  | .boolean false => "boolean `false`".toList
  | .integer n => "integer `".toList ++ ((toString n).toList ++ ['`'])
  | .floating x => "floating point `".toList ++ (Decimal.ofFloat x ++ ['`'])
  | .string s => "string ".toList ++ s.quoted
  | .container .array => "sequence".toList
  | .container .object => "map".toList

/-- A scalar that is being read. -/
inductive Lexeme
  | string (q : Quotation)
  /-- One of the words `null`, `true` and `false`: the letters that must come yet. -/
  | word (next : Char) (later : Text) (value : Outline)
  | numeral (n : Numeral)
  deriving Repr

/-- The scalar that begins with `c`. -/
def Lexeme.start? (strict : Bool) (c : Char) : Option Lexeme :=
  if c = '"' then some (.string { strict })
  else if c = 'n' then some (.word 'u' "ll".toList .null)
  else if c = 't' then some (.word 'r' "ue".toList (.boolean true))
  else if c = 'f' then some (.word 'a' "lse".toList (.boolean false))
  else if c = '-' || c.isDigit then some (.numeral (.start c))
  else none

/-- The value of a complete number. -/
def Numeral.outline? (n : Numeral) : Option Outline :=
  n.value?.map fun
    | .integer n => .integer n
    | .floating x => .floating x

end VariantSelector.Json
