import VariantSelector.Text.Basic

/-!
Writing any text as a CSS identifier (CSSOM, serializing an identifier), and the class selector
that a token stands for. A comma is written as a code point and not behind a backslash, so that an
escaped class survives being split at commas.
-/

namespace VariantSelector.Css

/-- Characters that an identifier holds as they are: ASCII letters, digits, `-`, `_` and everything
beyond ASCII. -/
def isNameChar (c : Char) : Bool :=
  c.isAlphanum || c = '-' || c = '_' || 0x80 ≤ c.toNat

/-- ASCII control characters. -/
def isControl (c : Char) : Bool := c.toNat < 0x20 || c.toNat = 0x7F

/-- A backslash, the code point in hexadecimal, and the space that ends it. -/
def escapeCodePoint (c : Char) : Text := '\\' :: (Nat.toDigits 16 c.toNat ++ [' '])

/-- The form of a character that stands where its position asks for nothing special. U+0000 has no
escape and becomes U+FFFD. -/
def escapeChar (c : Char) : Text :=
  if c = '\x00' then ['\uFFFD']
  else if c = ',' || isControl c then escapeCodePoint c
  else if isNameChar c then [c]
  else ['\\', c]

/-- Escapes the part of an identifier that may not begin with a bare digit. -/
def escapeStart : Text → Text
  | [] => []
  | c :: rest => (if c.isDigit then escapeCodePoint c else escapeChar c) ++ rest.flatMap escapeChar

/-- Writes `s` as a CSS identifier. A digit in front, or behind a leading `-`, would not begin an
identifier, and neither would a lone `-`; those are escaped too. -/
def escape : Text → Text
  | ['-'] => ['\\', '-']
  | '-' :: rest => '-' :: escapeStart rest
  | s => escapeStart s

/-- The class selector of a token. -/
def classSelector (token : Text) : Text := '.' :: escape token

end VariantSelector.Css
