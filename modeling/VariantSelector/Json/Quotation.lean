import VariantSelector.Text.Basic

/-!
Reading a JSON string character by character, from behind its opening quote to its closing one.

An escape `\u` is judged only when the four bytes behind it are there. The code units it names must
be characters or pairs of surrogates, unless the string's text is not asked for.
-/

namespace VariantSelector.Json

/-- What a character does to a piece of text that is being read: it belongs to it, it is its last
one, or it does not belong there. -/
inductive Step (σ α : Type)
  | more (state : σ)
  | last (value : α)
  | refused
  deriving DecidableEq, Repr

/-- The white space between the tokens of a document. -/
def isSpace (c : Char) : Bool := c = ' ' || c = '\t' || c = '\n' || c = '\r'

/-- The value of a hexadecimal digit. -/
def hexDigit? (c : Char) : Option Nat :=
  if c.isDigit then some (c.toNat - '0'.toNat)
  else if 'a' ≤ c && c ≤ 'f' then some (c.toNat - 'a'.toNat + 10)
  else if 'A' ≤ c && c ≤ 'F' then some (c.toNat - 'A'.toNat + 10)
  else none

/-- The number written by hexadecimal digits. -/
def hexValue? (digits : Text) : Option Nat :=
  digits.foldlM (fun n c => (hexDigit? c).map (16 * n + ·)) 0

/-- The character behind a backslash, `\u` apart. -/
def simpleEscape? : Char → Option Char
  | '"' => some '"'
  | '\\' => some '\\'
  | '/' => some '/'
  | 'b' => some '\x08'
  | 'f' => some '\x0c'
  | 'n' => some '\n'
  | 'r' => some '\r'
  | 't' => some '\t'
  | _ => none

/-- Code units that open a surrogate pair. -/
def isHighSurrogate (unit : Nat) : Bool := 0xD800 ≤ unit && unit ≤ 0xDBFF

/-- Code units that close a surrogate pair. -/
def isLowSurrogate (unit : Nat) : Bool := 0xDC00 ≤ unit && unit ≤ 0xDFFF

/-- The character of a surrogate pair. -/
def pairedChar (high low : Nat) : Char :=
  Char.ofNat (0x10000 + (high - 0xD800) * 0x400 + (low - 0xDC00))

/-- Where reading stands inside a string. -/
inductive QuotationPlace
  /-- Between two characters. -/
  | between
  /-- Behind a backslash. -/
  | escape
  /-- Behind `\u`, with the characters read since, and the surrogate in front if it is to be the
  second half of a pair. -/
  | unit (high : Option Nat) (digits : Text)
  /-- Behind the first half of a pair, where a backslash must come. -/
  | backslash (high : Nat)
  /-- Behind that backslash, where `u` must come. -/
  | letter (high : Nat)
  deriving DecidableEq, Repr

/-- A string that is being read. -/
structure Quotation where
  /-- Whether its text is asked for, so that surrogates must come in pairs. -/
  strict : Bool
  /-- The text so far, last character first. -/
  reversed : Text := []
  place : QuotationPlace := .between
  deriving DecidableEq, Repr

namespace Quotation

/-- Takes in one more character of the text. -/
def push (q : Quotation) (c : Char) : Quotation :=
  { q with reversed := c :: q.reversed, place := .between }

/-- Takes in a code unit, behind the first half of a pair if there is one. -/
def takeUnit (q : Quotation) (high : Option Nat) (unit : Nat) : Step Quotation Text :=
  if !q.strict then .more { q with place := .between }
  else
    match high with
    | some high => if isLowSurrogate unit then .more (q.push (pairedChar high unit)) else .refused
    | none =>
      if isLowSurrogate unit then .refused
      else if isHighSurrogate unit then .more { q with place := .backslash unit }
      else .more (q.push (Char.ofNat unit))

/-- Reads one character. -/
def feed (q : Quotation) (c : Char) : Step Quotation Text :=
  match q.place with
  | .between =>
    if c = '"' then .last q.reversed.reverse
    else if c = '\\' then .more { q with place := .escape }
    else if c.toNat < 0x20 then .refused
    else .more (q.push c)
  | .escape =>
    if c = 'u' then .more { q with place := .unit none [] }
    else
      match simpleEscape? c with
      | some d => .more (q.push d)
      | none => .refused
  | .unit high digits =>
    let digits := digits ++ [c]
    if digits.byteSize < 4 then .more { q with place := .unit high digits }
    else
      match hexValue? digits with
      | some unit => q.takeUnit high unit
      | none => .refused
  | .backslash high => if c = '\\' then .more { q with place := .letter high } else .refused
  | .letter high => if c = 'u' then .more { q with place := .unit (some high) [] } else .refused

end Quotation

end VariantSelector.Json
