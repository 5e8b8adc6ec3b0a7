import VariantSelector.Text.Basic

/-!
Decoding the text between brackets. Tokens cannot hold spaces, so an underscore stands for one and
an escaped underscore for itself; the underscores of a `url(...)` are part of the address and stay.
A payload may begin with a hint at its type.
-/

namespace VariantSelector.Bracketed

/-- The type hints. -/
inductive Hint
  | color
  | length
  | position
  | quoted
  | string
  deriving DecidableEq, Repr

def Hint.all : List Hint := [.color, .length, .position, .quoted, .string]

def Hint.name : Hint → Text
  | .color => "color".toList
  | .length => "length".toList
  | .position => "position".toList
  | .quoted => "quoted".toList
  | .string => "string".toList

/-- What follows `lead`, which is in lower case, in a text that begins with it in whatever case of
the ASCII letters. -/
def afterAnyCase? : Text → Text → Option Text
  | [], s => some s
  | _ :: _, [] => none
  | c :: lead, d :: s => if c = d.toLower then afterAnyCase? lead s else none

/-- What follows this hint and its colon at the front of a payload. -/
def Hint.strip? (h : Hint) (payload : Text) : Option Text := do
  match ← afterAnyCase? h.name payload with
  | ':' :: base => some base
  | _ => none

/-- Splits the hint off a payload. -/
def splitHint (payload : Text) : Option Hint × Text :=
  match Hint.all.findSome? fun h => (h.strip? payload).map fun base => (h, base) with
  | some (h, base) => (some h, base)
  | none => (none, payload)

/-- Whether no square bracket is closed before it is opened and none of `depth` and those in the
text is left open. Escaped brackets count like any other. -/
def bracketsClose (depth : Nat) : Text → Bool
  | [] => depth = 0
  | '[' :: rest => bracketsClose (depth + 1) rest
  | ']' :: rest =>
    match depth with
    | 0 => false
    | depth + 1 => bracketsClose depth rest
  | _ :: rest => bracketsClose depth rest

/-- How a decoder treats `url(...)`: like any text, or watching for one, or being inside one. -/
inductive UrlMode
  | plain
  | outside
  | inside
  deriving DecidableEq, Repr

/-- The mode behind `url(`. -/
def UrlMode.enter : UrlMode → UrlMode
  | .plain => .plain
  | _ => .inside

/-- The mode behind a closing parenthesis. -/
def UrlMode.leave : UrlMode → UrlMode
  | .plain => .plain
  | _ => .outside

/-- Writes spaces for underscores: an escaped underscore loses its backslash, and inside a
`url(...)` an underscore is kept. -/
def spaceUnderscores (mode : UrlMode) : Text → Text
  | [] => []
  | 'u' :: 'r' :: 'l' :: '(' :: rest =>
    'u' :: 'r' :: 'l' :: '(' :: spaceUnderscores mode.enter rest
  | ')' :: rest => ')' :: spaceUnderscores mode.leave rest
  | '\\' :: '_' :: rest => '_' :: spaceUnderscores mode rest
  | '_' :: rest => (if mode = .inside then '_' else ' ') :: spaceUnderscores mode rest
  | c :: rest => c :: spaceUnderscores mode rest

/-- Puts double quotes around a text, and a backslash in front of each quote and backslash in it. -/
def quote (s : Text) : Text :=
  '"' :: (s.flatMap (fun c => if c = '"' || c = '\\' then ['\\', c] else [c]) ++ ['"'])

/-- A custom property is read through `var(...)`. -/
def readCustomProperty (base : Text) : Text :=
  if "--".toList.isPrefixOf base then "var(".toList ++ (base ++ [')']) else base

/-- The text a payload stands for. An empty payload, the payload `=""` and one whose square brackets
do not match stand for nothing. -/
def decode? (payload : Text) : Option Text :=
  let (hint, base) := splitHint payload
  if base.isEmpty || base = "=\"\"".toList || !bracketsClose 0 base then none
  else
    let base := readCustomProperty base
    match hint with
    | some .string => some (spaceUnderscores .plain base)
    | some .quoted => some (quote (spaceUnderscores .plain base))
    | _ => some (spaceUnderscores .outside base)

end VariantSelector.Bracketed
