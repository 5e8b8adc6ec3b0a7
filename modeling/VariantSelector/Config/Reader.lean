import VariantSelector.Config.Basic

/-!
Reading a configuration document. The reader takes the text character by character and stops at the
first problem, so of two problems the earlier one is reported. Three rules say when a problem counts
as met:

* a value of the wrong kind is met at its first character if it is a container, and at its end if it
  is a scalar;
* a repeated member is met at its key, before the colon;
* the value of `attributifyPseudo` is only looked at when the document's closing brace is met, so
  every other problem of the document comes first.

Members nobody asks for are passed over. In the document itself their values are read strictly:
numbers must be in range, surrogates come in pairs, and no more than 127 containers are open. Inside
the theme they only have to look like JSON.
-/

namespace VariantSelector.Config

open Json

/-- What a value is read for. -/
inductive Role
  | document
  | theme
  | rules
  /-- The encoded text of a plain one. -/
  | encoded (plain : Text)
  | attributify
  /-- A value nobody asked for. -/
  | ignored
  deriving DecidableEq, Repr

/-- What may come next, white space aside. -/
inductive Expect
  | value (role : Role)
  /-- Behind an opening bracket. -/
  | valueOrEnd (role : Role)
  | key
  /-- Behind an opening brace. -/
  | keyOrEnd
  | colon (role : Role)
  /-- Behind an element or member. -/
  | next
  /-- Behind the document. -/
  | ended (config : Config)
  deriving DecidableEq, Repr

/-- The containers that a configuration is made of. -/
inductive Place
  | document
  | theme
  | rules
  deriving DecidableEq, Repr

/-- A piece of text in the middle of which the reader stands. -/
inductive Reading
  | nothing
  | key (q : Quotation)
  | value (role : Role) (lexeme : Lexeme)
  deriving Repr

/-- The reader in the middle of a document. -/
structure Reader where
  /-- The values of `attributifyPseudo` so far. -/
  attributify : List Outline := []
  /-- The rules of the theme, once it is closed. -/
  theme : Option TransformRules := none
  /-- The rules of the theme that is open, once they are. -/
  rules : Option TransformRules := none
  /-- Whether the theme that is open is an object or an array. -/
  themeShape : Shape := .object
  /-- The innermost open container that belongs to the configuration. -/
  place : Place := .document
  /-- The open containers of a value nobody asked for, innermost first. -/
  nested : List Shape := []
  expect : Expect := .value .document
  reading : Reading := .nothing
  deriving Repr

/-- How many containers may be open in the document. -/
def maxDepth : Nat := 127

namespace Reader

/-- Whether a value that is read for `role` is read strictly. -/
def isStrict (r : Reader) (role : Role) : Bool := role ≠ .ignored || r.place = .document

def innermost (r : Reader) : Shape :=
  match r.nested with
  | shape :: _ => shape
  | [] => if r.place = .theme then r.themeShape else .object

/-- What a value of this shape begins with: an array's elements are read for `role`. -/
def inside (shape : Shape) (role : Role) : Expect :=
  match shape with
  | .array => .valueOrEnd role
  | .object => .keyOrEnd

/-- Opens a container of a value nobody asked for. -/
def openNested (r : Reader) (shape : Shape) : Except Fault Reader :=
  if r.place = .document && maxDepth ≤ r.nested.length + 1 then .error .malformed
  else .ok { r with nested := shape :: r.nested, expect := inside shape .ignored }

def openContainer (r : Reader) (role : Role) (shape : Shape) : Except Fault Reader :=
  match role, shape with
  | .document, .object => .ok { r with expect := .keyOrEnd }
  | .document, .array => .error (.wrongType (.container shape) .config)
  | .theme, _ =>
    .ok { r with place := .theme, themeShape := shape, rules := none, expect := inside shape .rules }
  | .rules, .object => .ok { r with place := .rules, rules := some [], expect := .keyOrEnd }
  | .rules, .array => .error (.wrongType (.container shape) .rules)
  | .encoded _, _ => .error (.wrongType (.container shape) .string)
  | .attributify, _ =>
    openNested { r with attributify := r.attributify ++ [.container shape] } shape
  | .ignored, _ => r.openNested shape

/-- Takes in a scalar that was read for `role`. -/
def takeScalar (r : Reader) (role : Role) (found : Outline) : Except Fault Reader :=
  let r := { r with expect := .next, reading := .nothing }
  match role, found with
  | .document, _ => .error (.wrongType found .config)
  | .theme, _ => .error (.wrongType found .theme)
  | .rules, _ => .error (.wrongType found .rules)
  | .encoded plain, .string text =>
    .ok { r with rules := some (TransformRules.put plain text (r.rules.getD [])) }
  | .encoded _, _ => .error (.wrongType found .string)
  | .attributify, _ => .ok { r with attributify := r.attributify ++ [found] }
  | .ignored, _ => .ok r

def takeNumeral (r : Reader) (role : Role) (n : Numeral) : Except Fault Reader :=
  if r.isStrict role then
    match n.outline? with
    | some found => r.takeScalar role found
    | none => .error .malformed
  else r.takeScalar role .null

/-- Takes in a key: what is its value read for? -/
def takeKey (r : Reader) (key : Text) : Except Fault Reader :=
  let goOn (role : Role) : Except Fault Reader :=
    .ok { r with expect := .colon role, reading := .nothing }
  if !r.nested.isEmpty then goOn .ignored
  else
    match r.place with
    | .document =>
      if key = Field.theme.name then
        if r.theme.isSome then .error (.duplicate .theme) else goOn .theme
      else if key = Field.attributifyPseudo.name then goOn .attributify
      else goOn .ignored
    | .theme =>
      if key = Field.transformRules.name then
        if r.rules.isSome then .error (.duplicate .transformRules) else goOn .rules
      else goOn .ignored
    | .rules => goOn (.encoded key)

/-- The setting that the values of `attributifyPseudo` make: there may be one, a boolean. -/
def settle : List Outline → Except Fault Bool
  | [] => .ok false
  | [.boolean b] => .ok b
  | .boolean _ :: _ :: _ => .error (.duplicate .attributifyPseudo)
  | found :: _ => .error (.wrongType found .boolean)

def close (r : Reader) : Except Fault Reader :=
  match r.nested, r.place with
  | _ :: nested, _ => .ok { r with nested, expect := .next }
  | [], .document => do
    let attributify ← settle r.attributify
    .ok { r with expect := .ended { attributify, rules := r.theme.getD [] } }
  | [], .theme =>
    .ok { r with place := .document, theme := some (r.rules.getD []), expect := .next }
  | [], .rules => .ok { r with place := .theme, expect := .next }

/-- Goes on behind a comma. A theme in the form of an array has one element. -/
def separate (r : Reader) : Except Fault Reader :=
  match r.innermost, r.nested with
  | .object, _ => .ok { r with expect := .key }
  | .array, _ :: _ => .ok { r with expect := .value .ignored }
  | .array, [] => .error .malformed

def beginValue (r : Reader) (role : Role) (c : Char) : Except Fault Reader :=
  if c = '[' then r.openContainer role .array
  else if c = '{' then r.openContainer role .object
  else
    match Lexeme.start? (r.isStrict role) c with
    | some lexeme => .ok { r with reading := .value role lexeme }
    | none => .error .malformed

/-- Begins a key. Keys are read strictly wherever the values beside them are, and those of a theme
are too. -/
def beginKey (r : Reader) (c : Char) : Except Fault Reader :=
  if c = '"' then
    .ok { r with reading := .key { strict := r.nested.isEmpty || r.place = .document } }
  else .error .malformed

def closer : Shape → Char
  | .array => ']'
  | .object => '}'

/-- Reads a character between two scalars. -/
def punctuate (r : Reader) (c : Char) : Except Fault Reader :=
  if isSpace c then .ok r
  else
    match r.expect with
    | .value role => r.beginValue role c
    | .valueOrEnd role => if c = ']' then r.close else r.beginValue role c
    | .key => r.beginKey c
    | .keyOrEnd => if c = '}' then r.close else r.beginKey c
    | .colon role => if c = ':' then .ok { r with expect := .value role } else .error .malformed
    | .next =>
      if c = ',' then r.separate
      else if c = closer r.innermost then r.close
      else .error .malformed
    | .ended _ => .error .malformed

def feed (r : Reader) (c : Char) : Except Fault Reader :=
  match r.reading with
  | .nothing => r.punctuate c
  | .key q =>
    match q.feed c with
    | .more q => .ok { r with reading := .key q }
    | .last key => r.takeKey key
    | .refused => .error .malformed
  | .value role (.string q) =>
    match q.feed c with
    | .more q => .ok { r with reading := .value role (.string q) }
    | .last text => r.takeScalar role (.string text)
    | .refused => .error .malformed
  | .value role (.word next later value) =>
    if c ≠ next then .error .malformed
    else
      match later with
      | [] => r.takeScalar role value
      | next :: later => .ok { r with reading := .value role (.word next later value) }
  | .value role (.numeral n) =>
    match n.feed? c with
    | some n => .ok { r with reading := .value role (.numeral n) }
    | none =>
      if n.endsBefore c then do (← r.takeNumeral role n).punctuate c else .error .malformed

/-- What a document comes to that ends here. A number may be complete without the reader knowing
yet; one that is not, and is only passed over, is no JSON. -/
def finish (r : Reader) : Except Fault Config :=
  match r.reading, r.expect with
  | .nothing, .ended config => .ok config
  | .value role (.numeral n), _ =>
    if n.isComplete then do
      let _ ← r.takeNumeral role n
      .error .truncated
    else .error (if r.isStrict role then .truncated else .malformed)
  | _, _ => .error .truncated

end Reader

def parse (text : Text) : Except Fault Config := do
  (← text.foldlM Reader.feed {}).finish

end VariantSelector.Config
