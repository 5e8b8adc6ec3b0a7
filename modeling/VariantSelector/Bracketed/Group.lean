import VariantSelector.Text.Blank

/-!
Bracket groups. A token such as `group-[&_.active]:block` carries free selector text between square
brackets. A group ends at the bracket that matches its first one, where a backslash takes the next
character with it; the parentheses inside must be balanced too.
-/

namespace VariantSelector.Bracketed

/-- Reads up to the bracket that closes a group, of which the opening one has been read.
`brackets` and `parens` are the brackets and parentheses that are open inside the group. -/
def closeGroup (brackets parens : Nat) : Text → Option (Text × Text)
  | [] => none
  | '\\' :: c :: rest => (closeGroup brackets parens rest).map fun (p, r) => ('\\' :: c :: p, r)
  | c :: rest =>
    match c with
    | '\\' => none
    | '(' => (closeGroup brackets (parens + 1) rest).map fun (p, r) => (c :: p, r)
    | ')' =>
      match parens with
      | 0 => none
      | parens + 1 => (closeGroup brackets parens rest).map fun (p, r) => (c :: p, r)
    | '[' => (closeGroup (brackets + 1) parens rest).map fun (p, r) => (c :: p, r)
    | ']' =>
      match brackets, parens with
      | 0, 0 => some ([], rest)
      | 0, _ + 1 => none
      | brackets + 1, _ => (closeGroup brackets parens rest).map fun (p, r) => (c :: p, r)
    | _ => (closeGroup brackets parens rest).map fun (p, r) => (c :: p, r)

/-- Splits a group off the front of a text: what stands between its brackets, and what follows. -/
def splitGroup? : Text → Option (Text × Text)
  | '[' :: s => closeGroup 0 0 s
  | _ => none

/-- The bytes of the group at the front of a text, both brackets included. -/
def groupSize? (s : Text) : Option Nat :=
  (splitGroup? s).map fun (payload, _) => Text.byteSize payload + 2

/-! ### A group behind a lead, with a label and a separator -/

/-- The characters that end a label. -/
def isSeparator (c : Char) : Bool := c = ':' || c = '-'

/-- A token cut up around its bracket group. -/
structure Extract where
  payload : Text
  label : Text
  separator : Char
  residual : Text
  deriving DecidableEq, Repr

/-- Cuts up a token of the form `lead[payload]label`, separator, residual. The payload must not be
blank, and the label runs up to the first separator. -/
def extract? (lead token : Text) : Option Extract := do
  let group ← Text.after? lead token
  let (payload, rest) ← splitGroup? group
  if payload.isBlank then none
  else
    match rest.dropWhile (!isSeparator ·) with
    | [] => none
    | separator :: residual =>
      some ⟨payload, rest.takeWhile (!isSeparator ·), separator, residual⟩

/-- The text that was read, for a token that began with `lead`. -/
def Extract.taken (lead : Text) (x : Extract) : Text :=
  lead ++ ('[' :: x.payload ++ (']' :: x.label ++ [x.separator]))

/-- Bytes of `token` in front of the residual. -/
def Extract.consumed (token : Text) (x : Extract) : Nat :=
  Text.byteSize token - Text.byteSize x.residual

end VariantSelector.Bracketed
