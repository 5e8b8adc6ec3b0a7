import VariantSelector.Bracketed.Group
import VariantSelector.Variant.Match

/-!
Shadow parts: `part-[name]:` styles the part of that name inside a shadow tree.
-/

namespace VariantSelector

open Bracketed

/-- What a token begins with where a part is named. -/
def partLead : Text := "part-".toList

/-- Reads a part, whose name is used as it is. Its brackets must not be empty and a colon must
follow them. -/
def matchPart? (token : Text) : Option Match := do
  let group ← Text.after? partLead token
  let (payload, rest) ← splitGroup? group
  if payload.isEmpty then none
  else
    match rest with
    | ':' :: residual =>
      some {
        variant := .part
        taken := partLead ++ ('[' :: (payload ++ "]:".toList))
        residual
        change := .appendPseudo ("::part(".toList ++ (payload ++ [')'])) }
    | _ => none

end VariantSelector
