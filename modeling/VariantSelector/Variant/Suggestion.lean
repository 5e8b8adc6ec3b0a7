import VariantSelector.Pseudo.Registry
import VariantSelector.Variant.Basic
import VariantSelector.Variant.Wrapper

/-!
Patterns of the tokens that variants recognize, for an editor's suggestions.
-/

namespace VariantSelector

open Pseudo

/-- Alternatives in parentheses. -/
def oneOf (alternatives : Text) : Text := '(' :: (alternatives ++ [')'])

/-- The pattern of a variant; a part has none. -/
def Variant.suggestion? : Variant → Option Text
  | .plain => some (oneOf (Registry.alternation false) ++ [':'])
  | .functional =>
    some (oneOf Wrapper.alternation ++ ('-' :: (oneOf (Registry.alternation true) ++ [':'])))
  | .relation r =>
    some (r.tag ++ ('-' :: (oneOf (oneOf Wrapper.alternation ++ ['-']) ++
      ('?' :: (oneOf (Registry.alternation true) ++ [':'])))))
  | .part => none

/-- The variants that have a pattern, with it. -/
def suggestions : List (Variant × Text) :=
  Variant.all.filterMap fun v => v.suggestion?.map fun pattern => (v, pattern)

end VariantSelector
