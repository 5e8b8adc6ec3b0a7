import VariantSelector.Pseudo.Registry
import VariantSelector.Transform
import VariantSelector.Variant.Match
import VariantSelector.Variant.Wrapper

/-!
Variants that are a key of the registry, bare (`hover:`, `before:`) or inside a functional
pseudo-class (`not-hover:`). Both read the token as the transform rules restore it.
-/

namespace VariantSelector

open Pseudo

/-- Reads a bare key. Two keys may stand for the same selector text and must still give two rules,
so the rule is kept from merging. -/
def matchPlain? (rules : TransformRules) (token : Text) : Option Match := do
  let found ← Registry.matchKey? false false (rules.restore token)
  let entry := found.lookup.entry
  some {
    variant := .plain
    taken := found.taken
    residual := found.rest
    change := if entry.isElement then .appendPseudo entry.fragment
      else .appendSelector entry.fragment
    sort := .rank found.lookup.rank
    noMerge := true }

/-- Reads a wrapper and a key in it. A pseudo-element cannot be an argument, so its key is not
read. -/
def matchFunctional? (rules : TransformRules) (token : Text) : Option Match := do
  let (wrapper, rest) ← Wrapper.strip? (rules.restore token)
  let found ← Registry.matchKey? true false rest
  some {
    variant := .functional
    taken := wrapper.lead ++ found.taken
    residual := found.rest
    change := .appendSelector (wrapper.wrap found.lookup.entry.fragment) }

end VariantSelector
