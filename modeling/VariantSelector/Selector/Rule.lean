import VariantSelector.Css.Identifier
import VariantSelector.Selector.Chain

/-!
The rule that is being built for a token: relations in front, the subject with its pseudo-classes,
and a slot at the end for pseudo-elements.
-/

namespace VariantSelector

structure Rule where
  chain : Chain := {}
  /-- The subject, pseudo-classes included. -/
  selector : Text
  /-- The pseudo-elements. -/
  pseudo : Text := []
  /-- The rank that the last ranked variant gave. -/
  sort : Option Nat := none
  /-- Whether the rule must not be merged with others of the same declarations. -/
  noMerge : Bool := false
  deriving DecidableEq, Repr

namespace Rule

/-- The rule whose subject is the class of `token`. -/
def ofClass (token : Text) : Rule where
  selector := Css.classSelector token

/-- The selector text: relations, subject, pseudo-elements. -/
def render (r : Rule) : Text := r.chain.render ++ (r.selector ++ r.pseudo)

end Rule

end VariantSelector
