import VariantSelector.Selector.Rule
import VariantSelector.Variant.Basic

/-!
What a variant says about the rule of a token. Reading a variant and changing the rule are apart: a
match records the change, and `Match.apply` carries it out.
-/

namespace VariantSelector

/-- A change to the selector: more of the subject, more of the pseudo-element slot, or a relation in
front. -/
inductive Change
  | appendSelector (text : Text)
  | appendPseudo (text : Text)
  | prependRelation (segment : Segment)
  deriving DecidableEq, Repr

/-- A change to the sort rank: none, a rank, or that there is no rank. -/
inductive SortHint
  | unchanged
  | rank (n : Nat)
  | unranked
  deriving DecidableEq, Repr

/-- The rank behind a hint, given the one in front. -/
def SortHint.apply : SortHint → Option Nat → Option Nat
  | .unchanged, sort => sort
  | .rank n, _ => some n
  | .unranked, _ => none

/-- A variant read at the start of a token. -/
structure Match where
  variant : Variant
  /-- The text that was read. -/
  taken : Text
  /-- The rest of the token. -/
  residual : Text
  /-- The label of a relation, empty if it has none. -/
  label : Text := []
  change : Change
  sort : SortHint := .unchanged
  noMerge : Bool := false
  deriving DecidableEq, Repr

namespace Match

/-- Bytes of the text that was read. -/
def consumed (m : Match) : Nat := m.taken.byteSize

def isLabeled (m : Match) : Bool := !m.label.isEmpty

/-- Changes a rule as the match says. -/
def apply (m : Match) (rule : Rule) : Rule :=
  let rule :=
    match m.change with
    | .appendSelector text => { rule with selector := rule.selector ++ text }
    | .appendPseudo text => { rule with pseudo := rule.pseudo ++ text }
    | .prependRelation segment => { rule with chain := rule.chain.prepend segment }
  { rule with sort := m.sort.apply rule.sort, noMerge := rule.noMerge || m.noMerge }

end Match

end VariantSelector
