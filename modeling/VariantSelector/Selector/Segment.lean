import VariantSelector.Text.Blank

/-!
One step of a relation: selector text on the left of a combinator. Most steps constrain the marker
of a relation (`.group:hover `), and two neighbouring ones on the same marker can be told as one.
-/

namespace VariantSelector

/-- How what stands on the left of a combinator relates to what stands on the right. -/
inductive Combinator
  | descendant
  | child
  | nextSibling
  | subsequentSibling
  deriving DecidableEq, Repr

def Combinator.all : List Combinator := [.descendant, .child, .nextSibling, .subsequentSibling]

/-- The combinator as it is written between two compound selectors. -/
def Combinator.symbol : Combinator → Text
  | .descendant => [' ']
  | .child => ['>']
  | .nextSibling => ['+']
  | .subsequentSibling => ['~']

/-- The left-hand side of a relation: a marker with what constrains it, or selector text that is
used as it is. -/
inductive Ancestor
  | scoped (base compound : Text) (labeled : Bool)
  | literal (text : Text)
  deriving DecidableEq, Repr

def Ancestor.render : Ancestor → Text
  | .scoped base compound _ => base ++ compound
  | .literal text => text

/-- An ancestor and the combinator behind it. -/
structure Segment where
  ancestor : Ancestor
  combinator : Combinator
  deriving DecidableEq, Repr

def Segment.render (s : Segment) : Text := s.ancestor.render ++ s.combinator.symbol

/-- Whether a compound is a run of pseudo-classes as far as its first characters tell: a colon and
something behind it. -/
def isJoinable : Text → Bool
  | ':' :: _ :: _ => true
  | _ => false

/-- The segment that says what `outer` and `inner` say in turn, where both constrain the same
unlabeled marker by pseudo-classes: `.group:focus .group:hover ` becomes `.group:focus:hover `. The
compound that comes to stand in the middle must have no white space, since what follows white space
constrains some other element. -/
def Segment.absorb? (outer inner : Segment) : Option Segment :=
  match outer.ancestor, inner.ancestor with
  | .scoped base compound false, .scoped innerBase innerCompound false =>
    if outer.combinator = inner.combinator ∧ base = innerBase
        ∧ isJoinable compound ∧ isJoinable innerCompound ∧ !compound.any isBlank then
      some ⟨.scoped base (compound ++ innerCompound) false, outer.combinator⟩
    else none
  | _, _ => none

end VariantSelector
