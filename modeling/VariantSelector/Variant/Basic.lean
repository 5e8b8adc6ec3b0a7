import VariantSelector.Selector.Segment

/-!
The variants a token may begin with, in the order in which they are tried, and the relations four
of them stand for.
-/

namespace VariantSelector

/-- How the marker element of a relation stands to the element that carries the utility. -/
inductive Relation
  | group
  | peer
  | parent
  | previous
  deriving DecidableEq, Repr

namespace Relation

def all : List Relation := [.group, .peer, .parent, .previous]

/-- The word for the relation in a token, which is also the marker's name. -/
def tag : Relation → Text
  | .group => "group".toList
  | .peer => "peer".toList
  | .parent => "parent".toList
  | .previous => "previous".toList

/-- The combinator between the marker and what follows: a group is some ancestor, a peer some
earlier sibling, a parent the direct one, a previous element the one right before. -/
def combinator : Relation → Combinator
  | .group => .descendant
  | .peer => .subsequentSibling
  | .parent => .child
  | .previous => .nextSibling

end Relation

/-- How markers are spelled: as a class, or as an attribute without value. -/
inductive MarkerStyle
  | byClass
  | byAttribute
  deriving DecidableEq, Repr

/-- The selector of a relation's marker. -/
def Relation.marker (r : Relation) : MarkerStyle → Text
  | .byClass => '.' :: r.tag
  | .byAttribute => '[' :: (r.tag ++ "=\"\"]".toList)

/-- The variants: a bare key, a key inside a functional pseudo-class, a relation, a shadow part. -/
inductive Variant
  | plain
  | functional
  | relation (r : Relation)
  | part
  deriving DecidableEq, Repr

namespace Variant

/-- All variants in the order in which they are tried. -/
def all : List Variant := .plain :: .functional :: (Relation.all.map .relation ++ [.part])

def name : Variant → Text
  | .plain => "pseudo".toList
  | .functional => "pseudo-functions".toList
  | .relation r => "pseudo:".toList ++ r.tag
  | .part => "part".toList

end Variant

end VariantSelector
