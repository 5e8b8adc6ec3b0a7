import VariantSelector.Text.Basic

/-!
The functional pseudo-classes that may be put around a key.
-/

namespace VariantSelector

/-- A functional pseudo-class that takes a selector. -/
inductive Wrapper
  | not
  | is
  | where
  | has
  deriving DecidableEq, Repr

namespace Wrapper

/-- All wrappers in the order in which they are tried. -/
def all : List Wrapper := [.not, .is, .where, .has]

def name : Wrapper → Text
  | .not => "not".toList
  | .is => "is".toList
  | .where => "where".toList
  | .has => "has".toList

/-- The wrapper of this name, in lower case. -/
def ofName? (name : Text) : Option Wrapper := all.find? (·.name = name)

/-- The pseudo-class with `inner` as its argument. -/
def wrap (w : Wrapper) (inner : Text) : Text := ':' :: (w.name ++ ('(' :: (inner ++ [')'])))

/-- What a token begins with where this wrapper is used. -/
def lead (w : Wrapper) : Text := w.name ++ ['-']

/-- Splits the name of a wrapper and a dash off the front of a text. -/
def strip? (input : Text) : Option (Wrapper × Text) :=
  all.findSome? fun w => (Text.after? w.lead input).map fun rest => (w, rest)

/-- The names, joined by `|`. -/
def alternation : Text := ['|'].intercalate (all.map name)

theorem eq_lead_append_of_strip? {input rest : Text} {w : Wrapper}
    (h : strip? input = some (w, rest)) : input = w.lead ++ rest := by
  obtain ⟨v, -, hv⟩ := List.exists_of_findSome?_eq_some h
  obtain ⟨r, hr, he⟩ := Option.map_eq_some_iff.1 hv
  cases he
  exact Text.eq_append_of_after? hr

end Wrapper

end VariantSelector
