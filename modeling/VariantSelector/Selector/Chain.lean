import VariantSelector.Selector.Segment

/-!
The relations in front of a rule's subject, outermost first. Each new relation goes in front, and
is told together with the one behind it where that is possible.
-/

namespace VariantSelector

/-- A chain of relations, outermost first. -/
structure Chain where
  segments : List Segment := []
  deriving DecidableEq, Repr

namespace Chain

def isEmpty (c : Chain) : Bool := c.segments.isEmpty

/-- Joins the two outermost segments if they can be joined. Every segment is put in front in this
way, so the pairs further in have been joined already. -/
def normalize (c : Chain) : Chain :=
  match c.segments with
  | outer :: inner :: rest =>
    match outer.absorb? inner with
    | some joined => ⟨joined :: rest⟩
    | none => c
  | _ => c

/-- Puts a segment in front. -/
def prepend (c : Chain) (s : Segment) : Chain := normalize ⟨s :: c.segments⟩

def render (c : Chain) : Text := c.segments.flatMap Segment.render

end Chain

end VariantSelector
