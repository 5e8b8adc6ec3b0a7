import VariantSelector.Bracketed.Group
import VariantSelector.Bracketed.Payload
import VariantSelector.Pseudo.Registry
import VariantSelector.Variant.Match
import VariantSelector.Variant.Wrapper

/-!
Relation variants put a marker element in front of the rule:

* `group-hover:underline` gives `.group:hover .group-hover\:underline`,
* `peer-not-checked:hidden` gives `.peer:not(:checked)~.peer-not-checked\:hidden`,
* `group-hover/item:underline` gives `.group\/item:hover .group-hover\/item\:underline`,
* `group-[&_.active]:block` gives `.group .active .group-\[\&_\.active\]\:block`.

A label is part of the marker's name, so that groups inside one another do not interfere.
-/

namespace VariantSelector

open Pseudo Bracketed

namespace Relation

/-- What a token begins with where this relation is used. -/
def lead (r : Relation) : Text := r.tag ++ ['-']

/-- The marker with a label in its name. -/
def scopedMarker (r : Relation) (style : MarkerStyle) (label : Text) : Text :=
  r.marker style ++ Css.escape label

/-- The ancestor that a decoded payload describes: a compound on the marker, or, where it says `&`,
text with the marker in place of each `&`. -/
def bracketAncestor (r : Relation) (style : MarkerStyle) (label value : Text) : Ancestor :=
  let base := r.scopedMarker style label
  if value.contains '&' then
    .literal (value.flatMap fun c => if c = '&' then base else [c])
  else .scoped base value (!label.isEmpty)

/-- Reads free selector text in brackets, with a label behind them. -/
def matchBracket? (r : Relation) (style : MarkerStyle) (token : Text) : Option Match := do
  let found ← extract? r.lead token
  let value ← decode? found.payload
  some {
    variant := .relation r
    taken := found.taken r.lead
    residual := found.residual
    label := found.label
    change := .prependRelation ⟨r.bracketAncestor style found.label value, r.combinator⟩
    sort := .unranked }

/-- A key of a pseudo-class, bare or in a wrapper. -/
structure KeyedCompound where
  /-- The text that was read. -/
  taken : Text
  /-- The selector text it stands for. -/
  compound : Text
  key : KeyMatch
  deriving DecidableEq, Repr

/-- Reads a wrapper and a key in it. -/
def wrappedCompound? (input : Text) : Option KeyedCompound := do
  let (wrapper, rest) ← Wrapper.strip? input
  let key ← Registry.matchKey? true true rest
  some ⟨wrapper.lead ++ key.taken, wrapper.wrap key.lookup.entry.fragment, key⟩

/-- Reads a bare key. -/
def bareCompound? (input : Text) : Option KeyedCompound := do
  let key ← Registry.matchKey? true true input
  some ⟨key.taken, key.lookup.entry.fragment, key⟩

/-- Reads a key, in a wrapper where that is possible, with a label behind it. -/
def matchKeyword? (r : Relation) (style : MarkerStyle) (token : Text) : Option Match := do
  let rest ← Text.after? r.lead token
  let found ← (wrappedCompound? rest).or (bareCompound? rest)
  let label := found.key.label
  some {
    variant := .relation r
    taken := r.lead ++ found.taken
    residual := found.key.rest
    label
    change := .prependRelation
      ⟨.scoped (r.scopedMarker style label) found.compound (!label.isEmpty), r.combinator⟩
    sort := .rank found.key.lookup.rank }

/-- Reads the bracket form, and the keyword form where there is none. -/
def match? (r : Relation) (style : MarkerStyle) (token : Text) : Option Match :=
  (r.matchBracket? style token).or (r.matchKeyword? style token)

end Relation

end VariantSelector
