import VariantSelector.Variant.Resolution
import VariantSelector.Proofs.Bracketed.Balance
import VariantSelector.Proofs.Pseudo.LongestKey

/-!
The forms in which variants are written, apart from how they are read. A form is all that an author
writes in front of the character that ends it; which characters may end it is part of the form, and
so is what its variant says about a rule. The parts of a form carry what makes them parts of one, so
every form can be written.
-/

namespace VariantSelector

open Pseudo Bracketed

/-! ### Parts -/

structure Key where
  row : Lookup
  mem : row ∈ Registry.lookups

/-- A row of the registry that is a pseudo-class. -/
structure ClassKey extends Key where
  isClass : row.entry.isElement = false

/-- What may stand behind the key of a relation. -/
structure KeyLabel where
  text : Text
  wellFormed : text = [] ∨ IsLabel text

/-- What may stand in the brackets of a relation, with the selector text it stands for. -/
structure Payload where
  text : Text
  value : Text
  balanced : Balanced text
  nonblank : text.isBlank = false
  decodes : decode? text = some value

/-- What may stand behind the brackets of a relation. -/
structure GroupLabel where
  text : Text
  noSeparator : ∀ c ∈ text, isSeparator c = false

/-- What may stand in the brackets of a part. -/
structure PartName where
  text : Text
  balanced : Balanced text
  nonempty : text ≠ []

/-! ### Forms -/

/-- A written variant, up to the character that ends it. -/
inductive Form
  | bare (key : Key)
  | wrapped (wrapper : Wrapper) (key : ClassKey)
  | keyword (relation : Relation) (wrapper : Option Wrapper) (key : ClassKey) (label : KeyLabel)
  | bracketed (relation : Relation) (payload : Payload) (label : GroupLabel)
  | part (name : PartName)

def Wrapper.leadOf (w : Option Wrapper) : Text := w.elim [] lead

def Wrapper.wrapIn (w : Option Wrapper) (fragment : Text) : Text :=
  w.elim fragment (wrap · fragment)

namespace Form

@[simp] def text : Form → Text
  | .bare key => key.row.entry.key
  | .wrapped wrapper key => wrapper.lead ++ key.row.entry.key
  | .keyword relation wrapper key label =>
    relation.lead ++ (Wrapper.leadOf wrapper ++ (key.row.entry.key ++ label.text))
  | .bracketed relation payload label =>
    relation.lead ++ ('[' :: (payload.text ++ (']' :: label.text)))
  | .part name => partLead ++ ('[' :: (name.text ++ [']']))

@[simp] def accepts : Form → Char → Bool
  | .bare key, c => key.row.table.accepts c
  | .wrapped _ key, c => key.row.table.accepts c
  | .keyword _ _ key _, c => key.row.table.accepts c
  | .bracketed .., c => isSeparator c
  | .part _, c => c = ':'

@[simp] def variant : Form → Variant
  | .bare _ => .plain
  | .wrapped .. => .functional
  | .keyword relation .. => .relation relation
  | .bracketed relation .. => .relation relation
  | .part _ => .part

/-- The characters of a form's key; a form in brackets has none. -/
@[simp] def keyLength : Form → Nat
  | .bare key => key.row.entry.key.length
  | .wrapped _ key => key.row.entry.key.length
  | .keyword _ _ key _ => key.row.entry.key.length
  | .bracketed .. => 0
  | .part _ => 0

@[simp] def label : Form → Text
  | .keyword _ _ _ label => label.text
  | .bracketed _ _ label => label.text
  | _ => []

/-- What a form says about the selector: a pseudo-element goes to its slot, a pseudo-class to the
subject, and a relation in front. -/
@[simp] def change (style : MarkerStyle) : Form → Change
  | .bare key =>
    if key.row.entry.isElement then .appendPseudo key.row.entry.fragment
    else .appendSelector key.row.entry.fragment
  | .wrapped wrapper key => .appendSelector (wrapper.wrap key.row.entry.fragment)
  | .keyword relation wrapper key label =>
    .prependRelation ⟨.scoped (relation.scopedMarker style label.text)
      (Wrapper.wrapIn wrapper key.row.entry.fragment) (!label.text.isEmpty), relation.combinator⟩
  | .bracketed relation payload label =>
    .prependRelation
      ⟨relation.bracketAncestor style label.text payload.value, relation.combinator⟩
  | .part name => .appendPseudo ("::part(".toList ++ (name.text ++ [')']))

@[simp] def sort : Form → SortHint
  | .bare key => .rank key.row.rank
  | .keyword _ _ key _ => .rank key.row.rank
  | .bracketed .. => .unranked
  | _ => .unchanged

@[simp] def noMerge : Form → Bool
  | .bare _ => true
  | _ => false

/-- The match of a form that `boundary` ends, in front of `rest`. -/
def reading (style : MarkerStyle) (f : Form) (boundary : Char) (rest : Text) : Match where
  variant := f.variant
  taken := f.text ++ [boundary]
  residual := rest
  label := f.label
  change := f.change style
  sort := f.sort
  noMerge := f.noMerge

/-- A token begins with a form that `boundary` ends. -/
structure Begins (f : Form) (boundary : Char) (rest token : Text) : Prop where
  accepts : f.accepts boundary = true
  token_eq : token = f.text ++ boundary :: rest

@[simp] theorem accepts_colon (f : Form) : f.accepts ':' = true := by
  cases f <;> simp [isSeparator]

theorem taken_append_rest (style : MarkerStyle) {f : Form} {boundary : Char} {rest token : Text}
    (h : f.Begins boundary rest token) :
    (f.reading style boundary rest).taken ++ rest = token := by
  rw [h.token_eq, reading, List.append_assoc, List.singleton_append]

end Form

end VariantSelector
