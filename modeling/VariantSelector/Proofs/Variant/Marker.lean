import VariantSelector.Proofs.Css.Simple
import VariantSelector.Proofs.Resolution.Rendering

/-!
The marker that a relation puts in front. As a class it is one simple selector whatever its label
is, and its name is the tag with the label behind it, so two labels name two markers. As an
attribute it is one only without a label: the label is written behind the closing bracket, where it
is no part of the attribute selector and is left over (`Variant.Marks.base_standsAlone_iff`).
-/

namespace VariantSelector

open Css

/-! ### One simple selector and what is left -/

theorem Css.escape_eq_nil_iff {s : Text} : escape s = [] ↔ s = [] := by
  constructor
  · intro h
    by_contra hs
    have hstart := startsIdentifier_escape hs []
    rw [h] at hstart
    cases hstart
  · rintro rfl
    rfl

namespace Relation

/-- The name of a class marker is read to its end. -/
theorem readSimple?_byClass (r : Relation) (label : Text) :
    readSimple? (r.scopedMarker .byClass label)
      = some (.ofClass (r.tag ++ label.map replaceNul), []) := by
  have hname : ReadsName (r.tag ++ escape label ++ []) (r.tag ++ label.map replaceNul) [] := by
    refine Spells.readsName ?_ ?_ (readIdentifier_of_stop (by simp))
    · exact (spells_of_isPlainName r.isPlainName_tag []).1.append (spells_escape label)
    · rw [List.append_assoc]
      exact (spells_of_isPlainName r.isPlainName_tag _).2
  rw [List.append_nil] at hname
  exact hname.readSimple?_class

/-- An attribute marker ends at its bracket, and the label is left over. -/
theorem readSimple?_byAttribute (r : Relation) (label : Text) :
    readSimple? (r.scopedMarker .byAttribute label)
      = some (.ofAttribute r.tag (some (.equals, [])), escape label) := by
  have hread := readSimple?_attribute r.isPlainName_tag (escape label)
  rw [scopedMarker, marker, List.cons_append, List.append_assoc]
  exact hread

/-- Where a marker with this label is one simple selector, and which one. -/
theorem standsAlone_scopedMarker_iff (r : Relation) (style : MarkerStyle) (label : Text)
    (sel : SimpleSelector) :
    sel.StandsAlone (r.scopedMarker style label) ↔
      style = .byClass ∧ sel = .ofClass (r.tag ++ label.map replaceNul) ∨
      style = .byAttribute ∧ label = [] ∧ sel = .ofAttribute r.tag (some (.equals, [])) := by
  cases style with
  | byClass => simp [SimpleSelector.standsAlone_iff (r.readSimple?_byClass label)]
  | byAttribute =>
    simp [SimpleSelector.standsAlone_iff (r.readSimple?_byAttribute label), escape_eq_nil_iff,
      and_comm]

end Relation

/-! ### Markers of matches -/

/-- Some token is read as this variant, with this label, and the segment that is put in front has
this base. -/
inductive Variant.Marks (v : Variant) : MarkerStyle → Text → Text → Prop
  | intro {ctx : Context} {token base compound : Text} {m : Match} {labeled : Bool} {k : Combinator}
      (hm : v.match? ctx token = some m)
      (hchange : m.change = .prependRelation ⟨.scoped base compound labeled, k⟩) :
      Marks v ctx.style m.label base

/-- A form that puts a scoped segment in front is one of a relation, and the base is its marker. -/
theorem Form.exists_scopedMarker {style : MarkerStyle} {f : Form} {base compound : Text}
    {labeled : Bool} {k : Combinator}
    (h : f.change style = .prependRelation ⟨.scoped base compound labeled, k⟩) :
    ∃ r : Relation, f.variant = .relation r ∧ base = r.scopedMarker style f.label := by
  cases f with
  | bare key =>
    rw [Form.change] at h
    split at h <;> cases h
  | wrapped wrapper key => cases h
  | keyword r wrapper key label =>
    cases h
    exact ⟨r, rfl, rfl⟩
  | bracketed r payload label =>
    simp only [Form.change, Relation.bracketAncestor] at h
    split at h
    · cases h
    · cases h
      exact ⟨r, rfl, rfl⟩
  | part name => cases h

theorem Variant.Marks.exists_relation {v : Variant} {style : MarkerStyle} {label base : Text}
    (h : v.Marks style label base) :
    ∃ r : Relation, v = .relation r ∧ base = r.scopedMarker style label := by
  obtain ⟨hm, hchange⟩ := h
  obtain ⟨f, b, rest, rfl, -, rfl, -⟩ := isReading_of_match? hm
  exact Form.exists_scopedMarker hchange

/-- A class marker is one class selector, whose name is the tag with the label behind it; an
attribute marker is one attribute selector if there is no label, and no simple selector at all if
there is one. So two labels with the same marker are the same, up to U+0000. -/
theorem Variant.Marks.base_standsAlone_iff {v : Variant} {style : MarkerStyle} {label base : Text}
    (h : v.Marks style label base) :
    ∃ r : Relation, v = .relation r ∧
      (∀ sel : SimpleSelector, sel.StandsAlone base ↔
        style = .byClass ∧ sel = .ofClass (r.tag ++ label.map replaceNul) ∨
        style = .byAttribute ∧ label = [] ∧ sel = .ofAttribute r.tag (some (.equals, []))) ∧
      ∀ label' base', v.Marks style label' base' → ∀ sel : SimpleSelector,
        sel.StandsAlone base → sel.StandsAlone base' →
          label.map replaceNul = label'.map replaceNul := by
  obtain ⟨r, rfl, rfl⟩ := h.exists_relation
  refine ⟨r, rfl, r.standsAlone_scopedMarker_iff style label, ?_⟩
  intro label' base' h' sel hsel hsel'
  obtain ⟨r', hr, rfl⟩ := h'.exists_relation
  cases hr
  rw [Relation.standsAlone_scopedMarker_iff] at hsel hsel'
  rcases hsel with ⟨rfl, rfl⟩ | ⟨rfl, rfl, rfl⟩
  · rcases hsel' with ⟨-, heq⟩ | ⟨hstyle, -⟩
    · simpa using heq
    · cases hstyle
  · rcases hsel' with ⟨hstyle, -⟩ | ⟨-, rfl, -⟩
    · cases hstyle
    · rfl

/-- A label of digits, blanks and quotes is part of the class. -/
theorem Variant.Marks.base_standsAlone_iff_quotes :
    let label : Text := "1 \"é\"".toList
    ∃ base, (Variant.relation .group).Marks .byClass label base ∧
      base = ".group\\31 \\ \\\"é\\\"".toList ∧
      (SimpleSelector.ofClass "group1 \"é\"".toList).StandsAlone base := by
  intro label
  have hm : (Variant.relation .group).match? {} "group-[.a]1 \"é\":x".toList = some _ := rfl
  have h := Marks.intro hm rfl
  obtain ⟨r, hr, hiff, -⟩ := h.base_standsAlone_iff
  cases hr
  exact ⟨_, h, by decide, (hiff _).2 (.inl ⟨rfl, rfl⟩)⟩

/-- A label behind an attribute marker leaves no simple selector: what is read of the marker ends in
front of `\/item`. -/
theorem Variant.not_forall_exists_standsAlone :
    ¬ ∀ (v : Variant) (style : MarkerStyle) (label base : Text), v.Marks style label base →
        ∃ sel : SimpleSelector, sel.StandsAlone base := by
  intro hall
  have hm : (Variant.relation .group).match? { style := .byAttribute }
      "group-hover/item:x".toList = some _ := rfl
  obtain ⟨sel, hsel⟩ := hall _ _ _ _ (Marks.intro hm rfl)
  rcases (Relation.group.standsAlone_scopedMarker_iff .byAttribute "/item".toList sel).1 hsel with
    ⟨hstyle, -⟩ | ⟨-, hlabel, -⟩
  · cases hstyle
  · exact absurd hlabel (by decide)

end VariantSelector
