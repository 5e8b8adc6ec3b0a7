import VariantSelector.Proofs.Variant.Reading

/-!
Pseudo-elements behind wrappers and relations. Behind these only pseudo-classes are looked for, so
the key of a pseudo-element is never read; but the key of a pseudo-class may stand in the same text.
There are two ways for it to (`Pseudo.KeyMatch.ReadsRow.beside_element`): `first` is where
`first-letter` and `first-line` begin, and `placeholder-shown` goes on where `placeholder` ends,
which matters where a label keeps the longer key from being read without a relation. In all other
places nothing is read (`Variant.match?_of_element`).
-/

namespace VariantSelector

open Pseudo Bracketed

/-! ### Keys in the text of a pseudo-element -/

/-- The key `first`. -/
def ClassKey.first : ClassKey where
  row := (Registry.lookup? "first".toList).get (by decide)
  mem := by decide
  isClass := by decide

/-- The key `placeholder-shown`. -/
def ClassKey.placeholderShown : ClassKey where
  row := (Registry.lookup? "placeholder-shown".toList).get (by decide)
  mem := by decide
  isClass := by decide

namespace Pseudo

namespace Registry

/-- The pseudo-elements whose keys begin with `first-`. -/
def firstElements : List Text := ["::first-letter".toList, "::first-line".toList]

theorem eq_first_of_isElement :
    ∀ e ∈ lookups, e.entry.isElement = true → ∀ k ∈ lookups, k.entry.isElement = false →
      (k.entry.key ++ ['-']) <+: e.entry.key →
        e.entry.fragment ∈ firstElements ∧ k = ClassKey.first.row := by
  decide +kernel

theorem eq_placeholderShown_of_isElement :
    ∀ e ∈ lookups, e.entry.isElement = true → ∀ k ∈ lookups, k.entry.isElement = false →
      (e.entry.key ++ ['-']) <+: k.entry.key →
        e.entry.fragment ∉ firstElements ∧ k = ClassKey.placeholderShown.row := by
  decide +kernel

theorem first_prefix_of_mem_firstElements :
    ∀ e ∈ lookups, e.entry.fragment ∈ firstElements → "first-".toList <+: e.entry.key := by
  decide +kernel

end Registry

namespace KeyMatch

variable {e k : KeyMatch} {classesOnly labels : Bool} {input : Text}

/-- What can be read under restrictions can be read without. -/
theorem ReadsRow.unrestricted (h : k.ReadsRow classesOnly labels input) :
    k.ReadsRow false true input where
  label := h.label.imp id fun hlabel => ⟨rfl, hlabel.2⟩
  boundary := h.boundary
  input_eq := h.input_eq
  row := h.row
  admitted := rfl

/-- Where the key of a pseudo-element is read, that of a pseudo-class can be read in two ways. -/
theorem ReadsRow.beside_element (he : Registry.matchKey? false false input = some e)
    (helement : e.lookup.entry.isElement = true) (hk : k.ReadsRow true labels input) :
    e.lookup.entry.fragment ∈ Registry.firstElements ∧ k.lookup = ClassKey.first.row ∧
      k.label = [] ∧ k.boundary = '-' ∨
    e.lookup.entry.fragment ∉ Registry.firstElements ∧ k.lookup = ClassKey.placeholderShown.row ∧
      labels = true ∧ IsLabel k.label := by
  have hread := Registry.readsRow_of_matchKey? he
  have hclass : k.lookup.entry.isElement = false := Entry.admitted_iff.1 hk.admitted rfl
  rcases Nat.lt_trichotomy k.lookup.entry.key.length e.lookup.entry.key.length with h | h | h
  · obtain ⟨hlabel, hb, hkey⟩ := hk.unrestricted.dash_of_length_lt hread.unrestricted h
    obtain ⟨hfirst, hrow⟩ :=
      Registry.eq_first_of_isElement _ hread.row helement _ hk.row hclass hkey
    exact .inl ⟨hfirst, hrow, hlabel, hb⟩
  · have heq := hk.unrestricted.eq_of_length_eq hread.unrestricted h
    rw [heq, helement] at hclass
    cases hclass
  · obtain ⟨-, -, hkey⟩ := hread.unrestricted.dash_of_length_lt hk.unrestricted h
    obtain ⟨hfirst, hrow⟩ :=
      Registry.eq_placeholderShown_of_isElement _ hread.row helement _ hk.row hclass hkey
    rcases hk.label with hlabel | ⟨hlabels, hlabel⟩
    · -- without a label the longer key would have been read instead of the pseudo-element's
      have hplain : k.ReadsRow false false input :=
        ⟨⟨.inl hlabel, hk.boundary, hk.input_eq⟩, hk.row, rfl⟩
      have := Registry.length_le_of_matchKey? he hplain
      omega
    · exact .inr ⟨hfirst, hrow, hlabels, hlabel⟩

end KeyMatch

end Pseudo

/-! ### Keys behind wrappers and relations -/

theorem Wrapper.matchKey?_lead_append (w : Wrapper) (classesOnly labels : Bool) (rest : Text) :
    Registry.matchKey? classesOnly labels (w.lead ++ rest) = none := by
  rw [Registry.matchKey?_eq_none_iff]
  intro m hm
  have := Wrapper.strip?_of_reads hm
  rw [w.strip?_lead_append] at this
  cases this

namespace Relation

variable {r : Relation} {input : Text} {m : KeyMatch} {classesOnly labels : Bool}

/-- Where a key begins, the relation reads a key of a pseudo-class or nothing. -/
theorem match?_eq_none_of_matchKey? (style : MarkerStyle) (hm : m.ReadsRow classesOnly labels input)
    (hnone : Registry.matchKey? true true input = none) (w : Option Wrapper) :
    r.match? style (r.lead ++ (Wrapper.leadOf w ++ input)) = none := by
  have hwrapped : wrappedCompound? (Wrapper.leadOf w ++ input) = none := by
    rw [wrappedCompound?, Wrapper.strip?_leadOf_append hm w]
    cases w with
    | none => rfl
    | some w => simp [hnone]
  have hbare : bareCompound? (Wrapper.leadOf w ++ input) = none := by
    cases w with
    | none => simp [bareCompound?, Wrapper.leadOf, hnone]
    | some w => simp [bareCompound?, Wrapper.leadOf, w.matchKey?_lead_append]
  rw [match?, matchBracket?_of_readsRow style hm w, Option.none_or, matchKeyword?,
    Text.after?_append]
  simp only [Option.bind_eq_bind, Option.bind_some, hwrapped, hbare, Option.or_none,
    Option.bind_none]

theorem match?_of_matchKey? (style : MarkerStyle) {key : ClassKey} {label : KeyLabel} {b : Char}
    {rest : Text} (hkey : Registry.matchKey? true true input = some ⟨key.row, label.text, b, rest⟩)
    (w : Option Wrapper) :
    r.match? style (r.lead ++ (Wrapper.leadOf w ++ input))
      = some ((Form.keyword r w key label).reading style b rest) := by
  rw [match?, matchBracket?_of_readsRow style (Registry.readsRow_of_matchKey? hkey) w,
    Option.none_or, matchKeyword?_of_matchKey? style hkey w]
  simp [Form.reading, KeyMatch.taken]

end Relation

/-! ### What is read where a pseudo-element stands -/

/-- No label. -/
def KeyLabel.none : KeyLabel := ⟨[], .inl rfl⟩

/-- A text begins with `placeholder-shown` and a label, which `boundary` ends. -/
structure BeginsLabeledPlaceholder (label : KeyLabel) (boundary : Char) (rest s : Text) : Prop where
  labeled : label.text ≠ []
  accepts : ClassKey.placeholderShown.row.table.accepts boundary = true
  text_eq : s = ClassKey.placeholderShown.row.entry.key ++ (label.text ++ boundary :: rest)

section Element

variable {e : KeyMatch} {input : Text}

theorem matchKey?_eq_none_of_element (labels : Bool)
    (he : Registry.matchKey? false false input = some e)
    (helement : e.lookup.entry.isElement = true)
    (hfirst : e.lookup.entry.fragment ∉ Registry.firstElements)
    (hlabel : labels = true → ∀ (label : KeyLabel) (b : Char) (rest : Text),
      ¬ BeginsLabeledPlaceholder label b rest input) :
    Registry.matchKey? true labels input = none := by
  rw [Registry.matchKey?_eq_none_iff]
  intro k hk
  rcases hk.beside_element he helement with ⟨hmem, -⟩ | ⟨-, hrow, hlabels, hname⟩
  · exact hfirst hmem
  · refine hlabel hlabels ⟨k.label, .inr hname⟩ k.boundary k.rest ⟨?_, ?_, ?_⟩
    · obtain ⟨name, heq, -⟩ := hname
      simp [heq]
    · rw [← hrow]
      exact hk.boundary
    · rw [← hrow]
      simpa [KeyMatch.taken] using hk.input_eq

theorem matchKey?_of_mem_firstElements (labels : Bool)
    (he : Registry.matchKey? false false input = some e)
    (helement : e.lookup.entry.isElement = true)
    (hfirst : e.lookup.entry.fragment ∈ Registry.firstElements) {rest : Text}
    (hinput : input = "first-".toList ++ rest) :
    Registry.matchKey? true labels input
      = some ⟨ClassKey.first.row, KeyLabel.none.text, '-', rest⟩ := by
  rw [Registry.matchKey?_eq_some_iff]
  constructor
  · subst hinput
    exact ClassKey.first.readsRow true labels rest ClassKey.first.admitted (.inl rfl) rfl
  · intro k hk
    rcases hk.beside_element he helement with ⟨-, hrow, -⟩ | ⟨hmem, -⟩
    · rw [hrow]
    · exact absurd hfirst hmem

theorem matchKey?_of_beginsLabeledPlaceholder (he : Registry.matchKey? false false input = some e)
    (helement : e.lookup.entry.isElement = true) {label : KeyLabel} {b : Char} {rest : Text}
    (h : BeginsLabeledPlaceholder label b rest input) :
    Registry.matchKey? true true input
      = some ⟨ClassKey.placeholderShown.row, label.text, b, rest⟩ := by
  rw [Registry.matchKey?_eq_some_iff]
  constructor
  · rw [h.text_eq]
    exact ClassKey.placeholderShown.readsRow_label label rest h.accepts
  · intro k hk
    rcases hk.beside_element he helement with ⟨-, hrow, -⟩ | ⟨-, hrow, -⟩
    · rw [hrow]
      show ClassKey.first.row.entry.key.length ≤ ClassKey.placeholderShown.row.entry.key.length
      decide
    · rw [hrow]

end Element

/-- What is read behind a wrapper, or a relation with or without one, where the key of a
pseudo-element stands that is read on its own. It is nothing, except that `first` is read of the
pseudo-elements that go on behind it, and that a relation reads `placeholder-shown` where a label
stands behind it. The pseudo-element is never what is read. -/
theorem Variant.match?_of_element {style : MarkerStyle} {r element : Text} {m : Match}
    (h : Variant.plain.match? { style } r = some m) (helement : m.change = .appendPseudo element) :
    let ctx : Context := { style }
    (element ∉ Registry.firstElements →
      (∀ w : Wrapper, Variant.functional.match? ctx (w.lead ++ r) = none) ∧
      ((∀ (label : KeyLabel) (b : Char) (rest : Text),
          ¬ BeginsLabeledPlaceholder label b rest r) →
        ∀ (q : Relation) (w : Option Wrapper),
          (Variant.relation q).match? ctx (q.lead ++ (Wrapper.leadOf w ++ r)) = none)) ∧
    (element ∈ Registry.firstElements → ∃ rest : Text, r = "first-".toList ++ rest ∧
      (∀ w : Wrapper, Variant.functional.match? ctx (w.lead ++ r)
        = some ((Form.wrapped w .first).reading style '-' rest)) ∧
      ∀ (q : Relation) (w : Option Wrapper),
        (Variant.relation q).match? ctx (q.lead ++ (Wrapper.leadOf w ++ r))
          = some ((Form.keyword q w .first .none).reading style '-' rest)) ∧
    ∀ (label : KeyLabel) (b : Char) (rest : Text), BeginsLabeledPlaceholder label b rest r →
      ∀ (q : Relation) (w : Option Wrapper),
        (Variant.relation q).match? ctx (q.lead ++ (Wrapper.leadOf w ++ r))
          = some ((Form.keyword q w .placeholderShown label).reading style b rest) := by
  intro ctx
  obtain ⟨e, he, h⟩ := Option.bind_eq_some_iff.1 h
  cases h
  change Registry.matchKey? false false r = some e at he
  have hread := Registry.readsRow_of_matchKey? he
  obtain ⟨his, rfl⟩ : e.lookup.entry.isElement = true ∧ e.lookup.entry.fragment = element := by
    dsimp only at helement
    split at helement
    next his => exact ⟨his, by simpa using helement⟩
    next => cases helement
  refine ⟨fun hfirst => ⟨fun w => ?_, fun hlabel q w => ?_⟩, fun hfirst => ?_, ?_⟩
  · have hnone := matchKey?_eq_none_of_element false he his hfirst
      fun h => absurd h Bool.false_ne_true
    exact (matchFunctional?_eq rfl).trans (by rw [hnone]; rfl)
  · have hnone := matchKey?_eq_none_of_element true he his hfirst fun _ => hlabel
    exact Relation.match?_eq_none_of_matchKey? style hread hnone w
  · obtain ⟨tail, hkey⟩ := Registry.first_prefix_of_mem_firstElements _ hread.row hfirst
    have hr : r = "first-".toList ++ (tail ++ (e.label ++ e.boundary :: e.rest)) := by
      rw [hread.input_eq, KeyMatch.taken, ← hkey]
      simp only [List.append_assoc, List.singleton_append]
    refine ⟨_, hr, fun w => ?_, fun q w => ?_⟩
    · refine (matchFunctional?_eq rfl).trans ?_
      rw [matchKey?_of_mem_firstElements false he his hfirst hr]
      simp [Form.reading, KeyMatch.taken, KeyLabel.none]
    · exact Relation.match?_of_matchKey? style
        (matchKey?_of_mem_firstElements true he his hfirst hr) w
  · intro label b rest hbegins q w
    exact Relation.match?_of_matchKey? style
      (matchKey?_of_beginsLabeledPlaceholder he his hbegins) w

/-- Behind `not-` and `peer-not-`, `before` is not read and `first-line` is read as `first`; behind
`peer-not-`, `placeholder-shown` is read with its label. -/
theorem Variant.match?_of_element_before :
    let ctx : Context := { style := .byAttribute }
    let before : Text := "before-b".toList
    let line : Text := "first-line:b".toList
    let shown : Text := "placeholder-shown/item:b".toList
    let element (s : Text) := (Variant.plain.match? ctx s).map Match.change
    (element before = some (.appendPseudo "::before".toList) ∧
      Variant.functional.match? ctx ("not-".toList ++ before) = none ∧
      (Variant.relation .peer).match? ctx ("peer-".toList ++ ("not-".toList ++ before)) = none) ∧
    (element line = some (.appendPseudo "::first-line".toList) ∧
      Variant.functional.match? ctx ("not-".toList ++ line)
        = some ((Form.wrapped .not .first).reading .byAttribute '-' "line:b".toList)) ∧
    element shown = some (.appendPseudo "::placeholder".toList) ∧
      ((Variant.relation .peer).match? ctx ("peer-".toList ++ ("not-".toList ++ shown))).map
        Match.label = some "/item".toList := by
  intro ctx before line shown element
  have hread : ∀ {s t : Text}, element s = some (.appendPseudo t) →
      ∃ m, Variant.plain.match? ctx s = some m ∧ m.change = .appendPseudo t :=
    fun h => Option.map_eq_some_iff.1 h
  have hbefore : element before = some (.appendPseudo "::before".toList) := by decide
  have hline : element line = some (.appendPseudo "::first-line".toList) := by decide
  have hshown : element shown = some (.appendPseudo "::placeholder".toList) := by decide
  refine ⟨⟨hbefore, ?_⟩, ⟨hline, ?_⟩, hshown, ?_⟩
  · obtain ⟨m, hm, hchange⟩ := hread hbefore
    obtain ⟨hwrapped, hrelation⟩ := (match?_of_element hm hchange).1 (by decide)
    refine ⟨hwrapped .not, hrelation ?_ .peer (some .not)⟩
    intro label b rest hbegins
    exact absurd (List.cons.inj hbegins.text_eq).1 (by decide)
  · obtain ⟨m, hm, hchange⟩ := hread hline
    obtain ⟨rest, hrest, hwrapped, -⟩ := (match?_of_element hm hchange).2.1 (by decide)
    change "first-".toList ++ "line:b".toList = "first-".toList ++ rest at hrest
    obtain rfl := List.append_cancel_left hrest
    exact hwrapped .not
  · obtain ⟨m, hm, hchange⟩ := hread hshown
    let label : KeyLabel :=
      ⟨"/item".toList, .inr ⟨"item".toList, rfl, by decide, List.all_eq_true.1 (by decide)⟩⟩
    have hbegins : BeginsLabeledPlaceholder label ':' ['b'] shown := ⟨by decide, rfl, rfl⟩
    have := (match?_of_element hm hchange).2.2 label ':' ['b'] hbegins .peer (some .not)
    exact (congrArg (Option.map Match.label) this).trans rfl

/-- Neither exception can be left out: a wrapper and a relation read `first` of `first-letter`, and
in a text that is no such case a relation reads a key with a label. -/
theorem Variant.not_forall_match?_of_element :
    ¬ (∀ (style : MarkerStyle) (r element : Text) (m : Match),
        Variant.plain.match? { style } r = some m → m.change = .appendPseudo element →
          ∀ w : Wrapper, Variant.functional.match? { style } (w.lead ++ r) = none) ∧
    ¬ (∀ (style : MarkerStyle) (r element : Text) (m : Match),
        Variant.plain.match? { style } r = some m → m.change = .appendPseudo element →
          ∀ (q : Relation) (w : Option Wrapper),
            (Variant.relation q).match? { style } (q.lead ++ (Wrapper.leadOf w ++ r)) = none) ∧
    ¬ (∀ (style : MarkerStyle) (r element : Text) (m : Match),
        Variant.plain.match? { style } r = some m → m.change = .appendPseudo element →
          element ∉ Registry.firstElements → ∀ (q : Relation) (w : Option Wrapper),
            (Variant.relation q).match? { style } (q.lead ++ (Wrapper.leadOf w ++ r)) = none) := by
  refine ⟨fun h => ?_, fun h => ?_, fun h => ?_⟩
  · have := h .byClass "first-letter:x".toList "::first-letter".toList _ rfl (by decide) .not
    exact absurd this (by decide)
  · have := h .byClass "first-letter:x".toList "::first-letter".toList _ rfl (by decide) .group none
    exact absurd this (by decide)
  · have := h .byClass "placeholder-shown/item:x".toList "::placeholder".toList _ rfl (by decide)
      (by decide) .group none
    exact absurd this (by decide)

end VariantSelector
