import VariantSelector.Proofs.Css.Selector
import VariantSelector.Proofs.Resolution.Run
import VariantSelector.Proofs.Selector.NormalForm
import VariantSelector.Proofs.Variant.Fragment

/-!
Rendered selectors are read back. A match of a key says one thing in plain names: a pseudo-class, a
pseudo-element, or a relation to a marker under one pseudo-class (`Change.IsPlain`). As matches
change a rule, a selector as it is read changes along with it (`Rule.Tells`), pseudo-classes moving
into the step in front where segments join; and at any time the rule's text reads as that selector
and as no other (`Context.reads_selector`).
-/

namespace VariantSelector

open Pseudo Css

/-! ### What matches say -/

/-- A match of a relation in brackets, or of a part. -/
def Match.isBracketed (m : Match) : Bool :=
  match m.variant with
  | .relation r => (r.lead ++ ['[']).isPrefixOf m.taken
  | .part => true
  | _ => false

/-- The text behind the subject that a change brings in. -/
def Change.selectorText? : Change → Option Text
  | .appendSelector text => some text
  | _ => none

/-- The text in the pseudo-element slot that a change brings in. -/
def Change.pseudoText? : Change → Option Text
  | .appendPseudo text => some text
  | _ => none

/-- The segment of a relation to a marker under pseudo-classes. -/
def Relation.segment (r : Relation) (label : KeyLabel) (classes : List PseudoClass) : Segment :=
  ⟨.scoped (r.scopedMarker .byClass label.text) (classes.flatMap PseudoClass.text)
    (!label.text.isEmpty), r.combinator⟩

inductive Change.IsPlain : Change → Prop
  | class {c : PseudoClass} (h : c.IsPlain) : IsPlain (.appendSelector c.text)
  | element {name : Text} (h : isPlainName name = true) : IsPlain (.appendPseudo (elementText name))
  | relation (r : Relation) (label : KeyLabel) {c : PseudoClass} (h : c.IsPlain) :
      IsPlain (.prependRelation (r.segment label [c]))

/-- The pseudo-class that selector text is, if it is one. -/
def Css.PseudoClass.ofText (s : Text) : PseudoClass where
  name := (s.drop 1).takeWhile isNameChar
  args := match (s.drop 1).dropWhile isNameChar with
    | [] => none
    | _ :: rest => some rest.dropLast

theorem Pseudo.Registry.pseudoClass_text {row : Lookup} (h : row ∈ Registry.lookups)
    (hclass : row.entry.isElement = false) :
    let c := PseudoClass.ofText row.entry.fragment
    c.text = row.entry.fragment ∧ isPlainName c.name = true ∧ ∀ args ∈ c.args, Nested args := by
  revert row
  decide +kernel

theorem Pseudo.Registry.elementText_drop {row : Lookup} (h : row ∈ Registry.lookups)
    (helement : row.entry.isElement = true) :
    elementText (row.entry.fragment.drop 2) = row.entry.fragment ∧
      isPlainName (row.entry.fragment.drop 2) = true := by
  revert row
  decide +kernel

theorem Wrapper.isPlainName_name (w : Wrapper) : isPlainName w.name = true := by
  cases w <;> decide

/-- A key of a pseudo-class stands for one pseudo-class, in a wrapper or not. -/
theorem ClassKey.exists_pseudoClass (key : ClassKey) (w : Option Wrapper) :
    ∃ c : PseudoClass, c.IsPlain ∧ c.text = Wrapper.wrapIn w key.row.entry.fragment := by
  cases w with
  | none =>
    obtain ⟨htext, hname, hargs⟩ := Registry.pseudoClass_text key.mem key.isClass
    exact ⟨_, ⟨hname, hargs⟩, htext⟩
  | some w =>
    refine ⟨⟨w.name, some key.row.entry.fragment⟩, ⟨w.isPlainName_name, ?_⟩, rfl⟩
    intro args hargs
    cases hargs
    exact Registry.nested_fragment key.mem

theorem Form.isPlain_change {f : Form} {b : Char} {rest : Text}
    (h : (f.reading .byClass b rest).isBracketed = false) : (f.change .byClass).IsPlain := by
  cases f with
  | bare key =>
    cases helement : key.row.entry.isElement with
    | false =>
      obtain ⟨c, hc, htext⟩ := ClassKey.exists_pseudoClass ⟨key, helement⟩ none
      have hplain := Change.IsPlain.class hc
      rw [htext] at hplain
      simp only [change, helement, Bool.false_eq_true, ↓reduceIte]
      exact hplain
    | true =>
      obtain ⟨htext, hname⟩ := Registry.elementText_drop key.mem helement
      have hplain := Change.IsPlain.element hname
      rw [htext] at hplain
      simpa only [change, helement, ↓reduceIte] using hplain
  | wrapped wrapper key =>
    obtain ⟨c, hc, htext⟩ := key.exists_pseudoClass (some wrapper)
    have hplain := Change.IsPlain.class hc
    rw [htext] at hplain
    exact hplain
  | keyword r wrapper key label =>
    obtain ⟨c, hc, htext⟩ := key.exists_pseudoClass wrapper
    have hsegment := Change.IsPlain.relation r label hc
    rw [Relation.segment, List.flatMap_singleton, htext] at hsegment
    exact hsegment
  | bracketed r payload label =>
    have hbracket : (r.lead ++ ['[']).isPrefixOf
        (((Form.bracketed r payload label).reading .byClass b rest).taken) = true := by
      rw [List.isPrefixOf_iff_prefix]
      exact ⟨payload.text ++ (']' :: label.text ++ [b]), by simp [reading]⟩
    exact absurd (hbracket.symm.trans h) (by decide)
  | part name => exact absurd h (by simp [Match.isBracketed, reading])

theorem Context.isPlain_of_match? {rules : TransformRules} {body : Text} {m : Match}
    (h : Context.match? { rules } body = some m) (hkeyed : m.isBracketed = false) :
    m.change.IsPlain := by
  obtain ⟨v, -, hv⟩ := List.exists_of_findSome?_eq_some h
  obtain ⟨f, b, rest, rfl, -, rfl, -⟩ := Variant.isReading_of_match? hv
  exact Form.isPlain_change hkeyed

/-! ### Markers -/

/-- The marker that a step of a selector tells of, up to the slash in its name. -/
def Css.Step.tag (step : Step) : Text := step.name.takeWhile (· ≠ '/')

/-- What the name of a step's marker has behind the tag. -/
def Css.Step.label (step : Step) : Text := step.name.dropWhile (· ≠ '/')

/-- The step of a selector that reads a relation to a marker. -/
def Relation.step (r : Relation) (label : KeyLabel) (classes : List PseudoClass) : Step :=
  ⟨r.tag ++ label.text, classes, r.combinator⟩

theorem Relation.isPlainName_tag (r : Relation) : isPlainName r.tag = true := by
  cases r <;> decide

theorem KeyLabel.ne_nul (label : KeyLabel) : ∀ c ∈ label.text, c ≠ '\x00' := by
  rintro c hc rfl
  rcases label.wellFormed with h | ⟨name, h, -, hword⟩
  · rw [h] at hc
    cases hc
  · rw [h, List.mem_cons] at hc
    rcases hc with hc | hc
    · exact absurd hc (by decide)
    · exact absurd (hword _ hc) (by decide)

theorem KeyLabel.spells (label : KeyLabel) : Spells label.text (escape label.text) := by
  have hsame : label.text.map replaceNul = label.text := by
    refine (List.map_congr_left (g := id) fun c hc => ?_).trans (List.map_id _)
    exact if_neg (label.ne_nul c hc)
  have hspells := spells_escape label.text
  rwa [hsame] at hspells

/-- No tag has a slash, and every label begins with one. -/
theorem Relation.tag_step (r : Relation) (label : KeyLabel) (classes : List PseudoClass) :
    (r.step label classes).tag = r.tag ∧ (r.step label classes).label = label.text := by
  have htag : ∀ c ∈ r.tag, decide (c ≠ '/') = true :=
    List.all_eq_true.1 (by cases r <;> decide)
  unfold Step.tag Step.label Relation.step
  rcases label.wellFormed with h | ⟨name, h, -, -⟩
  · rw [h, List.append_nil]
    exact ⟨List.takeWhile_eq_self_iff.2 htag, List.dropWhile_eq_nil_iff.2 htag⟩
  · rw [h]
    exact ⟨Text.takeWhile_append_cons htag (by decide), Text.dropWhile_append_cons htag (by decide)⟩

theorem Relation.readsName_marker (r : Relation) (label : KeyLabel) {rest : Text}
    (hrest : EndsName rest) :
    ReadsName (r.tag ++ escape label.text ++ rest) (r.tag ++ label.text) rest := by
  refine Spells.readsName ?_ ?_ hrest.readIdentifier
  · exact (spells_of_isPlainName r.isPlainName_tag []).1.append label.spells
  · rw [List.append_assoc]
    exact (spells_of_isPlainName r.isPlainName_tag _).2

/-- A step says what a segment says of some marker. -/
inductive Css.Step.Tells : Step → Segment → Prop
  | intro (r : Relation) (label : KeyLabel) {classes : List PseudoClass} (hne : classes ≠ [])
      (hplain : ∀ c ∈ classes, c.IsPlain) : Tells (r.step label classes) (r.segment label classes)

theorem Css.Step.Tells.extend {step step' : Step} {s s' : Segment} (h : step.Tells s)
    (h' : step'.Tells s') :
    ({ step with classes := step.classes ++ step'.classes }).Tells (s.extend s'.compound) := by
  cases h with
  | @intro r label classes hne hplain =>
    cases h' with
    | @intro r' label' classes' _ hplain' =>
      have hsegment : (r.segment label classes).extend (r'.segment label' classes').compound
          = r.segment label (classes ++ classes') := by
        simp [Relation.segment, Segment.extend, Segment.compound]
      rw [hsegment]
      refine .intro r label (fun h => hne (List.append_eq_nil_iff.1 h).1) ?_
      exact List.forall_mem_append.2 ⟨hplain, hplain'⟩

/-- Where segments join, the pseudo-classes of the second step move into the first. -/
theorem Css.Step.Tells.exists_prepend {step : Step} {s : Segment} (hs : step.Tells s)
    {steps : List Step} {chain : Chain} (h : List.Forall₂ Step.Tells steps chain.segments) :
    ∃ steps', List.Forall₂ Step.Tells steps' (chain.prepend s).segments := by
  obtain ⟨segments⟩ := chain
  cases h with
  | nil => exact ⟨[step], .cons hs .nil⟩
  | @cons step' t steps segments ht hrest =>
    by_cases hjoins : s.Joins t
    · rw [Chain.prepend_of_joins hjoins]
      exact ⟨_, .cons (hs.extend ht) hrest⟩
    · rw [Chain.prepend_of_not_joins hjoins]
      exact ⟨_, .cons hs (.cons ht hrest)⟩

/-- Steps in front of a selector are read back one by one. -/
theorem reads_segments {steps : List Step} {segments : List Segment} {rest : Text}
    {sel : ComplexSelector} (h : List.Forall₂ Step.Tells steps segments) (hsel : sel.Reads rest) :
    ({ sel with steps := steps ++ sel.steps }).Reads (segments.flatMap Segment.render ++ rest) := by
  induction h with
  | nil => exact hsel
  | @cons step s steps segments hs _ ih =>
    cases hs with
    | @intro r label classes hne hplain =>
      have htail : EndsName (r.combinator.symbol ++ (segments.flatMap Segment.render ++ rest)) :=
        endsName_symbol _ _
      have hread := ComplexSelector.Reads.step
        (r.readsName_marker label (endsName_flatMap_text classes htail))
        (reads_classes hplain htail) hne ih
      simpa [Segment.render, Ancestor.render, Relation.segment, Relation.scopedMarker,
        Relation.marker, Relation.step] using hread

/-! ### Rules -/

/-- The selector that a rule reads as, for a token of which these matches have been read. -/
structure Rule.Tells (token : Text) (ms : List Match) (rule : Rule) (sel : ComplexSelector) :
    Prop where
  steps : List.Forall₂ Step.Tells sel.steps rule.chain.segments
  name : sel.name = token.map replaceNul
  selector : rule.selector = classSelector token ++ sel.classes.flatMap PseudoClass.text
  pseudo : rule.pseudo = sel.elements.flatMap elementText
  plainClasses : ∀ c ∈ sel.classes, c.IsPlain
  plainElements : ∀ name ∈ sel.elements, isPlainName name = true
  classes : sel.classes.map PseudoClass.text = ms.filterMap (·.change.selectorText?)
  elements : sel.elements.map elementText = ms.filterMap (·.change.pseudoText?)

namespace Rule.Tells

variable {token : Text} {ms : List Match} {rule : Rule} {sel : ComplexSelector}

theorem ofClass (token : Text) :
    Tells token [] (Rule.ofClass token)
      { name := token.map replaceNul, classes := [], elements := [] } where
  steps := .nil
  name := rfl
  selector := (List.append_nil _).symm
  pseudo := rfl
  plainClasses := by simp
  plainElements := by simp
  classes := rfl
  elements := rfl

theorem apply (h : Tells token ms rule sel) {m : Match} (hm : m.change.IsPlain) :
    ∃ sel', Tells token (ms ++ [m]) (m.apply rule) sel' := by
  obtain ⟨variant, taken, residual, label, change, sort, noMerge⟩ := m
  cases hm with
  | @«class» c hc =>
    exact ⟨{ sel with classes := sel.classes ++ [c] }, {
      steps := h.steps
      name := h.name
      selector := by simp [Match.apply, h.selector]
      pseudo := h.pseudo
      plainClasses := List.forall_mem_append.2 ⟨h.plainClasses, List.forall_mem_singleton.2 hc⟩
      plainElements := h.plainElements
      classes := by simp [h.classes, Change.selectorText?]
      elements := by simp [h.elements, Change.pseudoText?] }⟩
  | @element name hname =>
    exact ⟨{ sel with elements := sel.elements ++ [name] }, {
      steps := h.steps
      name := h.name
      selector := h.selector
      pseudo := by simp [Match.apply, h.pseudo]
      plainClasses := h.plainClasses
      plainElements := List.forall_mem_append.2
        ⟨h.plainElements, List.forall_mem_singleton.2 hname⟩
      classes := by simp [h.classes, Change.selectorText?]
      elements := by simp [h.elements, Change.pseudoText?] }⟩
  | relation r label hc =>
    have hs := Step.Tells.intro r label (List.cons_ne_nil _ []) (List.forall_mem_singleton.2 hc)
    obtain ⟨steps, hsteps⟩ := hs.exists_prepend h.steps
    exact ⟨{ sel with steps }, {
      steps := hsteps
      name := h.name
      selector := h.selector
      pseudo := h.pseudo
      plainClasses := h.plainClasses
      plainElements := h.plainElements
      classes := by simp [h.classes, Change.selectorText?]
      elements := by simp [h.elements, Change.pseudoText?] }⟩

theorem foldl_apply (h : Tells token ms rule sel) {ms' : List Match}
    (hms' : ∀ m ∈ ms', m.change.IsPlain) :
    ∃ sel', Tells token (ms ++ ms') (ms'.foldl (fun rule m => m.apply rule) rule) sel' := by
  induction ms' generalizing ms rule sel with
  | nil => exact ⟨sel, by simpa using h⟩
  | cons m ms' ih =>
    rw [List.forall_mem_cons] at hms'
    obtain ⟨sel', h'⟩ := h.apply hms'.1
    obtain ⟨sel'', h''⟩ := ih h' hms'.2
    exact ⟨sel'', by simpa using h''⟩

/-- What a rule renders is read as the selector that it tells. -/
theorem reads_render (h : Tells token ms rule sel) (htoken : token ≠ []) :
    sel.Reads rule.render := by
  have hend : EndsName (sel.elements.flatMap elementText) := endsName_flatMap_elementText _
  have hname : ReadsName (escape token ++ (sel.classes.flatMap PseudoClass.text ++
      sel.elements.flatMap elementText)) sel.name (sel.classes.flatMap PseudoClass.text ++
      sel.elements.flatMap elementText) := by
    rw [h.name]
    exact (spells_escape token).readsName (startsIdentifier_escape htoken _)
      (endsName_flatMap_text sel.classes hend).readIdentifier
  have hsubject := ComplexSelector.Reads.subject hname (reads_classes h.plainClasses hend)
    (reads_elements h.plainElements)
  have hread := reads_segments h.steps hsubject
  simpa [Rule.render, Chain.render, h.selector, h.pseudo, classSelector] using hread

end Rule.Tells

/-! ### Resolutions -/

namespace Context

theorem exists_tells_resolve {rules : TransformRules} {token : Text}
    (h : ∀ m ∈ (resolve { rules } token).variants, m.isBracketed = false) :
    ∃ sel, Rule.Tells token (resolve { rules } token).variants (resolve { rules } token).rule
      sel := by
  refine (Rule.Tells.ofClass token).foldl_apply fun m hm => ?_
  obtain ⟨body, hbody⟩ := (strip_run { rules } token).exists_match? m hm
  exact isPlain_of_match? hbody (h m hm)

/-- Of a token that is written with keys alone, the selector is read back, and in one way: as steps
that say what the segments say, with tag, label, pseudo-classes and combinator; the class that is
the token, up to U+0000; and the pseudo-classes and pseudo-elements that the matches brought in, in
order. So no two such tokens render the same selector, up to U+0000. -/
theorem reads_selector (rules : TransformRules) (token : Text) (htoken : token ≠ [])
    (hkeyed : ∀ m ∈ (resolve { rules } token).variants, m.isBracketed = false) :
    let r := resolve { rules } token
    ∃ sel : ComplexSelector,
      (∀ other : ComplexSelector, other.Reads r.selector ↔ other = sel) ∧
      List.Forall₂ (fun (step : Step) segment => ∃ (q : Relation) (label : KeyLabel),
        step.tag = q.tag ∧ step.label = label.text ∧ step.combinator = q.combinator ∧
          segment = q.segment label step.classes) sel.steps r.rule.chain.segments ∧
      sel.name = token.map replaceNul ∧
      sel.classes.map PseudoClass.text = r.variants.filterMap (·.change.selectorText?) ∧
      sel.elements.map elementText = r.variants.filterMap (·.change.pseudoText?) ∧
      ∀ (rules' : TransformRules) (token' : Text), token' ≠ [] →
        (∀ m ∈ (resolve { rules := rules' } token').variants, m.isBracketed = false) →
          (resolve { rules := rules' } token').selector = r.selector →
            token'.map replaceNul = token.map replaceNul := by
  intro r
  obtain ⟨sel, hsel⟩ := exists_tells_resolve hkeyed
  have hreads : sel.Reads r.selector := hsel.reads_render htoken
  refine ⟨sel, ?_, ?_, hsel.name, hsel.classes, hsel.elements, ?_⟩
  · intro other
    constructor
    · intro hother
      exact hother.unique hreads
    · rintro rfl
      exact hreads
  · refine hsel.steps.imp fun step segment htells => ?_
    cases htells with
    | @intro q label classes _ _ =>
      obtain ⟨htag, hlabel⟩ := q.tag_step label classes
      exact ⟨q, label, htag, hlabel, rfl, rfl⟩
  · intro rules' token' htoken' hkeyed' heq
    obtain ⟨sel', hsel'⟩ := exists_tells_resolve hkeyed'
    have hreads' : sel'.Reads (resolve { rules := rules' } token').selector :=
      hsel'.reads_render htoken'
    rw [heq] at hreads'
    rw [← hsel'.name, ← hsel.name, hreads'.unique hreads]

/-- All four relations, a label, segments that join, a wrapper, a pseudo-element, and a body with a
comma behind a rewritten colon: each comes back from the selector. -/
theorem reads_selector_stack :
    let rules : TransformRules := [([':'], "-c-".toList)]
    let token : Text := "group-hover:group-focus:peer-checked/item:".toList
      ++ "parent-active:previous-empty:not-hover-c-before:1,x".toList
    let r := resolve { rules } token
    token ≠ [] ∧ (∀ m ∈ r.variants, m.isBracketed = false) ∧
      r.selector = ".previous:empty+.parent:active>.peer\\/item:checked~.group:focus:hover ".toList
        ++ ".group-hover\\:group-focus\\:peer-checked\\/item\\:".toList
        ++ "parent-active\\:previous-empty\\:not-hover-c-before\\:1\\2c x".toList
        ++ ":not(:hover)::before".toList ∧
      ∃ sel : ComplexSelector,
        (∀ other : ComplexSelector, other.Reads r.selector ↔ other = sel) ∧
        sel.steps.length = 4 ∧ sel.name = token ∧
        sel.classes.map PseudoClass.text = [":not(:hover)".toList] ∧
        sel.elements.map elementText = ["::before".toList] := by
  intro rules token r
  have htoken : token ≠ [] := by decide
  have htext : token.map replaceNul = token := by decide
  have hmatches : r.variants.all (!·.isBracketed) = true ∧ r.rule.chain.segments.length = 4 ∧
      r.variants.filterMap (·.change.selectorText?) = [":not(:hover)".toList] ∧
      r.variants.filterMap (·.change.pseudoText?) = ["::before".toList] := by decide +kernel
  obtain ⟨hall, hlength, hselector, hpseudo⟩ := hmatches
  have hkeyed : ∀ m ∈ r.variants, m.isBracketed = false := by simpa using hall
  refine ⟨htoken, hkeyed, by decide +kernel, ?_⟩
  obtain ⟨sel, hreads, hsteps, hname, hclasses, helements, -⟩ :=
    reads_selector rules token htoken hkeyed
  exact ⟨sel, hreads, hsteps.length_eq.trans hlength, hname.trans htext,
    hclasses.trans hselector, helements.trans hpseudo⟩

end Context

end VariantSelector
