import VariantSelector.Proofs.Css.Compound
import VariantSelector.Proofs.Resolution.Run
import VariantSelector.Proofs.Selector.NormalForm
import VariantSelector.Proofs.Variant.Fragment

/-!
What constrains the marker where a resolution joins segments. The joined segment has the compound of
the new outer segment in front of the inner one, so the inner one still constrains the marker if the
outer one is a single compound selector. Keys always stand for one. What stands in brackets without
quotes is taken as it is, and is joined if it begins with a colon and has no white space; it is one
compound iff the payload is, which `>`, `+`, `~` and commas can break
(`Context.isCompound_joined_iff`).
-/

namespace VariantSelector

open Pseudo Bracketed Css

/-! ### Segments that join -/

theorem Segment.Joins.of_scoped {base compound : Text} {labeled : Bool} {combinator : Combinator}
    {inner : Segment} (h : Joins ⟨.scoped base compound labeled, combinator⟩ inner) :
    labeled = false ∧ IsPseudoRun compound ∧ (∀ c ∈ compound, isBlank c = false) ∧
      inner = ⟨.scoped base inner.compound false, combinator⟩ := by
  cases h with
  | intro houter _ hblank => exact ⟨rfl, houter, hblank, rfl⟩

theorem Relation.scopedMarker_nil (r : Relation) (style : MarkerStyle) :
    r.scopedMarker style [] = r.marker style :=
  List.append_nil _

theorem Relation.after_marker (r : Relation) (style : MarkerStyle) :
    Place.after {} (r.marker style) = {} := by
  cases r <;> cases style <;> decide

theorem Relation.isCompound_marker (r : Relation) (style : MarkerStyle) :
    IsCompound (r.marker style) := by
  cases r <;> cases style <;> decide

theorem Pseudo.Registry.isCompound_fragment {row : Lookup} (h : row ∈ Registry.lookups) :
    IsCompound row.entry.fragment := by
  revert row
  decide +kernel

theorem Wrapper.isCompound_wrap (w : Wrapper) {inner : Text} (h : Nested inner) :
    IsCompound (w.wrap inner) := by
  have hname : IsCompound (':' :: w.name) ∧ Place.after {} (':' :: w.name) = {} := by
    cases w <;> decide
  exact (isCompound_append hname.2).2 ⟨hname.1, h.isCompound_parenthesize⟩

/-- A key stands for one compound, in a wrapper or not. -/
theorem ClassKey.isCompound_wrapIn (key : ClassKey) (w : Option Wrapper) :
    IsCompound (Wrapper.wrapIn w key.row.entry.fragment) := by
  cases w with
  | none => exact Registry.isCompound_fragment key.mem
  | some w => exact w.isCompound_wrap (Registry.nested_fragment key.mem)

theorem openPayload?_keyword (style : MarkerStyle) {r : Relation} {w : Option Wrapper}
    {key : ClassKey} {label : KeyLabel} {b : Char} (rest : Text)
    (hb : (Form.keyword r w key label).accepts b = true) :
    ((Form.keyword r w key label).reading style b rest).openPayload? = none := by
  have hread := key.readsRow_label label [] hb
  have hsplit :
      splitGroup? (Wrapper.leadOf w ++ (key.row.entry.key ++ (label.text ++ [b]))) = none := by
    unfold splitGroup?
    split
    next s heq => exact absurd heq (Wrapper.leadOf_append_ne_bracket hread w s)
    next => rfl
  have htaken : Text.bracketed? r.lead ((Form.keyword r w key label).text ++ [b]) = none := by
    simp only [Text.bracketed?, Form.text, List.append_assoc, Text.after?_append,
      Option.bind_eq_bind, Option.bind_some, hsplit, Option.map_none]
  simp only [Match.openPayload?, Form.reading, Form.variant, htaken, Option.filter_none]

/-- A form whose segment joins another tells of a marker without a label. What it says of the marker
is one compound, or nested text, where its payload is; a key has no payload and is both. -/
theorem Form.joins {style : MarkerStyle} {f : Form} {b : Char} (rest : Text)
    {segment inner : Segment} (hb : f.accepts b = true)
    (hchange : f.change style = .prependRelation segment) (h : segment.Joins inner) :
    (∃ q : Relation, segment = ⟨.scoped (q.marker style) segment.compound false, q.combinator⟩) ∧
    (IsCompound segment.compound ↔
      ∀ p ∈ (f.reading style b rest).openPayload?, IsCompound p) ∧
    ((∀ p ∈ (f.reading style b rest).openPayload?, Nested p) → Nested segment.compound) := by
  cases f with
  | keyword r w key label =>
    cases hchange
    obtain ⟨hlabel, -, -, -⟩ := h.of_scoped
    have hnil : label.text = [] := by simpa using hlabel
    rw [openPayload?_keyword style rest hb]
    refine ⟨⟨r, ?_⟩, ?_, fun _ => ?_⟩
    · simp [Segment.compound, hnil, Relation.scopedMarker_nil]
    · exact iff_of_true (key.isCompound_wrapIn w) (by simp)
    · exact Wrapper.closed_wrapIn w (Registry.nested_fragment key.mem)
  | bracketed r payload label =>
    simp only [change, Change.prependRelation.injEq] at hchange
    unfold Relation.bracketAncestor at hchange
    dsimp only at hchange
    split at hchange
    · -- with an `&` the payload has become literal text
      subst hchange
      exact absurd h (Segment.not_joins_literal inner).1
    · subst hchange
      obtain ⟨hlabel, hrun, hblank, -⟩ := h.of_scoped
      have hnil : label.text = [] := by simpa using hlabel
      obtain ⟨hhint, hcompound⟩ := isCompound_of_decode? payload.decodes hrun.1 hblank
      rw [openPayload?_bracketed style r payload label b rest hhint]
      refine ⟨⟨r, ?_⟩, ?_, fun hnested => ?_⟩
      · simp [Segment.compound, hnil, Relation.scopedMarker_nil]
      · show IsCompound payload.value ↔ _
        simpa using hcompound
      · exact closed_of_decode? payload.decodes fun _ => hnested payload.text rfl
  | bare key =>
    simp only [change] at hchange
    split at hchange <;> cases hchange
  | wrapped | part => cases hchange

/-! ### Resolutions -/

/-- The chain in front of the rule of `token` behind some matches. -/
def Resolution.chainBehind (token : Text) (ms : List Match) : Chain :=
  (Resolution.ofMatches token ms []).rule.chain

open Resolution (chainBehind)

theorem Resolution.chainBehind_concat (token : Text) (ms : List Match) {m : Match}
    {segment : Segment} (h : m.change = .prependRelation segment) :
    chainBehind token (ms ++ [m]) = (chainBehind token ms).prepend segment := by
  simp [chainBehind, ofMatches, Match.apply, h]

/-- A segment that is not simply put in front has been joined with the outermost one. -/
theorem Chain.exists_of_prepend_ne {c : Chain} {s : Segment}
    (h : c.prepend s ≠ ⟨s :: c.segments⟩) :
    ∃ inner rest, c.segments = inner :: rest ∧ s.Joins inner ∧
      c.prepend s = ⟨s.extend inner.compound :: rest⟩ := by
  obtain ⟨l⟩ := c
  cases l with
  | nil => exact absurd rfl h
  | cons inner rest =>
    by_cases hjoins : s.Joins inner
    · exact ⟨inner, rest, rfl, hjoins, prepend_of_joins hjoins⟩
    · exact absurd (prepend_of_not_joins hjoins) h

/-- Where a match that has been recorded has its segment joined with the outermost one so far, both
constrain the same marker without a label, and the joined segment says what the outer one says and
then what the inner one says. What the outer one says has no white space. It is one compound iff the
payload of the match, if it has one, is: every key is one compound. Then the marker with it is one
compound as well; and if the payload closes its brackets, the inner one is read behind it as it is
read by itself, hence of the marker. -/
theorem Context.isCompound_joined_iff (ctx : Context) (token : Text) (before after : List Match)
    (m : Match) (segment : Segment)
    (hvariants : (ctx.resolve token).variants = before ++ m :: after)
    (hchange : m.change = .prependRelation segment)
    (hjoined : chainBehind token (before ++ [m]) ≠
      ⟨segment :: (chainBehind token before).segments⟩) :
    ∃ (q : Relation) (outer inner : Text) (rest : List Segment),
      segment = ⟨.scoped (q.marker ctx.style) outer false, q.combinator⟩ ∧
      (chainBehind token before).segments =
        ⟨.scoped (q.marker ctx.style) inner false, q.combinator⟩ :: rest ∧
      (chainBehind token (before ++ [m])).segments =
        ⟨.scoped (q.marker ctx.style) (outer ++ inner) false, q.combinator⟩ :: rest ∧
      (∀ c ∈ outer, isBlank c = false) ∧
      (IsCompound outer ↔ ∀ p ∈ m.openPayload?, IsCompound p) ∧
      (IsCompound outer → IsCompound (q.marker ctx.style ++ outer)) ∧
      ((∀ p ∈ m.openPayload?, Nested p) →
        Place.bare {} (q.marker ctx.style ++ (outer ++ inner)) =
          Place.bare {} (q.marker ctx.style ++ outer) ++ Place.bare {} inner) := by
  rw [Resolution.chainBehind_concat token before hchange] at hjoined ⊢
  obtain ⟨inner, rest, hinner, hjoins, hprepend⟩ := Chain.exists_of_prepend_ne hjoined
  -- the match is the reading of a form
  have hmem : m ∈ (ctx.strip token).1 := by
    show m ∈ (ctx.resolve token).variants
    rw [hvariants]
    simp
  obtain ⟨body, hbody⟩ := (ctx.strip_run token).exists_match? m hmem
  obtain ⟨v, -, hv⟩ := List.exists_of_findSome?_eq_some hbody
  obtain ⟨f, b, residual, rfl, hbegins, rfl, -⟩ := Variant.isReading_of_match? hv
  obtain ⟨⟨q, hsegment⟩, hcompound, hnested⟩ := Form.joins residual hbegins.accepts hchange hjoins
  generalize segment.compound = outer at hsegment hcompound hnested
  subst hsegment
  obtain ⟨-, -, hblank, hscoped⟩ := hjoins.of_scoped
  have hmarker := q.after_marker ctx.style
  refine ⟨q, outer, inner.compound, rest, rfl, ?_, ?_, hblank, hcompound, fun houter => ?_,
    fun hpayload => ?_⟩
  · rw [hinner, ← hscoped]
  · rw [hprepend]
    rfl
  · exact (isCompound_append hmarker).2 ⟨q.isCompound_marker ctx.style, houter⟩
  · have hplace : Place.after {} (q.marker ctx.style ++ outer) = {} := by
      rw [Place.after_append, hmarker, (hnested hpayload).after_eq]
    rw [← List.append_assoc, Place.bare_append, hplace]

/-- Two relations and no more, the second one in brackets. -/
theorem Context.exists_of_two_relations {ctx : Context} {token payload : Text} {s t : Segment}
    (h : (ctx.resolve token).variants.map (fun m => (m.change, m.openPayload?)) =
      [(.prependRelation s, none), (.prependRelation t, some payload)]) :
    ∃ first m : Match, (ctx.resolve token).variants = [first] ++ m :: [] ∧
      m.change = .prependRelation t ∧ m.openPayload? = some payload ∧
      chainBehind token [first] = ⟨[s]⟩ ∧
      chainBehind token ([first] ++ [m]) = Chain.prepend ⟨[s]⟩ t := by
  obtain ⟨first, l, hvariants, hfirst, hl⟩ := List.map_eq_cons_iff.1 h
  obtain ⟨m, l', rfl, hm, hl'⟩ := List.map_eq_cons_iff.1 hl
  obtain rfl := List.map_eq_nil_iff.1 hl'
  obtain ⟨hfirst, -⟩ := Prod.mk.inj hfirst
  obtain ⟨hchange, hpayload⟩ := Prod.mk.inj hm
  have hchain : chainBehind token [first] = ⟨[s]⟩ :=
    Resolution.chainBehind_concat token [] hfirst
  refine ⟨first, m, hvariants, hchange, hpayload, hchain, ?_⟩
  rw [Resolution.chainBehind_concat token [first] hchange, hchain]

/-- Combinators and commas in parentheses, brackets and quotes leave the payload one compound. -/
theorem Context.isCompound_joined_iff_brackets :
    let token : Text := "group-focus:group-[:is(a>b,c):not([d~=e])]:y".toList
    let outer : Text := ":is(a>b,c):not([d~=e])".toList
    ∃ (first m : Match) (segment : Segment),
      (resolve {} token).variants = [first] ++ m :: [] ∧ m.change = .prependRelation segment ∧
      chainBehind token ([first] ++ [m]) ≠ ⟨segment :: (chainBehind token [first]).segments⟩ ∧
      segment.compound = outer ∧ IsCompound outer ∧
      Place.bare {} (".group".toList ++ (outer ++ ":focus".toList)) =
        Place.bare {} (".group".toList ++ outer) ++ ":focus".toList := by
  intro token outer
  let s : Segment := ⟨.scoped ".group".toList ":focus".toList false, .descendant⟩
  let t : Segment := ⟨.scoped ".group".toList outer false, .descendant⟩
  have hresolve : (resolve {} token).variants.map (fun m => (m.change, m.openPayload?)) =
      [(.prependRelation s, none), (.prependRelation t, some outer)] := by decide +kernel
  obtain ⟨first, m, hvariants, hchange, hpayload, hfirst, hboth⟩ := exists_of_two_relations hresolve
  have hjoined : chainBehind token ([first] ++ [m]) ≠
      ⟨t :: (chainBehind token [first]).segments⟩ := by
    rw [hboth, hfirst]
    decide
  obtain ⟨q, outer', inner, rest, ht, hinner, -, -, hcompound, -, hbare⟩ :=
    isCompound_joined_iff {} token [first] [] m t hvariants hchange hjoined
  have hpayloads : ∀ p ∈ m.openPayload?, IsCompound p ∧ Nested p := by
    rw [hpayload]
    rintro p ⟨⟩
    decide
  rw [hfirst] at hinner
  simp only [s, t, Segment.mk.injEq, Ancestor.scoped.injEq, List.cons.injEq] at ht hinner
  obtain ⟨⟨hmarker, rfl, -⟩, -⟩ := ht
  obtain ⟨⟨⟨-, rfl, -⟩, -⟩, -⟩ := hinner
  rw [← hmarker] at hbare
  refine ⟨first, m, t, hvariants, hchange, hjoined, rfl,
    hcompound.2 fun p hp => (hpayloads p hp).1, ?_⟩
  rw [hbare fun p hp => (hpayloads p hp).2]
  rfl

/-- A payload with a bare combinator can be joined: what follows it constrains another element. -/
theorem Context.not_forall_isCompound_joined :
    ¬ ∀ (ctx : Context) (token : Text) (before after : List Match) (m : Match) (segment : Segment),
      (ctx.resolve token).variants = before ++ m :: after →
      m.change = .prependRelation segment →
      chainBehind token (before ++ [m]) ≠ ⟨segment :: (chainBehind token before).segments⟩ →
      IsCompound segment.compound := by
  intro h
  let token : Text := "group-focus:group-[:hover>.x]:y".toList
  let s : Segment := ⟨.scoped ".group".toList ":focus".toList false, .descendant⟩
  let t : Segment := ⟨.scoped ".group".toList ":hover>.x".toList false, .descendant⟩
  have hresolve : (resolve {} token).variants.map (fun m => (m.change, m.openPayload?)) =
      [(.prependRelation s, none), (.prependRelation t, some ":hover>.x".toList)] := by
    decide +kernel
  obtain ⟨first, m, hvariants, hchange, -, hfirst, hboth⟩ := exists_of_two_relations hresolve
  have hcompound := h {} token [first] [] m t hvariants hchange (by rw [hboth, hfirst]; decide)
  exact absurd hcompound (by decide)

end VariantSelector
