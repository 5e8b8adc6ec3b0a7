import Mathlib.Data.List.Forall2
import Mathlib.Data.Option.Basic
import VariantSelector.Proofs.Resolution.Run
import VariantSelector.Proofs.Selector.NormalForm

/-!
A token resolved under two marker styles. The two runs go in lockstep: each pass reads the same
variant, takes the same text and leaves the same rest, and the two segments it puts in front differ
in nothing but the spelling of one marker. Unlabeled markers are equal in one style iff they are in
the other, so segments are joined at the same places (`Segment.Respelled.joins_iff`), and the two
rules go on agreeing (`Context.resolve_respelled`).
-/

namespace VariantSelector

/-- Markers without labels are told apart in each style. -/
theorem Relation.marker_injective (style : MarkerStyle) {r s : Relation}
    (h : r.marker style = s.marker style) : r = s := by
  revert h
  cases style <;> cases r <;> cases s <;> decide

/-- Ancestors that say the same of one marker, spelled in one style and in another. -/
inductive Ancestor.Respelled (style style' : MarkerStyle) : Ancestor → Ancestor → Prop
  | marked (r : Relation) (label compound : Text) :
      Respelled style style' (.scoped (r.scopedMarker style label) compound (!label.isEmpty))
        (.scoped (r.scopedMarker style' label) compound (!label.isEmpty))
  | substituted (r : Relation) (label value : Text) :
      Respelled style style'
        (.literal (value.flatMap fun c => if c = '&' then r.scopedMarker style label else [c]))
        (.literal (value.flatMap fun c => if c = '&' then r.scopedMarker style' label else [c]))

structure Segment.Respelled (style style' : MarkerStyle) (s s' : Segment) : Prop where
  ancestor : Ancestor.Respelled style style' s.ancestor s'.ancestor
  combinator : s.combinator = s'.combinator

/-- Chains of as many segments, which agree pair by pair. -/
def Chain.Respelled (style style' : MarkerStyle) (c c' : Chain) : Prop :=
  List.Forall₂ (Segment.Respelled style style') c.segments c'.segments

inductive Change.Respelled (style style' : MarkerStyle) : Change → Change → Prop
  | appendSelector (text : Text) :
      Respelled style style' (.appendSelector text) (.appendSelector text)
  | appendPseudo (text : Text) : Respelled style style' (.appendPseudo text) (.appendPseudo text)
  | prependRelation {s s' : Segment} (h : s.Respelled style style' s') :
      Respelled style style' (.prependRelation s) (.prependRelation s')

structure Match.Respelled (style style' : MarkerStyle) (m m' : Match) : Prop where
  variant : m.variant = m'.variant
  taken : m.taken = m'.taken
  residual : m.residual = m'.residual
  label : m.label = m'.label
  change : Change.Respelled style style' m.change m'.change
  sort : m.sort = m'.sort
  noMerge : m.noMerge = m'.noMerge

structure Rule.Respelled (style style' : MarkerStyle) (r r' : Rule) : Prop where
  chain : Chain.Respelled style style' r.chain r'.chain
  selector : r.selector = r'.selector
  pseudo : r.pseudo = r'.pseudo
  sort : r.sort = r'.sort
  noMerge : r.noMerge = r'.noMerge

variable {style style' : MarkerStyle}

/-! ### Segments and chains -/

namespace Segment.Respelled

variable {s s' t t' : Segment}

theorem compound_eq (h : s.Respelled style style' s') : s.compound = s'.compound := by
  obtain ⟨a, k⟩ := s
  obtain ⟨a', k'⟩ := s'
  obtain ⟨hancestor, -⟩ := h
  cases hancestor <;> rfl

theorem extend (h : s.Respelled style style' s') (more : Text) :
    (s.extend more).Respelled style style' (s'.extend more) := by
  obtain ⟨a, k⟩ := s
  obtain ⟨a', k'⟩ := s'
  obtain ⟨hancestor, hcombinator⟩ := h
  cases hancestor with
  | marked r label compound => exact ⟨.marked r label _, hcombinator⟩
  | substituted r label value => exact ⟨.substituted r label value, hcombinator⟩

/-- What is asked of neighbours that join does not depend on the style. -/
theorem joins_marked_iff {r q : Relation} {label label' compound compound' : Text}
    {k l : Combinator} (style : MarkerStyle) :
    Segment.Joins ⟨.scoped (r.scopedMarker style label) compound (!label.isEmpty), k⟩
        ⟨.scoped (q.scopedMarker style label') compound' (!label'.isEmpty), l⟩
      ↔ (label = [] ∧ label' = [] ∧ r = q) ∧ k = l ∧
        IsPseudoRun compound ∧ IsPseudoRun compound' ∧ ∀ c ∈ compound, isBlank c = false := by
  rw [joins_scoped_iff]
  refine and_congr_left fun _ => ?_
  simp only [Bool.not_eq_false', List.isEmpty_iff]
  constructor
  · rintro ⟨rfl, rfl, hbase⟩
    exact ⟨rfl, rfl, r.marker_injective style (List.append_cancel_right hbase)⟩
  · rintro ⟨rfl, rfl, rfl⟩
    exact ⟨rfl, rfl, rfl⟩

theorem joins_iff (hs : s.Respelled style style' s') (ht : t.Respelled style style' t') :
    s.Joins t ↔ s'.Joins t' := by
  obtain ⟨a, k⟩ := s
  obtain ⟨a', k'⟩ := s'
  obtain ⟨b, l⟩ := t
  obtain ⟨b', l'⟩ := t'
  obtain ⟨ha, rfl⟩ := hs
  obtain ⟨hb, rfl⟩ := ht
  cases ha with
  | marked r label compound =>
    cases hb with
    | marked q label' compound' => rw [joins_marked_iff, joins_marked_iff]
    | substituted q label' value =>
      exact iff_of_false (not_joins_literal _).2 (not_joins_literal _).2
  | substituted r label value => exact iff_of_false (not_joins_literal _).1 (not_joins_literal _).1

end Segment.Respelled

/-- Segments put in front are joined in one style iff they are in the other. -/
theorem Chain.Respelled.prepend {c c' : Chain} {s s' : Segment} (h : c.Respelled style style' c')
    (hs : s.Respelled style style' s') :
    (c.prepend s).Respelled style style' (c'.prepend s') := by
  obtain ⟨l⟩ := c
  obtain ⟨l'⟩ := c'
  cases h with
  | nil => exact .cons hs .nil
  | @cons t t' l l' ht hl =>
    by_cases hst : s.Joins t
    · rw [prepend_of_joins hst, prepend_of_joins ((hs.joins_iff ht).1 hst), ← ht.compound_eq]
      exact .cons (hs.extend _) hl
    · rw [prepend_of_not_joins hst, prepend_of_not_joins (mt (hs.joins_iff ht).2 hst)]
      exact .cons hs (.cons ht hl)

/-! ### Changes to the rule -/

theorem Match.Respelled.apply {m m' : Match} {r r' : Rule} (h : m.Respelled style style' m')
    (hr : r.Respelled style style' r') : (m.apply r).Respelled style style' (m'.apply r') := by
  have hsort : m.sort.apply r.sort = m'.sort.apply r'.sort := by rw [h.sort, hr.sort]
  have hmerge : (r.noMerge || m.noMerge) = (r'.noMerge || m'.noMerge) := by
    rw [h.noMerge, hr.noMerge]
  have hchange := h.change
  unfold Match.apply
  generalize m.change = change at hchange
  generalize m'.change = change' at hchange
  cases hchange with
  | appendSelector text =>
    exact ⟨hr.chain, congrArg (· ++ text) hr.selector, hr.pseudo, hsort, hmerge⟩
  | appendPseudo text =>
    exact ⟨hr.chain, hr.selector, congrArg (· ++ text) hr.pseudo, hsort, hmerge⟩
  | prependRelation hs => exact ⟨hr.chain.prepend hs, hr.selector, hr.pseudo, hsort, hmerge⟩

theorem Rule.Respelled.foldl_apply {ms ms' : List Match}
    (h : List.Forall₂ (Match.Respelled style style') ms ms') {r r' : Rule}
    (hr : r.Respelled style style' r') :
    (ms.foldl (fun rule m => m.apply rule) r).Respelled style style'
      (ms'.foldl (fun rule m => m.apply rule) r') := by
  induction h generalizing r r' with
  | nil => exact hr
  | cons hm _ ih => exact ih (hm.apply hr)

/-! ### Readings -/

theorem Relation.respelled_bracketAncestor (r : Relation) (label value : Text) :
    Ancestor.Respelled style style' (r.bracketAncestor style label value)
      (r.bracketAncestor style' label value) := by
  unfold bracketAncestor
  split
  · exact .substituted r label value
  · exact .marked r label value

theorem Relation.respelled_matchBracket? (r : Relation) (token : Text) :
    Option.Rel (Match.Respelled style style') (r.matchBracket? style token)
      (r.matchBracket? style' token) := by
  unfold matchBracket?
  cases Bracketed.extract? r.lead token with
  | none => exact .none
  | some found =>
    simp only [Option.bind_eq_bind, Option.bind_some]
    cases Bracketed.decode? found.payload with
    | none => exact .none
    | some value =>
      refine .some ⟨rfl, rfl, rfl, rfl, ?_, rfl, rfl⟩
      exact .prependRelation ⟨r.respelled_bracketAncestor _ _, rfl⟩

theorem Relation.respelled_matchKeyword? (r : Relation) (token : Text) :
    Option.Rel (Match.Respelled style style') (r.matchKeyword? style token)
      (r.matchKeyword? style' token) := by
  unfold matchKeyword?
  cases Text.after? r.lead token with
  | none => exact .none
  | some rest =>
    simp only [Option.bind_eq_bind, Option.bind_some]
    cases (wrappedCompound? rest).or (bareCompound? rest) with
    | none => exact .none
    | some found =>
      refine .some ⟨rfl, rfl, rfl, rfl, ?_, rfl, rfl⟩
      exact .prependRelation ⟨.marked r _ _, rfl⟩

theorem Relation.respelled_match? (r : Relation) (token : Text) :
    Option.Rel (Match.Respelled style style') (r.match? style token) (r.match? style' token) := by
  have hbracket : Option.Rel (Match.Respelled style style') (r.matchBracket? style token)
      (r.matchBracket? style' token) := r.respelled_matchBracket? token
  unfold match?
  generalize r.matchBracket? style token = found at hbracket
  generalize r.matchBracket? style' token = found' at hbracket
  cases hbracket with
  | none => exact r.respelled_matchKeyword? token
  | some h => exact .some h

/-- A match that is no relation's says nothing of markers. -/
theorem Form.IsReading.respelled_self {v : Variant} {token : Text} {m : Match}
    (h : Form.IsReading style v token m) (hv : ∀ r, v ≠ .relation r) :
    m.Respelled style style' m := by
  obtain ⟨f, b, rest, rfl, -, rfl, -⟩ := h
  refine ⟨rfl, rfl, rfl, rfl, ?_, rfl, rfl⟩
  cases f with
  | bare key =>
    simp only [reading, Form.change]
    split
    · exact .appendPseudo _
    · exact .appendSelector _
  | wrapped wrapper key => exact .appendSelector _
  | keyword r wrapper key label => exact absurd rfl (hv r)
  | bracketed r payload label => exact absurd rfl (hv r)
  | part name => exact .appendPseudo _

variable {rules : TransformRules}

/-- Only a relation looks at the style. -/
theorem Variant.respelled_match? (v : Variant) (token : Text) :
    Option.Rel (Match.Respelled style style') (v.match? ⟨style, rules⟩ token)
      (v.match? ⟨style', rules⟩ token) := by
  by_cases hv : ∃ r, v = .relation r
  · obtain ⟨r, rfl⟩ := hv
    exact r.respelled_match? token
  · rw [not_exists] at hv
    have hsame : v.match? ⟨style', rules⟩ token = v.match? ⟨style, rules⟩ token := by
      cases v with
      | relation r => exact absurd rfl (hv r)
      | _ => rfl
    rw [hsame]
    cases h : v.match? ⟨style, rules⟩ token with
    | none => exact .none
    | some m => exact .some ((isReading_of_match? h).respelled_self hv)

namespace Context

theorem respelled_match? (token : Text) :
    Option.Rel (Match.Respelled style style') (match? ⟨style, rules⟩ token)
      (match? ⟨style', rules⟩ token) := by
  unfold match?
  induction Variant.all with
  | nil => exact .none
  | cons v vs ih =>
    have hv : Option.Rel (Match.Respelled style style') (v.match? ⟨style, rules⟩ token)
        (v.match? ⟨style', rules⟩ token) := v.respelled_match? token
    rw [List.findSome?_cons, List.findSome?_cons]
    generalize v.match? ⟨style, rules⟩ token = found at hv
    generalize v.match? ⟨style', rules⟩ token = found' at hv
    cases hv with
    | none => exact ih
    | some h => exact .some h

/-! ### Runs -/

theorem exists_respelled_of_pass (style' : MarkerStyle) {body : Text} {m : Match}
    (h : Pass ⟨style, rules⟩ body m) :
    ∃ m', Pass ⟨style', rules⟩ body m' ∧ m.Respelled style style' m' := by
  have hrel : Option.Rel (Match.Respelled style style') (match? ⟨style, rules⟩ body)
      (match? ⟨style', rules⟩ body) := respelled_match? body
  rw [h.matched] at hrel
  generalize hfound : match? ⟨style', rules⟩ body = found at hrel
  cases hrel with
  | @some _ m' hm =>
    have hconsumes := h.consumes
    have hshortens := h.shortens
    rw [Match.consumed, hm.taken] at hconsumes
    rw [hm.residual] at hshortens
    exact ⟨m', ⟨hfound, hconsumes, hshortens⟩, hm⟩

/-- The runs under the two styles have the same passes. -/
theorem Run.respelled_strip {body rest : Text} {ms : List Match}
    (h : Run ⟨style, rules⟩ body ms rest) (style' : MarkerStyle) :
    List.Forall₂ (Match.Respelled style style') ms (strip ⟨style', rules⟩ body).1 ∧
      rest = (strip ⟨style', rules⟩ body).2 := by
  induction h with
  | @stop body hstop =>
    have hstop' : ∀ m, ¬ Pass ⟨style', rules⟩ body m := by
      intro m hm
      obtain ⟨m', hm', -⟩ := exists_respelled_of_pass style hm
      exact hstop m' hm'
    rw [strip_of_not_pass hstop']
    exact ⟨.nil, rfl⟩
  | pass hpass _ ih =>
    obtain ⟨m', hm', hm⟩ := exists_respelled_of_pass style' hpass
    rw [hm.residual] at ih
    rw [strip_of_pass hm']
    exact ⟨.cons hm ih.1, ih.2⟩

/-- The style changes only how markers are spelled. Under two styles a token is left with the same
body, by matches that agree one by one in all but the spelling of their markers; and the rules agree
in the same way, after all matches and after any number of them, so that segments are joined at the
same places. -/
theorem resolve_respelled (style style' : MarkerStyle) (rules : TransformRules) (token : Text) :
    let r := resolve ⟨style, rules⟩ token
    let r' := resolve ⟨style', rules⟩ token
    r.body = r'.body ∧
    List.Forall₂ (Match.Respelled style style') r.variants r'.variants ∧
    r.rule.Respelled style style' r'.rule ∧
    ∀ n, (Resolution.ofMatches token (r.variants.take n) r.body).rule.Respelled style style'
      (Resolution.ofMatches token (r'.variants.take n) r'.body).rule := by
  intro r r'
  obtain ⟨hmatches, hbody⟩ := (strip_run ⟨style, rules⟩ token).respelled_strip style'
  have hstart : (Rule.ofClass token).Respelled style style' (Rule.ofClass token) :=
    ⟨.nil, rfl, rfl, rfl, rfl⟩
  refine ⟨hbody, hmatches, .foldl_apply hmatches hstart, ?_⟩
  intro n
  exact .foldl_apply (List.forall₂_take n hmatches) hstart

end Context

end VariantSelector
