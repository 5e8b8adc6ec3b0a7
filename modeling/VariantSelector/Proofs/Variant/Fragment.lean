import VariantSelector.Proofs.Bracketed.Decoding
import VariantSelector.Proofs.Variant.Reading

/-!
What a match adds to a selector is closed text. Keys stand for nested text; a payload closes each
kind of bracket by itself, nested or not, and keeps that through decoding. Where a marker is put in
place of an `&` the reader is where it was, unless a backslash takes the first character of the
marker along (`Css.Reader.read?_substitute`). So the fragment of a match is as closed as the payload
it was read from (`Variant.closed_fragment_of_match?`).
-/

namespace VariantSelector

open Pseudo Bracketed Css

/-! ### Fragments and payloads -/

/-- The selector text that a change brings in. -/
def Change.fragment : Change → Text
  | .appendSelector text => text
  | .appendPseudo text => text
  | .prependRelation segment => segment.ancestor.render

/-- What stands in the brackets behind `lead`. -/
def Text.bracketed? (lead s : Text) : Option Text := do
  let group ← Text.after? lead s
  (splitGroup? group).map Prod.fst

/-- The payload that a match has read and does not put into quotes. Only relations take hints. -/
def Match.openPayload? (m : Match) : Option Text :=
  match m.variant with
  | .relation r =>
    (Text.bracketed? r.lead m.taken).filter fun payload => (splitHint payload).1 ≠ some .quoted
  | .part => Text.bracketed? partLead m.taken
  | _ => none

theorem Text.bracketed?_append {payload : Text} (h : Balanced payload) (lead rest : Text) :
    Text.bracketed? lead (lead ++ ('[' :: (payload ++ ']' :: rest))) = some payload := by
  have hsplit : splitGroup? ('[' :: (payload ++ ']' :: rest)) = some (payload, rest) :=
    splitGroup?_eq_some_iff.2 ⟨h, rfl⟩
  rw [Text.bracketed?, Text.after?_append]
  show (splitGroup? ('[' :: (payload ++ ']' :: rest))).map Prod.fst = _
  rw [hsplit]
  rfl

theorem openPayload?_bracketed (style : MarkerStyle) (r : Relation) (payload : Payload)
    (label : GroupLabel) (b : Char) (rest : Text)
    (h : (splitHint payload.text).1 ≠ some .quoted) :
    ((Form.bracketed r payload label).reading style b rest).openPayload? = some payload.text := by
  have htaken := Text.bracketed?_append payload.balanced r.lead (label.text ++ [b])
  simp only [Match.openPayload?, Form.reading, Form.variant, Form.text, List.append_assoc,
    List.cons_append, htaken]
  exact Option.filter_some_pos (by simpa using h)

theorem openPayload?_part (style : MarkerStyle) (name : PartName) (b : Char) (rest : Text) :
    ((Form.part name).reading style b rest).openPayload? = some name.text := by
  have htaken := Text.bracketed?_append name.balanced partLead [b]
  simpa only [Match.openPayload?, Form.reading, Form.variant, Form.text, List.append_assoc,
    List.cons_append, List.nil_append] using htaken

/-! ### Markers -/

theorem Relation.isPlain_tag (r : Relation) : ∀ c ∈ r.tag, Reader.isPlain c = true :=
  List.all_eq_true.1 (by cases r <;> decide)

variable {heeds : Bracket → Bool} {s : Reader}

theorem read?_escape (hs : s.escaping = false) (label : Text) :
    s.read? heeds (escape label) = some s :=
  (spells_escape label).read?_eq hs

/-- The bracket in front of an attribute is open until its end, unless quotes are around it. The
quotes of the value are then the ones that close and open. -/
theorem read?_marker (hs : s.escaping = false) (r : Relation) (style : MarkerStyle) :
    s.read? heeds (r.marker style) = some s := by
  cases style with
  | byClass => exact Reader.read?_of_isPlain hs (List.forall_mem_cons.2 ⟨by decide, r.isPlain_tag⟩)
  | byAttribute =>
    obtain ⟨quoted, escaping, pending⟩ := s
    cases hs
    let inside : Reader := ⟨quoted, false, if quoted then pending else push heeds .square pending⟩
    have hopen : Reader.step? heeds ⟨quoted, false, pending⟩ '[' = some inside := by
      cases quoted <;> rfl
    have htag : inside.read? heeds r.tag = some inside := Reader.read?_of_isPlain rfl r.isPlain_tag
    have hvalue : inside.read? heeds "=\"\"]".toList = Reader.step? heeds inside ']' := by
      cases quoted <;> simp [inside, Reader.read?, Reader.step?, Reader.touch?]
    have hclose : Reader.step? heeds inside ']' = some ⟨quoted, false, pending⟩ := by
      cases quoted <;> simp [inside, Reader.step?, Reader.touch?, pop?_push]
    rw [Relation.marker, Reader.read?_cons, hopen, Option.bind_some,
      Reader.read?_append_of_eq_some htag, hvalue, hclose]

/-- A marker leaves the reader as it was, be it inside quotes. -/
theorem read?_scopedMarker (hs : s.escaping = false) (r : Relation) (style : MarkerStyle)
    (label : Text) : s.read? heeds (r.scopedMarker style label) = some s := by
  rw [Relation.scopedMarker, Reader.read?_append_of_eq_some (read?_marker hs r style),
    read?_escape hs]

/-- Behind a backslash, the dot of a marker is what the backslash takes along. -/
theorem read?_scopedMarker_byClass (hs : s.escaping = true) (r : Relation) (label : Text) :
    s.read? heeds (r.scopedMarker .byClass label) = some { s with escaping := false } := by
  have hdot : s.step? heeds '.' = some { s with escaping := false } := by
    simp [Reader.step?, hs]
  rw [Relation.scopedMarker, Relation.marker, List.cons_append, Reader.read?_cons, hdot,
    Option.bind_some, Reader.read?_append_of_eq_some (Reader.read?_of_isPlain rfl r.isPlain_tag),
    read?_escape rfl]

/-- Text in place of each `&` goes unnoticed if the reader is behind it where it was behind the
`&`. -/
theorem read?_substitute {base : Text}
    (hbase : ∀ t : Reader, t.escaping = false → t.read? heeds base = some t) (value : Text)
    (hescaped : '&' ∈ value.escapedFrom s.escaping → ∀ t : Reader, t.escaping = true →
      t.read? heeds base = some { t with escaping := false }) :
    s.read? heeds (value.flatMap fun c => if c = '&' then base else [c])
      = s.read? heeds value := by
  induction value generalizing s with
  | nil => rfl
  | cons c value ih =>
    obtain ⟨quoted, escaping, pending⟩ := s
    rw [List.flatMap_cons, Reader.read?_cons]
    by_cases hc : c = '&'
    · subst hc
      rw [if_pos rfl]
      cases escaping with
      | true =>
        -- a backslash stands in front and takes the first character of the text along
        rw [Reader.read?_append_of_eq_some (hescaped (by simp [Text.escapedFrom]) _ rfl)]
        exact ih fun hmem => hescaped (List.mem_cons_of_mem _ hmem)
      | false =>
        rw [Reader.read?_append_of_eq_some (hbase _ rfl),
          Reader.step?_of_isPlain rfl (by decide), Option.bind_some]
        exact ih fun hmem => hescaped hmem
    · rw [if_neg hc, List.singleton_append, Reader.read?_cons]
      cases hstep : Reader.step? heeds ⟨quoted, escaping, pending⟩ c with
      | none => rfl
      | some t =>
        rw [Option.bind_some, Option.bind_some]
        refine ih fun hmem => hescaped ?_
        cases escaping with
        | true =>
          cases hstep
          exact List.mem_cons_of_mem _ hmem
        | false =>
          rw [Reader.escaping_of_step? rfl hstep] at hmem
          exact hmem

/-! ### The fragment of each form -/

theorem Pseudo.Registry.nested_fragment {row : Lookup} (h : row ∈ Registry.lookups) :
    Nested row.entry.fragment := by
  revert row
  decide +kernel

theorem Wrapper.closed_wrap (w : Wrapper) {inner : Text} (h : Closed heeds inner) :
    Closed heeds (w.wrap inner) := by
  have hname : Closed heeds (':' :: w.name) :=
    closed_of_isPlain (List.all_eq_true.1 (by cases w <;> decide))
  exact hname.append h.parenthesize

theorem Wrapper.closed_wrapIn (w : Option Wrapper) {inner : Text} (h : Closed heeds inner) :
    Closed heeds (Wrapper.wrapIn w inner) := by
  cases w with
  | none => exact h
  | some w => exact w.closed_wrap h

theorem closed_bracketAncestor (r : Relation) (style : MarkerStyle) (label : Text) {value : Text}
    (h : Closed heeds value) (hescape : style = .byAttribute → '&' ∉ value.escaped) :
    Closed heeds (r.bracketAncestor style label value).render := by
  have hbase : ∀ t : Reader, t.escaping = false →
      t.read? heeds (r.scopedMarker style label) = some t := fun t ht =>
    read?_scopedMarker ht r style label
  unfold Relation.bracketAncestor
  dsimp only
  split
  · unfold Closed Ancestor.render
    rw [read?_substitute hbase]
    · exact h
    · intro hmem t ht
      cases style with
      | byClass => exact read?_scopedMarker_byClass ht r label
      | byAttribute => exact absurd hmem (hescape rfl)
  · exact Closed.append (hbase {} rfl) h

/-- The fragment of a form is closed if what stands in its brackets, unquoted, is. -/
theorem Form.closed_fragment (style : MarkerStyle) (f : Form) (b : Char) (rest : Text)
    (hpayload : ∀ p ∈ (f.reading style b rest).openPayload?, Closed heeds p)
    (hescape : style = .byAttribute → f.variant ≠ .part →
      ∀ p ∈ (f.reading style b rest).openPayload?, '&' ∉ p.escaped) :
    Closed heeds (f.reading style b rest).change.fragment := by
  cases f with
  | bare key =>
    have hkey := (Registry.nested_fragment key.mem).closed heeds
    simp only [reading, change]
    split <;> exact hkey
  | wrapped wrapper key =>
    exact wrapper.closed_wrap ((Registry.nested_fragment key.mem).closed heeds)
  | keyword r wrapper key label =>
    have hkey := (Registry.nested_fragment key.mem).closed heeds
    exact Closed.append (read?_scopedMarker rfl r style label.text)
      (Wrapper.closed_wrapIn wrapper hkey)
  | bracketed r payload label =>
    refine closed_bracketAncestor r style label.text ?_ ?_
    · refine closed_of_decode? payload.decodes fun hhint => hpayload payload.text ?_
      exact openPayload?_bracketed style r payload label b rest hhint
    · intro hstyle hmem
      obtain ⟨hhint, hmem⟩ := mem_escaped_of_decode? payload.decodes hmem
      refine hescape hstyle (by simp) payload.text ?_ hmem
      exact openPayload?_bracketed style r payload label b rest hhint
  | part name =>
    have hname := hpayload name.text (openPayload?_part style name b rest)
    have hpart : Closed heeds "::part".toList := closed_of_isPlain (List.all_eq_true.1 (by decide))
    exact hpart.append hname.parenthesize

theorem Text.balanced_of_bracketed? {lead s p : Text} (h : Text.bracketed? lead s = some p) :
    Balanced p := by
  obtain ⟨group, -, h⟩ := Option.bind_eq_some_iff.1 h
  obtain ⟨⟨payload, rest⟩, hsplit, rfl⟩ := Option.map_eq_some_iff.1 h
  exact (splitGroup?_eq_some_iff.1 hsplit).1

theorem Match.balanced_openPayload? {m : Match} {p : Text} (h : p ∈ m.openPayload?) :
    Balanced p := by
  unfold Match.openPayload? at h
  split at h
  · exact Text.balanced_of_bracketed? (Option.mem_filter_iff.1 h).1
  · exact Text.balanced_of_bracketed? h
  · cases h

/-- Every fragment closes each kind of bracket by itself, and all brackets in nested order where the
payload does. Two kinds of payload are left out: those that hold a double quote without a backslash,
and, where markers are attributes and so begin with a bracket, those with a backslash in front of an
`&`. Payloads that are put into quotes may hold anything. -/
theorem Variant.closed_fragment_of_match? {v : Variant} {ctx : Context} {token : Text} {m : Match}
    (h : v.match? ctx token = some m) (hquote : ∀ p ∈ m.openPayload?, '"' ∉ p.unescaped)
    (hescape : ctx.style = .byAttribute → m.variant ≠ .part →
      ∀ p ∈ m.openPayload?, '&' ∉ p.escaped) :
    (∀ kind, Closed (· = kind) m.change.fragment) ∧
    ((∀ p ∈ m.openPayload?, Nested p) → Nested m.change.fragment) := by
  obtain ⟨f, b, rest, rfl, hbegins, rfl, -⟩ := isReading_of_match? h
  constructor
  · intro kind
    refine f.closed_fragment ctx.style b rest (fun p hp => ?_) hescape
    exact (Match.balanced_openPayload? hp).closed (hquote p hp) kind
  · intro hnested
    exact f.closed_fragment ctx.style b rest hnested hescape

/-- Two attribute markers stand among brackets of both kinds, one of which is escaped. -/
theorem Variant.closed_fragment_of_match?_attribute :
    let ctx : Context := { style := .byAttribute }
    let token : Text := "group-[:is(&,[\\(_&])]item:underline".toList
    let payload : Text := ":is(&,[\\(_&])".toList
    ∃ m, (Variant.relation .group).match? ctx token = some m ∧ m.openPayload? = some payload ∧
      ('"' ∉ payload.unescaped ∧ '&' ∉ payload.escaped ∧ Nested payload) ∧
      m.change.fragment = ":is([group=\"\"]item,[\\( [group=\"\"]item])".toList ∧
      Nested m.change.fragment := by
  intro ctx token payload
  obtain ⟨m, hm, hpayload, hfragment⟩ : ∃ m,
      (Variant.relation .group).match? ctx token = some m ∧ m.openPayload? = some payload ∧
        m.change.fragment = ":is([group=\"\"]item,[\\( [group=\"\"]item])".toList :=
    ⟨_, rfl, by decide, by decide⟩
  have hfits : '"' ∉ payload.unescaped ∧ '&' ∉ payload.escaped ∧ Nested payload := by decide
  refine ⟨m, hm, hpayload, hfits, hfragment, ?_⟩
  obtain ⟨hquote, hescape, hnested⟩ := hfits
  have hopen : ∀ {P : Text → Prop}, P payload → ∀ p ∈ m.openPayload?, P p := by
    intro P hp p hmem
    rw [hpayload] at hmem
    cases hmem
    exact hp
  exact (closed_fragment_of_match? hm (hopen hquote) fun _ _ => hopen hescape).2 (hopen hnested)

/-- Neither condition can be left out: brackets of two kinds that overlap count as closed when each
kind is counted by itself, and a marker that is put behind a backslash loses its bracket. -/
theorem Variant.not_forall_nested_fragment :
    ¬ (∀ (v : Variant) (ctx : Context) (token : Text) (m : Match), v.match? ctx token = some m →
        (∀ p ∈ m.openPayload?, '"' ∉ p.unescaped) → Nested m.change.fragment) ∧
    ¬ (∀ (v : Variant) (ctx : Context) (token : Text) (m : Match), v.match? ctx token = some m →
        (∀ p ∈ m.openPayload?, '"' ∉ p.unescaped) → (∀ p ∈ m.openPayload?, Nested p) →
          Nested m.change.fragment) := by
  constructor
  · intro h
    have := h (.relation .group) {} "group-[([)]]:x".toList _ rfl (by decide)
    exact absurd this (by decide)
  · intro h
    have := h (.relation .group) { style := .byAttribute } "group-[\\&]:x".toList _ rfl
      (by decide) (by decide)
    exact absurd this (by decide)

end VariantSelector
