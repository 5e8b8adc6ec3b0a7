import VariantSelector.Proofs.Variant.FirstWord

/-!
Every variant reads its own forms and no others: what it reads is a form of its own, with no longer
key to be read there (`Variant.isReading_of_match?`), and where a form of its own stands it reads
one, this very one if a colon ends it (`Variant.exists_match?_of_begins`).
-/

namespace VariantSelector

open Pseudo Bracketed

/-! ### Forms with a key -/

theorem Key.readsRow (classesOnly labels : Bool) (key : Key) {label : Text} {b : Char} (rest : Text)
    (hadm : key.row.entry.admitted classesOnly = true)
    (hlabel : label = [] ∨ labels = true ∧ IsLabel label) (hb : key.row.table.accepts b = true) :
    (KeyMatch.mk key.row label b rest).ReadsRow classesOnly labels
      (key.row.entry.key ++ (label ++ b :: rest)) where
  label := hlabel
  boundary := hb
  input_eq := by simp [KeyMatch.taken]
  row := key.mem
  admitted := hadm

theorem ClassKey.admitted (key : ClassKey) : key.row.entry.admitted true = true := by
  simp [Entry.admitted, key.isClass]

theorem ClassKey.readsRow_label (key : ClassKey) (label : KeyLabel) {b : Char} (rest : Text)
    (hb : key.row.table.accepts b = true) :
    (KeyMatch.mk key.row label.text b rest).ReadsRow true true
      (key.row.entry.key ++ (label.text ++ b :: rest)) := by
  refine key.readsRow true true rest key.admitted ?_ hb
  exact label.wellFormed.imp id fun h => ⟨rfl, h⟩

theorem Pseudo.KeyMatch.ReadsRow.exists_key {m : KeyMatch} {classesOnly : Bool} {input : Text}
    (h : m.ReadsRow classesOnly false input) :
    ∃ (key : Key) (b : Char) (rest : Text), m = ⟨key.row, [], b, rest⟩ ∧
      key.row.table.accepts b = true ∧ input = key.row.entry.key ++ b :: rest := by
  obtain ⟨lookup, label, b, rest⟩ := m
  obtain rfl : label = [] := by simpa using h.label
  exact ⟨⟨lookup, h.row⟩, b, rest, rfl, h.boundary, by simpa [taken] using h.input_eq⟩

theorem Pseudo.KeyMatch.ReadsRow.exists_classKey {m : KeyMatch} {labels : Bool} {input : Text}
    (h : m.ReadsRow true labels input) :
    ∃ (key : ClassKey) (label : KeyLabel) (b : Char) (rest : Text),
      m = ⟨key.row, label.text, b, rest⟩ ∧ key.row.table.accepts b = true ∧
        input = key.row.entry.key ++ (label.text ++ b :: rest) := by
  obtain ⟨lookup, label, b, rest⟩ := m
  have hlabel : label = [] ∨ IsLabel label := h.label.imp id And.right
  have hclass : lookup.entry.isElement = false := Entry.admitted_iff.1 h.admitted rfl
  exact ⟨⟨⟨lookup, h.row⟩, hclass⟩, ⟨label, hlabel⟩, b, rest, rfl, h.boundary,
    by simpa [taken] using h.input_eq⟩

/-- No form of this variant that the token begins with has a longer key. -/
def Form.Longest (f : Form) (token : Text) : Prop :=
  ∀ (g : Form) (b : Char) (rest : Text), g.variant = f.variant → g.Begins b rest token →
    g.keyLength ≤ f.keyLength

/-- What a variant that reads the token as a form of its own makes of it. -/
def Form.IsReading (style : MarkerStyle) (v : Variant) (token : Text) (m : Match) : Prop :=
  ∃ (f : Form) (b : Char) (rest : Text), f.variant = v ∧ f.Begins b rest token ∧
    m = f.reading style b rest ∧ f.Longest token

section Plain

variable {rules : TransformRules} {token : Text}

theorem isReading_of_matchPlain? (style : MarkerStyle) {m : Match}
    (h : matchPlain? rules token = some m) :
    Form.IsReading style .plain (rules.restore token) m := by
  obtain ⟨found, hfound, h⟩ := Option.bind_eq_some_iff.1 h
  obtain ⟨key, b, rest, rfl, hb, hin⟩ := (Registry.readsRow_of_matchKey? hfound).exists_key
  refine ⟨.bare key, b, rest, rfl, ⟨hb, hin⟩, ?_, ?_⟩
  · cases h
    simp [Form.reading, KeyMatch.taken]
  · intro g c rest' hg hbegins
    cases g with
    | bare key' =>
      have hread := key'.readsRow false false rest' rfl (.inl rfl) hbegins.accepts
      rw [List.nil_append, ← Form.text, ← hbegins.token_eq] at hread
      exact Registry.length_le_of_matchKey? hfound hread
    | _ => cases hg

theorem exists_matchPlain? (style : MarkerStyle) {key : Key} {b : Char} {rest : Text}
    (h : (Form.bare key).Begins b rest (rules.restore token)) :
    ∃ m, matchPlain? rules token = some m ∧
      (b = ':' → m = (Form.bare key).reading style b rest) := by
  have hread := key.readsRow false false rest rfl (.inl rfl) h.accepts
  rw [List.nil_append, ← Form.text, ← h.token_eq] at hread
  obtain ⟨found, hfound, hcolon⟩ := Registry.exists_matchKey?_of_readsRow hread
  refine ⟨_, by rw [matchPlain?, hfound]; rfl, fun hb => ?_⟩
  rw [hcolon hb]
  simp [Form.reading, KeyMatch.taken]

end Plain

section Functional

variable {rules : TransformRules} {token : Text}

theorem isReading_of_matchFunctional? (style : MarkerStyle) {m : Match}
    (h : matchFunctional? rules token = some m) :
    Form.IsReading style .functional (rules.restore token) m := by
  obtain ⟨⟨wrapper, input⟩, hstrip, h⟩ := Option.bind_eq_some_iff.1 h
  obtain ⟨found, hfound, h⟩ := Option.bind_eq_some_iff.1 h
  have hr := Registry.readsRow_of_matchKey? hfound
  have htoken := Wrapper.eq_lead_append_of_strip? hstrip
  obtain ⟨key, label, b, rest, rfl, hb, hin⟩ := hr.exists_classKey
  obtain hlabel : label.text = [] := by simpa using hr.label
  refine ⟨.wrapped wrapper key, b, rest, rfl, ⟨hb, ?_⟩, ?_, ?_⟩
  · rw [htoken, hin, hlabel, List.nil_append, Form.text, List.append_assoc]
  · cases h
    simp [Form.reading, KeyMatch.taken, hlabel]
  · intro g c rest' hg hbegins
    cases g with
    | wrapped wrapper' key' =>
      have hread := key'.readsRow true false rest' key'.admitted (.inl rfl) hbegins.accepts
      have heq := hbegins.token_eq
      rw [htoken, Form.text, List.append_assoc] at heq
      obtain ⟨-, rfl⟩ := Wrapper.leadOf_append_inj (v := some wrapper) (w := some wrapper') hr hread
        heq
      exact Registry.length_le_of_matchKey? hfound hread
    | _ => cases hg

theorem matchFunctional?_eq {wrapper : Wrapper} {input : Text}
    (htoken : rules.restore token = wrapper.lead ++ input) :
    matchFunctional? rules token = (Registry.matchKey? true false input).map fun found =>
      { variant := .functional, taken := wrapper.lead ++ found.taken, residual := found.rest
        change := .appendSelector (wrapper.wrap found.lookup.entry.fragment) } := by
  have hstrip : Wrapper.strip? (rules.restore token) = some (wrapper, input) := by
    rw [htoken, Wrapper.strip?_lead_append]
  simp only [matchFunctional?, hstrip, Option.bind_eq_bind, Option.bind_some]
  cases Registry.matchKey? true false input <;> rfl

theorem exists_matchFunctional? (style : MarkerStyle) {wrapper : Wrapper} {key : ClassKey}
    {b : Char} {rest : Text} (h : (Form.wrapped wrapper key).Begins b rest (rules.restore token)) :
    ∃ m, matchFunctional? rules token = some m ∧
      (b = ':' → m = (Form.wrapped wrapper key).reading style b rest) := by
  have hread := key.readsRow true false rest key.admitted (.inl rfl) h.accepts
  rw [List.nil_append] at hread
  obtain ⟨found, hfound, hcolon⟩ := Registry.exists_matchKey?_of_readsRow hread
  have htoken : rules.restore token = wrapper.lead ++ (key.row.entry.key ++ b :: rest) := by
    rw [h.token_eq, Form.text, List.append_assoc]
  refine ⟨_, by rw [matchFunctional?_eq htoken, hfound]; rfl, fun hb => ?_⟩
  rw [hcolon hb]
  simp [Form.reading, KeyMatch.taken]

end Functional

section Relation

variable {r : Relation} {token : Text}

/-- A key behind a wrapper or none begins with a word; a group does not. -/
theorem Wrapper.leadOf_append_ne_bracket {m : KeyMatch} {classesOnly labels : Bool} {input : Text}
    (h : m.ReadsRow classesOnly labels input) (w : Option Wrapper) (s : Text) :
    leadOf w ++ input ≠ '[' :: s := by
  intro heq
  have hword : firstWord (leadOf w ++ input) = [] := by rw [heq]; rfl
  cases w with
  | none =>
    have hmem := h.firstWord_mem_words
    rw [show firstWord input = [] from hword] at hmem
    exact absurd hmem (by decide)
  | some w =>
    rw [show firstWord (leadOf (some w) ++ input) = w.name from w.firstWord_lead_append input]
      at hword
    cases w <;> exact absurd hword (by decide)

/-- What a key behind a wrapper or none reads as. -/
theorem keyedCompound?_eq {found : KeyMatch} {input : Text} (w : Option Wrapper)
    (hfound : Registry.matchKey? true true input = some found) :
    (Relation.wrappedCompound? (Wrapper.leadOf w ++ input)).or
        (Relation.bareCompound? (Wrapper.leadOf w ++ input))
      = some ⟨Wrapper.leadOf w ++ found.taken,
          Wrapper.wrapIn w found.lookup.entry.fragment, found⟩ := by
  have hstrip := Wrapper.strip?_leadOf_append (Registry.readsRow_of_matchKey? hfound) w
  cases w with
  | none =>
    have hnone : Relation.wrappedCompound? (Wrapper.leadOf none ++ input) = none := by
      rw [Relation.wrappedCompound?, hstrip]
      rfl
    rw [hnone, Option.none_or, Relation.bareCompound?, Wrapper.leadOf, Option.elim_none,
      List.nil_append, hfound]
    rfl
  | some w =>
    have hsome : Relation.wrappedCompound? (Wrapper.leadOf (some w) ++ input)
        = some ⟨w.lead ++ found.taken, w.wrap found.lookup.entry.fragment, found⟩ := by
      simp only [Relation.wrappedCompound?, hstrip, Option.map_some, Option.bind_eq_bind,
        Option.bind_some, hfound]
    rw [hsome]
    rfl

theorem exists_of_keyedCompound? {s : Text} {k : Relation.KeyedCompound}
    (h : (Relation.wrappedCompound? s).or (Relation.bareCompound? s) = some k) :
    ∃ (w : Option Wrapper) (input : Text), s = Wrapper.leadOf w ++ input ∧
      Registry.matchKey? true true input = some k.key ∧
      k.taken = Wrapper.leadOf w ++ k.key.taken ∧
      k.compound = Wrapper.wrapIn w k.key.lookup.entry.fragment := by
  rcases Option.or_eq_some_iff.1 h with h | ⟨-, h⟩
  · obtain ⟨⟨w, input⟩, hstrip, h⟩ := Option.bind_eq_some_iff.1 h
    obtain ⟨found, hfound, h⟩ := Option.bind_eq_some_iff.1 h
    cases h
    exact ⟨some w, input, Wrapper.eq_lead_append_of_strip? hstrip, hfound, rfl, rfl⟩
  · obtain ⟨found, hfound, h⟩ := Option.bind_eq_some_iff.1 h
    cases h
    exact ⟨none, s, rfl, hfound, rfl, rfl⟩

theorem isReading_of_matchBracket? {style : MarkerStyle} {m : Match}
    (h : r.matchBracket? style token = some m) : Form.IsReading style (.relation r) token m := by
  obtain ⟨found, hfound, h⟩ := Option.bind_eq_some_iff.1 h
  obtain ⟨value, hvalue, h⟩ := Option.bind_eq_some_iff.1 h
  obtain ⟨hfits, htoken⟩ := extract?_eq_some_iff.1 hfound
  refine ⟨.bracketed r ⟨found.payload, value, hfits.balanced, hfits.nonblank, hvalue⟩
    ⟨found.label, hfits.label⟩, found.separator, found.residual, rfl, ⟨hfits.separator, ?_⟩, ?_, ?_⟩
  · simpa [Extract.taken] using htoken
  · cases h
    simp [Form.reading, Extract.taken]
  · intro g c rest hg hbegins
    cases g with
    | keyword r' w key label =>
      cases hg
      have hread := key.readsRow_label label rest hbegins.accepts
      have heq := hbegins.token_eq
      rw [htoken] at heq
      simp only [Extract.taken, Form.text, List.append_assoc, List.append_cancel_left_eq] at heq
      exact absurd heq.symm (Wrapper.leadOf_append_ne_bracket hread w _)
    | bracketed r' payload label => exact Nat.le_refl 0
    | _ => cases hg

theorem isReading_of_matchKeyword? {style : MarkerStyle} {m : Match}
    (h : r.matchKeyword? style token = some m) : Form.IsReading style (.relation r) token m := by
  obtain ⟨s, hs, hrest⟩ := Option.bind_eq_some_iff.1 h
  obtain ⟨found, hfound, hm⟩ := Option.bind_eq_some_iff.1 hrest
  have htoken := Text.eq_append_of_after? hs
  obtain ⟨w, input, rfl, hkey, htaken, hcompound⟩ := exists_of_keyedCompound? hfound
  have hr := Registry.readsRow_of_matchKey? hkey
  obtain ⟨key, label, b, rest, hmatch, hb, hin⟩ := hr.exists_classKey
  refine ⟨.keyword r w key label, b, rest, rfl, ⟨hb, ?_⟩, ?_, ?_⟩
  · simp [htoken, hin]
  · cases hm
    simp [Form.reading, htaken, hcompound, hmatch, KeyMatch.taken]
  · intro g c rest' hg hbegins
    cases g with
    | keyword r' w' key' label' =>
      cases hg
      have hread := key'.readsRow_label label' rest' hbegins.accepts
      have heq := hbegins.token_eq
      rw [htoken] at heq
      simp only [Form.text, List.append_assoc, List.append_cancel_left_eq] at heq
      obtain ⟨-, rfl⟩ := Wrapper.leadOf_append_inj hr hread heq
      have := Registry.length_le_of_matchKey? hkey hread
      rwa [hmatch] at this
    | bracketed r' payload label => exact Nat.zero_le _
    | _ => cases hg

theorem matchBracket?_of_begins (style : MarkerStyle) {payload : Payload} {label : GroupLabel}
    {b : Char} {rest : Text} (h : (Form.bracketed r payload label).Begins b rest token) :
    r.matchBracket? style token = some ((Form.bracketed r payload label).reading style b rest) := by
  have hextract : extract? r.lead token = some ⟨payload.text, label.text, b, rest⟩ := by
    rw [extract?_eq_some_iff]
    refine ⟨⟨payload.balanced, payload.nonblank, label.noSeparator, h.accepts⟩, ?_⟩
    simpa [Extract.taken] using h.token_eq
  simp only [Relation.matchBracket?, hextract, Option.bind_eq_bind, Option.bind_some,
    payload.decodes]
  simp [Form.reading, Extract.taken]

/-- No bracket follows the lead where a key does, so the bracketed form is not in the way. -/
theorem matchBracket?_of_readsRow (style : MarkerStyle) {m : KeyMatch} {classesOnly labels : Bool}
    {input : Text} (h : m.ReadsRow classesOnly labels input) (w : Option Wrapper) :
    r.matchBracket? style (r.lead ++ (Wrapper.leadOf w ++ input)) = none := by
  have hnone : extract? r.lead (r.lead ++ (Wrapper.leadOf w ++ input)) = none := by
    rw [Option.eq_none_iff_forall_ne_some]
    intro x hx
    have heq := (extract?_eq_some_iff.1 hx).2
    simp only [Extract.taken, List.append_assoc, List.append_cancel_left_eq] at heq
    exact Wrapper.leadOf_append_ne_bracket h w _ heq
  rw [Relation.matchBracket?, hnone]
  rfl

theorem matchKeyword?_of_matchKey? (style : MarkerStyle) {found : KeyMatch} {input : Text}
    (hfound : Registry.matchKey? true true input = some found) (w : Option Wrapper) :
    r.matchKeyword? style (r.lead ++ (Wrapper.leadOf w ++ input)) = some
      { variant := .relation r, taken := r.lead ++ (Wrapper.leadOf w ++ found.taken)
        residual := found.rest, label := found.label
        change := .prependRelation ⟨.scoped (r.scopedMarker style found.label)
          (Wrapper.wrapIn w found.lookup.entry.fragment) (!found.label.isEmpty), r.combinator⟩
        sort := .rank found.lookup.rank } := by
  simp only [Relation.matchKeyword?, Text.after?_append, Option.bind_eq_bind, Option.bind_some,
    keyedCompound?_eq w hfound]

theorem exists_matchKeyword? (style : MarkerStyle) {w : Option Wrapper} {key : ClassKey}
    {label : KeyLabel} {b : Char} {rest : Text}
    (h : (Form.keyword r w key label).Begins b rest token) :
    r.matchBracket? style token = none ∧ ∃ m, r.matchKeyword? style token = some m ∧
      (b = ':' → m = (Form.keyword r w key label).reading style b rest) := by
  have hread := key.readsRow_label label rest h.accepts
  obtain rfl : token = r.lead ++ (Wrapper.leadOf w ++ (key.row.entry.key ++
      (label.text ++ b :: rest))) := by simpa using h.token_eq
  obtain ⟨found, hfound, hcolon⟩ := Registry.exists_matchKey?_of_readsRow hread
  refine ⟨matchBracket?_of_readsRow style hread w, _, matchKeyword?_of_matchKey? style hfound w,
    fun hb => ?_⟩
  rw [hcolon hb]
  simp [Form.reading, KeyMatch.taken]

theorem isReading_of_relation {style : MarkerStyle} {m : Match}
    (h : r.match? style token = some m) : Form.IsReading style (.relation r) token m := by
  rcases Option.or_eq_some_iff.1 h with h | ⟨-, h⟩
  · exact isReading_of_matchBracket? h
  · exact isReading_of_matchKeyword? h

end Relation

section Part

variable {token : Text}

theorem isReading_of_matchPart? (style : MarkerStyle) {m : Match}
    (h : matchPart? token = some m) : Form.IsReading style .part token m := by
  obtain ⟨group, hgroup, h₁⟩ := Option.bind_eq_some_iff.1 h
  obtain ⟨⟨payload, rest⟩, hsplit, h₂⟩ := Option.bind_eq_some_iff.1 h₁
  have htoken := Text.eq_append_of_after? hgroup
  obtain ⟨hbal, rfl⟩ := splitGroup?_eq_some_iff.1 hsplit
  by_cases hempty : payload.isEmpty = true
  · simp [hempty] at h₂
  · simp only [hempty, Bool.false_eq_true, ↓reduceIte] at h₂
    split at h₂
    next residual =>
      cases h₂
      refine ⟨.part ⟨payload, hbal, by simpa using hempty⟩, ':', residual, rfl, ⟨rfl, ?_⟩, ?_, ?_⟩
      · simpa using htoken
      · simp [Form.reading]
      · intro g c rest' hg _
        cases g with
        | part name => exact Nat.le_refl 0
        | _ => cases hg
    next => cases h₂

theorem matchPart?_of_begins (style : MarkerStyle) {name : PartName} {b : Char} {rest : Text}
    (h : (Form.part name).Begins b rest token) :
    matchPart? token = some ((Form.part name).reading style b rest) := by
  obtain rfl : b = ':' := by simpa using h.accepts
  have hafter : Text.after? partLead token = some ('[' :: (name.text ++ ']' :: ':' :: rest)) := by
    rw [Text.after?_eq_some_iff]
    simpa using h.token_eq
  have hsplit : splitGroup? ('[' :: (name.text ++ ']' :: ':' :: rest))
      = some (name.text, ':' :: rest) := splitGroup?_eq_some_iff.2 ⟨name.balanced, rfl⟩
  have hempty : name.text.isEmpty = false := by simpa using name.nonempty
  simp only [matchPart?, hafter, Option.bind_eq_bind, Option.bind_some, hsplit, hempty,
    Bool.false_eq_true, ↓reduceIte]
  simp [Form.reading]

end Part

/-! ### Variants -/

namespace Variant

/-- The text that a variant reads: keys without a relation are read behind the transform rules. -/
def source (rules : TransformRules) (token : Text) : Variant → Text
  | .plain => rules.restore token
  | .functional => rules.restore token
  | .relation _ => token
  | .part => token

/-- Where the rules leave a token alone all variants see the same text. -/
theorem source_eq {rules : TransformRules} {token : Text}
    (h : rules.restore token = token) (v : Variant) : v.source rules token = token := by
  cases v with
  | plain => exact h
  | functional => exact h
  | relation _ => rfl
  | part => rfl

theorem isReading_of_match? {v : Variant} {ctx : Context} {token : Text} {m : Match}
    (h : v.match? ctx token = some m) :
    Form.IsReading ctx.style v (v.source ctx.rules token) m := by
  cases v with
  | plain => exact isReading_of_matchPlain? _ h
  | functional => exact isReading_of_matchFunctional? _ h
  | relation r => exact isReading_of_relation h
  | part => exact isReading_of_matchPart? _ h

theorem exists_match?_of_begins {ctx : Context} {f : Form} {b : Char} {rest token : Text}
    (h : f.Begins b rest (f.variant.source ctx.rules token)) :
    ∃ m, f.variant.match? ctx token = some m ∧ (b = ':' → m = f.reading ctx.style b rest) := by
  cases f with
  | bare key => exact exists_matchPlain? ctx.style h
  | wrapped wrapper key => exact exists_matchFunctional? ctx.style h
  | keyword r w key label =>
    change Form.Begins _ b rest token at h
    obtain ⟨hnone, m, hm, hcolon⟩ := exists_matchKeyword? ctx.style h
    exact ⟨m, by rw [Form.variant, match?, Relation.match?, hnone, Option.none_or, hm], hcolon⟩
  | bracketed r payload label =>
    change Form.Begins _ b rest token at h
    refine ⟨_, ?_, fun _ => rfl⟩
    rw [Form.variant, match?, Relation.match?, matchBracket?_of_begins ctx.style h, Option.some_or]
  | part name => exact ⟨_, matchPart?_of_begins ctx.style h, fun _ => rfl⟩

end Variant

end VariantSelector
