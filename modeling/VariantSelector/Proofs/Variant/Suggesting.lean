import VariantSelector.Proofs.Text.Pattern
import VariantSelector.Proofs.Variant.Grammar
import VariantSelector.Variant.Suggestion

/-!
Suggestions and readers agree. A pattern is put together from the names of keys and wrappers, with a
choice among the keys of its own; it matches the forms of its variant that have a key and no label,
each with a colon behind it (`Variant.exists_expression?`). The colon is what makes the text behind
the match irrelevant, since no key goes on behind one.
-/

namespace VariantSelector

open Pseudo Pattern

/-! ### Alternations -/

namespace Pseudo.Registry

/-- The admitted keys of both tables. -/
def keys (classesOnly : Bool) : List Text :=
  (lookups.filter (·.entry.admitted classesOnly)).map (·.entry.key)

/-- A table without admitted keys leaves no empty alternative behind. -/
theorem alternation_eq (classesOnly : Bool) :
    alternation classesOnly = ['|'].intercalate (keys classesOnly) := by
  cases classesOnly <;> decide +kernel

theorem isSequence_alternation (classesOnly : Bool) :
    IsSequence (oneOf (alternation classesOnly) ++ [':'])
      (anyOf ((keys classesOnly).map (· ++ [':']))) := by
  have hliteral : (keys classesOnly).all (·.all isLiteral) = true := by
    cases classesOnly <;> decide +kernel
  rw [alternation_eq]
  exact (isChoice_intercalate (by cases classesOnly <;> decide) hliteral).isItem.append_literal rfl

theorem mem_keys_colon_iff {s : Text} :
    s ∈ (keys false).map (· ++ [':']) ↔ ∃ key : Key, s = key.row.entry.key ++ [':'] := by
  simp only [keys, List.mem_map, List.mem_filter]
  constructor
  · rintro ⟨_, ⟨l, ⟨hl, -⟩, rfl⟩, rfl⟩
    exact ⟨⟨l, hl⟩, rfl⟩
  · rintro ⟨key, rfl⟩
    exact ⟨_, ⟨key.row, ⟨key.mem, rfl⟩, rfl⟩, rfl⟩

theorem mem_classKeys_colon_iff {s : Text} :
    s ∈ (keys true).map (· ++ [':']) ↔ ∃ key : ClassKey, s = key.row.entry.key ++ [':'] := by
  simp only [keys, List.mem_map, List.mem_filter]
  constructor
  · rintro ⟨_, ⟨l, ⟨hl, hclass⟩, rfl⟩, rfl⟩
    exact ⟨⟨⟨l, hl⟩, Entry.admitted_iff.1 hclass rfl⟩, rfl⟩
  · rintro ⟨key, rfl⟩
    exact ⟨_, ⟨key.row, ⟨key.mem, key.admitted⟩, rfl⟩, rfl⟩

end Pseudo.Registry

namespace Wrapper

theorem isSequence_alternation :
    IsSequence (oneOf alternation ++ ['-']) (anyOf (all.map lead)) :=
  (isChoice_intercalate (by decide) rfl).isItem.append_literal rfl

/-- The part of a relation's pattern that a wrapper or none may stand for. -/
theorem isItem_optional :
    IsItem (oneOf (oneOf alternation ++ ['-']) ++ ['?']) (anyOf ([] :: all.map lead)) := by
  rw [anyOf_cons]
  exact isSequence_alternation.isChoice.isItem.optional

theorem mem_lead_iff {s : Text} : s ∈ all.map lead ↔ ∃ w : Wrapper, s = w.lead := by
  simp [mem_all, eq_comm]

theorem mem_leadOf_iff {s : Text} : s ∈ [] :: all.map lead ↔ ∃ w, s = leadOf w := by
  rw [List.mem_cons, mem_lead_iff, Option.exists]
  rfl

end Wrapper

/-! ### Forms with a key -/

/-- Forms that name a key of the registry. -/
def Form.isKeyed : Form → Bool
  | .bare _ => true
  | .wrapped .. => true
  | .keyword .. => true
  | .bracketed .. => false
  | .part _ => false

/-- A word of a variant's keyed forms: one without a label, with a colon behind it. -/
def Variant.KeyedWord (v : Variant) (w : Text) : Prop :=
  ∃ f : Form, f.isKeyed = true ∧ f.variant = v ∧ f.label = [] ∧ w = f.text ++ [':']

namespace Variant

variable {w : Text}

theorem keyedWord_plain_iff :
    Variant.plain.KeyedWord w ↔ ∃ key : Key, w = key.row.entry.key ++ [':'] := by
  constructor
  · rintro ⟨f, hkeyed, hv, -, rfl⟩
    cases f with
    | bare key => exact ⟨key, rfl⟩
    | _ => cases hv
  · rintro ⟨key, rfl⟩
    exact ⟨.bare key, rfl, rfl, rfl, rfl⟩

theorem keyedWord_functional_iff :
    Variant.functional.KeyedWord w ↔
      ∃ (wrapper : Wrapper) (key : ClassKey),
        w = wrapper.lead ++ (key.row.entry.key ++ [':']) := by
  constructor
  · rintro ⟨f, hkeyed, hv, -, rfl⟩
    cases f with
    | wrapped wrapper key => exact ⟨wrapper, key, by rw [Form.text, List.append_assoc]⟩
    | _ => cases hv
  · rintro ⟨wrapper, key, rfl⟩
    exact ⟨.wrapped wrapper key, rfl, rfl, rfl, by rw [Form.text, List.append_assoc]⟩

theorem keyedWord_relation_iff {r : Relation} :
    (Variant.relation r).KeyedWord w ↔
      ∃ (wrapper : Option Wrapper) (key : ClassKey),
        w = r.lead ++ (Wrapper.leadOf wrapper ++ (key.row.entry.key ++ [':'])) := by
  constructor
  · rintro ⟨f, hkeyed, hv, hlabel, rfl⟩
    cases f with
    | keyword r' wrapper key label =>
      cases hv
      rw [Form.label] at hlabel
      exact ⟨wrapper, key, by simp [hlabel]⟩
    | bracketed => cases hkeyed
    | _ => cases hv
  · rintro ⟨wrapper, key, rfl⟩
    exact ⟨.keyword r wrapper key ⟨[], .inl rfl⟩, rfl, rfl, rfl, by simp⟩

/-- What the pattern of a variant matches. -/
theorem exists_expression? {v : Variant} {pattern : Text} (h : v.suggestion? = some pattern) :
    ∃ e, expression? pattern = some e ∧ ∀ w, w ∈ e.matches' ↔ v.KeyedWord w := by
  cases v with
  | plain =>
    cases h
    obtain ⟨e, he, hlang⟩ := (Registry.isSequence_alternation false).isChoice.exists_expression?
    refine ⟨e, he, fun w => ?_⟩
    rw [hlang, keyedWord_plain_iff, mem_anyOf, Registry.mem_keys_colon_iff]
  | functional =>
    cases h
    have hseq := Wrapper.isSequence_alternation.append (Registry.isSequence_alternation true)
    rw [List.append_assoc] at hseq
    obtain ⟨e, he, hlang⟩ := hseq.isChoice.exists_expression?
    refine ⟨e, he, fun w => ?_⟩
    rw [hlang, keyedWord_functional_iff, Language.mem_mul]
    constructor
    · rintro ⟨_, hlead, _, hkey, rfl⟩
      obtain ⟨wrapper, rfl⟩ := Wrapper.mem_lead_iff.1 hlead
      obtain ⟨key, rfl⟩ := Registry.mem_classKeys_colon_iff.1 hkey
      exact ⟨wrapper, key, rfl⟩
    · rintro ⟨wrapper, key, rfl⟩
      exact ⟨_, Wrapper.mem_lead_iff.2 ⟨wrapper, rfl⟩, _,
        Registry.mem_classKeys_colon_iff.2 ⟨key, rfl⟩, rfl⟩
  | relation r =>
    cases h
    have htag : IsSequence r.lead {r.lead} := isSequence_of_isLiteral (by cases r <;> rfl)
    have hseq := htag.append
      (Wrapper.isItem_optional.isSequence.append (Registry.isSequence_alternation true))
    simp only [Relation.lead, List.append_assoc, List.singleton_append] at hseq
    obtain ⟨e, he, hlang⟩ := hseq.isChoice.exists_expression?
    refine ⟨e, he, fun w => ?_⟩
    rw [hlang, keyedWord_relation_iff, Language.mem_mul]
    constructor
    · rintro ⟨_, rfl, _, ⟨_, hlead, _, hkey, rfl⟩, rfl⟩
      obtain ⟨wrapper, rfl⟩ := Wrapper.mem_leadOf_iff.1 hlead
      obtain ⟨key, rfl⟩ := Registry.mem_classKeys_colon_iff.1 hkey
      exact ⟨wrapper, key, rfl⟩
    · rintro ⟨wrapper, key, rfl⟩
      exact ⟨_, rfl, _, Language.append_mem_mul (Wrapper.mem_leadOf_iff.2 ⟨wrapper, rfl⟩)
        (Registry.mem_classKeys_colon_iff.2 ⟨key, rfl⟩), rfl⟩
  | part => cases h

/-- Tokens that begin with a word of a variant are read by this variant, up to the colon. -/
theorem KeyedWord.match?_append {v : Variant} {w : Text} (h : v.KeyedWord w)
    (style : MarkerStyle) (rest : Text) :
    ∃ m, ({ style } : Context).match? (w ++ rest) = some m ∧ m.variant = v ∧ m.taken = w ∧
      m.residual = rest ∧ m.label = [] := by
  obtain ⟨f, -, hv, hlabel, rfl⟩ := h
  have hbegins : f.Begins ':' rest (f.text ++ [':'] ++ rest) :=
    ⟨f.accepts_colon, by rw [List.append_assoc, List.singleton_append]⟩
  exact ⟨_, Context.match?_of_begins_colon rfl hbegins, hv, rfl, rfl, hlabel⟩

/-- What a variant reads, not in brackets, without a label and up to a colon, is a word of it. -/
theorem keyedWord_of_match? {v : Variant} {ctx : Context} {token : Text} {m : Match}
    (hm : v.match? ctx token = some m) (hpart : v ≠ .part)
    (hkeyword : ∀ r, v = .relation r → r.matchBracket? ctx.style token = none)
    (hlabel : m.label = []) (hcolon : m.taken.getLast? = some ':') : v.KeyedWord m.taken := by
  obtain ⟨f, b, rest, rfl, hf, rfl, -⟩ := isReading_of_match? hm
  obtain rfl : b = ':' := by simpa [Form.reading] using hcolon
  refine ⟨f, ?_, rfl, hlabel, rfl⟩
  cases f with
  | bracketed r payload label =>
    have hbracket : r.matchBracket? ctx.style token = some _ := matchBracket?_of_begins _ hf
    rw [hkeyword r rfl] at hbracket
    cases hbracket
  | part name => exact absurd rfl hpart
  | _ => rfl

theorem mem_suggestions_iff {v : Variant} {pattern : Text} :
    (v, pattern) ∈ suggestions ↔ v.suggestion? = some pattern := by
  simp only [suggestions, List.mem_filterMap, Option.map_eq_some_iff, Prod.mk.injEq]
  constructor
  · rintro ⟨_, -, _, h, rfl, rfl⟩
    exact h
  · intro h
    exact ⟨v, v.mem_all, pattern, h, rfl, rfl⟩

/-- Every variant but a part has a pattern, and it is a regular expression. Whatever stands behind a
word that it matches, the variant set reads this variant, up to the end of the word and without a
label; and what the variant reads as a keyword, without a label and up to a colon, it matches. -/
theorem suggestions_agree (style : MarkerStyle) :
    let ctx : Context := { style }
    (∀ v : Variant, (∃ pattern, (v, pattern) ∈ suggestions) ↔ v ≠ .part) ∧
    ∀ (v : Variant) (pattern : Text), (v, pattern) ∈ suggestions →
      ∃ e, expression? pattern = some e ∧
        (∀ w ∈ e.matches', ∀ rest, ∃ m, ctx.match? (w ++ rest) = some m ∧ m.variant = v ∧
          m.taken = w ∧ m.residual = rest ∧ m.label = []) ∧
        ∀ token m, v.match? ctx token = some m →
          (∀ r, v = .relation r → r.matchBracket? style token = none) → m.label = [] →
            m.taken.getLast? = some ':' → m.taken ∈ e.matches' := by
  intro ctx
  refine ⟨fun v => ?_, fun v pattern hv => ?_⟩
  · simp only [mem_suggestions_iff]
    cases v <;> simp [suggestion?]
  · rw [mem_suggestions_iff] at hv
    obtain ⟨e, he, hwords⟩ := exists_expression? hv
    refine ⟨e, he, fun w hw rest => ((hwords w).1 hw).match?_append style rest, ?_⟩
    intro token m hm hkeyword hlabel hcolon
    have hpart : v ≠ .part := by
      rintro rfl
      cases hv
    exact (hwords _).2 (keyedWord_of_match? hm hpart hkeyword hlabel hcolon)

end Variant

end VariantSelector
