import VariantSelector.Proofs.Variant.Form

/-!
The first word of a token tells which variant it may be read by: each variant has words of its own
(`Variant.words_disjoint`), and a token that begins with a form begins with a word of the form's
variant (`Form.Begins.firstWord_mem_words`). So a token begins with forms of one variant only
(`Form.Begins.variant_eq`), and what stands behind a wrapper is not read as a key in another way
(`Wrapper.leadOf_append_inj`).
-/

namespace VariantSelector

open Pseudo Bracketed

/-- The word characters that a text begins with. -/
def firstWord (s : Text) : Text := s.takeWhile isWordChar

theorem firstWord_append_cons {c : Char} (s rest : Text) (h : isWordChar c = false) :
    firstWord (s ++ c :: rest) = firstWord s :=
  Text.takeWhile_append_cons_of_neg s rest h

def Variant.words : Variant → List Text
  | .plain => Registry.lookups.map fun l => firstWord l.entry.key
  | .functional => Wrapper.all.map Wrapper.name
  | .relation r => [r.tag]
  | .part => ["part".toList]

theorem Variant.words_disjoint :
    ∀ v ∈ Variant.all, ∀ w ∈ Variant.all, v ≠ w → ∀ word ∈ v.words, word ∉ w.words := by
  decide

theorem Variant.mem_all (v : Variant) : v ∈ Variant.all := by
  cases v with
  | relation r => cases r <;> decide
  | _ => decide

theorem Wrapper.mem_all (w : Wrapper) : w ∈ all := by cases w <;> decide

theorem Wrapper.firstWord_lead_append (w : Wrapper) (rest : Text) :
    firstWord (w.lead ++ rest) = w.name := by
  rw [lead, List.append_assoc, List.singleton_append, firstWord_append_cons _ _ rfl]
  cases w <;> rfl

theorem Relation.firstWord_lead_append (r : Relation) (rest : Text) :
    firstWord (r.lead ++ rest) = r.tag := by
  rw [lead, List.append_assoc, List.singleton_append, firstWord_append_cons _ _ rfl]
  cases r <;> rfl

/-- A key ends where its first label or boundary begins, so its first word is the input's. -/
theorem Pseudo.KeyMatch.Reads.firstWord_eq {m : KeyMatch} {labels : Bool} {input : Text}
    (h : m.Reads labels input) : firstWord input = firstWord m.lookup.entry.key := by
  have hb := TableKind.not_isWordChar_of_accepts h.boundary
  rw [h.input_eq, KeyMatch.taken, List.append_assoc]
  rcases h.label with h0 | ⟨-, name, h1, -, -⟩
  · rw [h0, List.nil_append, List.singleton_append, firstWord_append_cons _ _ hb]
  · rw [h1, List.cons_append, List.cons_append, firstWord_append_cons _ _ rfl]

theorem Pseudo.KeyMatch.ReadsRow.firstWord_mem_words {m : KeyMatch} {classesOnly labels : Bool}
    {input : Text} (h : m.ReadsRow classesOnly labels input) :
    firstWord input ∈ Variant.words .plain := by
  rw [h.toReads.firstWord_eq]
  exact List.mem_map_of_mem h.row

/-- A variant's word is the first of its forms and of the tokens that begin with them. -/
theorem Form.Begins.firstWord_mem_words {f : Form} {b : Char} {rest token : Text}
    (h : f.Begins b rest token) : firstWord token ∈ f.variant.words := by
  rw [h.token_eq]
  cases f with
  | bare key =>
    rw [text, firstWord_append_cons _ _ (TableKind.not_isWordChar_of_accepts h.accepts)]
    exact List.mem_map_of_mem key.mem
  | wrapped wrapper key =>
    rw [text, List.append_assoc, Wrapper.firstWord_lead_append]
    exact List.mem_map_of_mem wrapper.mem_all
  | keyword relation wrapper key label =>
    rw [text, List.append_assoc, Relation.firstWord_lead_append]
    exact List.mem_singleton_self _
  | bracketed relation payload label =>
    rw [text, List.append_assoc, Relation.firstWord_lead_append]
    exact List.mem_singleton_self _
  | part name => exact List.mem_singleton_self _

theorem Form.Begins.variant_eq {f g : Form} {b c : Char} {rest rest' token : Text}
    (hf : f.Begins b rest token) (hg : g.Begins c rest' token) : f.variant = g.variant := by
  by_contra h
  exact Variant.words_disjoint _ f.variant.mem_all _ g.variant.mem_all h _
    hf.firstWord_mem_words hg.firstWord_mem_words

/-! ### Wrappers in front of keys -/

theorem Wrapper.strip?_lead_append (w : Wrapper) (rest : Text) :
    strip? (w.lead ++ rest) = some (w, rest) := by
  cases w <;> rfl

/-- No key reads like a wrapper in front of something. -/
theorem Wrapper.strip?_of_reads {m : KeyMatch} {classesOnly labels : Bool} {input : Text}
    (h : m.ReadsRow classesOnly labels input) : strip? input = none := by
  cases hs : strip? input with
  | none => rfl
  | some found =>
    obtain ⟨w, rest⟩ := found
    have hw := firstWord_lead_append w rest
    rw [← eq_lead_append_of_strip? hs] at hw
    have hmem : firstWord input ∈ Variant.words .functional := by
      rw [hw]
      exact List.mem_map_of_mem w.mem_all
    exact absurd hmem (Variant.words_disjoint _ (Variant.mem_all .plain) _
      (Variant.mem_all .functional) (by decide) _ h.firstWord_mem_words)

theorem Wrapper.strip?_leadOf_append {m : KeyMatch} {classesOnly labels : Bool} {input : Text}
    (h : m.ReadsRow classesOnly labels input) (w : Option Wrapper) :
    strip? (leadOf w ++ input) = w.map fun w => (w, input) := by
  cases w with
  | none => exact strip?_of_reads h
  | some w => exact strip?_lead_append w input

/-- One text does not read as a key behind two wrappers. -/
theorem Wrapper.leadOf_append_inj {m n : KeyMatch} {classesOnly labels : Bool} {s t : Text}
    {v w : Option Wrapper} (hm : m.ReadsRow classesOnly labels s)
    (hn : n.ReadsRow classesOnly labels t) (h : leadOf v ++ s = leadOf w ++ t) : v = w ∧ s = t := by
  have hv := strip?_leadOf_append hm v
  rw [h, strip?_leadOf_append hn w] at hv
  have hvw : v = w := by
    cases v <;> cases w <;> simp_all
  subst hvw
  exact ⟨rfl, List.append_cancel_left h⟩

end VariantSelector
