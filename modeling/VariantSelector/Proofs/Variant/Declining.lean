import VariantSelector.Proofs.Bracketed.Scans
import VariantSelector.Proofs.Variant.Reading

/-!
Tokens in brackets that no relation reads. A payload is scanned for its brackets twice, and what
the first scan accepts the second may reject: it counts an escaped square bracket like any other.
`decode?_eq_none_iff_of_extract?` says which payloads are not decoded, and that a relation declines
a token exactly for these.
-/

namespace VariantSelector

open Pseudo Bracketed

/-- A group stands where a key would have to stand. -/
theorem Relation.matchKeyword?_of_extract? {r : Relation} {token : Text} {x : Extract}
    (style : MarkerStyle) (hx : extract? r.lead token = some x) :
    r.matchKeyword? style token = none := by
  rw [Option.eq_none_iff_forall_ne_some]
  intro m hm
  obtain ⟨s, hs, hrest⟩ := Option.bind_eq_some_iff.1 hm
  obtain ⟨found, hfound, -⟩ := Option.bind_eq_some_iff.1 hrest
  obtain ⟨w, input, rfl, hkey, -⟩ := exists_of_keyedCompound? hfound
  have htoken := (extract?_eq_some_iff.1 hx).2
  rw [Text.eq_append_of_after? hs] at htoken
  simp only [Extract.taken, List.append_assoc, List.append_cancel_left_eq] at htoken
  exact Wrapper.leadOf_append_ne_bracket (Registry.readsRow_of_matchKey? hkey) w _ htoken

theorem Relation.match?_eq_none_iff_of_extract? {r : Relation} {token : Text} {x : Extract}
    (style : MarkerStyle) (hx : extract? r.lead token = some x) :
    r.match? style token = none ↔ decode? x.payload = none := by
  rw [Relation.match?, matchKeyword?_of_extract? style hx, Option.or_none, matchBracket?, hx,
    Option.bind_eq_bind, Option.bind_some]
  cases decode? x.payload <;> simp

namespace Bracketed

/-- What stands in the brackets of a token is decoded unless it is empty behind its hint, or is
`=""`, or its square brackets do not match once the escaped ones count like the others. The last
happens only where a square bracket is escaped, and always where the escaped ones are not as many on
both sides. A relation declines the token exactly if the payload is not decoded. -/
theorem decode?_eq_none_iff_of_extract? {lead token : Text} {x : Extract}
    (hx : extract? lead token = some x) :
    ∃ hint base, Splits x.payload hint base ∧
      (decode? x.payload = none ↔ base = [] ∨ base = "=\"\"".toList ∨ ¬ BracketsMatch base) ∧
      (¬ BracketsMatch base → '[' ∈ x.payload.escaped ∨ ']' ∈ x.payload.escaped) ∧
      (x.payload.escaped.count '[' ≠ x.payload.escaped.count ']' → ¬ BracketsMatch base) ∧
      ∀ (r : Relation) (ctx : Context), r.lead = lead →
        ((Variant.relation r).match? ctx token = none ↔ decode? x.payload = none) := by
  obtain ⟨hint, base, hsplit⟩ : ∃ hint base, splitHint x.payload = (hint, base) := ⟨_, _, rfl⟩
  obtain ⟨hbase, hescaped⟩ := (extract?_eq_some_iff.1 hx).1.balanced.of_splitHint hsplit
  refine ⟨hint, base, splits_iff.2 hsplit, decode?_eq_none_iff hsplit, ?_, ?_, ?_⟩
  · intro hmatch
    by_contra hnone
    rw [not_or, ← hescaped] at hnone
    exact hmatch (hbase.bracketsMatch hnone.1 hnone.2)
  · intro hcount hmatch
    rw [← hescaped] at hcount
    exact hcount (hbase.count_escaped_of_bracketsMatch hmatch)
  · rintro r ctx rfl
    exact r.match?_eq_none_iff_of_extract? ctx.style hx

/-- A bracket that a backslash takes along and that no other matches: the token is cut up around its
group and declined all the same. -/
theorem decode?_eq_none_iff_of_extract?_peer :
    let token : Text := "peer-[string:[a_]\\]]/item:x".toList
    let payload : Text := "string:[a_]\\]".toList
    extract? "peer-".toList token = some ⟨payload, "/item".toList, ':', "x".toList⟩ ∧
      payload.escaped = [']'] ∧ decode? payload = none ∧
      (Variant.relation .peer).match? {} token = none := by
  intro token payload
  have hx : extract? "peer-".toList token = some ⟨payload, "/item".toList, ':', "x".toList⟩ := by
    decide
  have hescaped : payload.escaped = [']'] := by decide
  obtain ⟨hint, base, -, hnone, -, hcount, hdeclines⟩ := decode?_eq_none_iff_of_extract? hx
  have hmatch : ¬ BracketsMatch base := hcount (by decide)
  have hdecode := hnone.2 (.inr (.inr hmatch))
  exact ⟨hx, hescaped, hdecode, (hdeclines .peer {} rfl).2 hdecode⟩

/-- Neither empty nor `=""`, and not decoded: the scan that found the end of the group passed over
the escaped bracket in it. -/
theorem not_forall_void_of_decode?_eq_none :
    ¬ ∀ (lead token : Text) (x : Extract), extract? lead token = some x → decode? x.payload = none →
        ∃ hint base, Splits x.payload hint base ∧ (base = [] ∨ base = "=\"\"".toList) := by
  intro h
  obtain ⟨hint, base, hsplits, hvoid⟩ := h "group-".toList "group-[a\\]]:x".toList _ rfl (by decide)
  have hsplit : splitHint "a\\]".toList = (hint, base) := splits_iff.1 hsplits
  obtain ⟨-, rfl⟩ := Prod.mk.inj hsplit
  exact absurd hvoid (by decide)

end Bracketed

end VariantSelector
