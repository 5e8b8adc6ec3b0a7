import VariantSelector.Proofs.Variant.Reading

/-!
The grammar of the variant set. On a token that the transform rules leave alone all variants see the
same text, so no two of them can read it and their order does not matter; the set reads a variant
iff the token begins with a form, and of the forms it begins with it reads the one whose key is the
longest (`Context.match?_iff_form`).
-/

namespace VariantSelector

open Pseudo Bracketed

theorem Variant.eq_of_match? {ctx : Context} {token : Text} {v w : Variant} {m n : Match}
    (h : ctx.rules.restore token = token) (hv : v.match? ctx token = some m)
    (hw : w.match? ctx token = some n) : v = w := by
  obtain ⟨f, b, rest, rfl, hf, -, -⟩ := isReading_of_match? hv
  obtain ⟨g, c, rest', rfl, hg, -, -⟩ := isReading_of_match? hw
  rw [source_eq h] at hf hg
  exact hf.variant_eq hg

/-- What a variant reads alone is what any set reads that it is in. -/
theorem Variant.findSome?_match? {ctx : Context} {token : Text} {v : Variant} {m : Match}
    (h : ctx.rules.restore token = token) (hv : v.match? ctx token = some m)
    {vs : List Variant} (hmem : v ∈ vs) : vs.findSome? (·.match? ctx token) = some m := by
  cases hfound : vs.findSome? (·.match? ctx token) with
  | none =>
    rw [List.findSome?_eq_none_iff] at hfound
    rw [hfound v hmem] at hv
    cases hv
  | some n =>
    obtain ⟨w, -, hw⟩ := List.exists_of_findSome?_eq_some hfound
    rw [← hv, eq_of_match? h hv hw, hw]

namespace Context

variable {ctx : Context} {token : Text}

theorem match?_of_match? {v : Variant} {m : Match} (h : ctx.rules.restore token = token)
    (hv : v.match? ctx token = some m) : ctx.match? token = some m :=
  Variant.findSome?_match? h hv v.mem_all

theorem match?_of_begins_colon {f : Form} {rest : Text} (h : ctx.rules.restore token = token)
    (hf : f.Begins ':' rest token) : ctx.match? token = some (f.reading ctx.style ':' rest) := by
  have hsource : f.Begins ':' rest (f.variant.source ctx.rules token) := by
    rwa [Variant.source_eq h]
  obtain ⟨m, hm, hcolon⟩ := Variant.exists_match?_of_begins hsource
  rw [match?_of_match? h hm, hcolon rfl]

/-- What the set reads is a form with the longest key of all forms that the token begins with. -/
theorem exists_form_of_match? {m : Match} (h : ctx.rules.restore token = token)
    (hm : ctx.match? token = some m) :
    ∃ (f : Form) (b : Char) (rest : Text), f.Begins b rest token ∧
      m = f.reading ctx.style b rest ∧
        ∀ (g : Form) (c : Char) (rest' : Text), g.Begins c rest' token →
          g.keyLength ≤ f.keyLength := by
  obtain ⟨v, -, hv⟩ := List.exists_of_findSome?_eq_some hm
  obtain ⟨f, b, rest, rfl, hf, rfl, hlongest⟩ := Variant.isReading_of_match? hv
  rw [Variant.source_eq h] at hf hlongest
  refine ⟨f, b, rest, hf, rfl, ?_⟩
  -- a form of another variant cannot stand here, so the longest of its variant is the longest
  intro g c rest' hg
  exact hlongest g c rest' (hg.variant_eq hf) hg

/-- The variant set accepts exactly the tokens that begin with a form, reads the form with the
longest key, and could try its variants in any order, since one of them at most can read a token. -/
theorem match?_iff_form (h : ctx.rules.restore token = token) :
    ((ctx.match? token).isSome = true ↔
      ∃ (f : Form) (b : Char) (rest : Text), f.Begins b rest token) ∧
    (∀ m, ctx.match? token = some m →
      ∃ (f : Form) (b : Char) (rest : Text), f.Begins b rest token ∧
        m = f.reading ctx.style b rest ∧
          ∀ (g : Form) (c : Char) (rest' : Text), g.Begins c rest' token →
            g.keyLength ≤ f.keyLength) ∧
    (∀ v w : Variant, (v.match? ctx token).isSome = true → (w.match? ctx token).isSome = true →
      v = w) ∧
    (∀ vs : List Variant, (∀ v, v ∈ vs) →
      vs.findSome? (·.match? ctx token) = ctx.match? token) := by
  refine ⟨⟨?_, ?_⟩, ?_, ?_, ?_⟩
  · intro hsome
    obtain ⟨m, hm⟩ := Option.isSome_iff_exists.1 hsome
    obtain ⟨f, b, rest, hf, -, -⟩ := exists_form_of_match? h hm
    exact ⟨f, b, rest, hf⟩
  · rintro ⟨f, b, rest, hf⟩
    rw [← Variant.source_eq h f.variant] at hf
    obtain ⟨m, hm, -⟩ := Variant.exists_match?_of_begins hf
    rw [match?_of_match? h hm, Option.isSome_some]
  · intro m hm
    exact exists_form_of_match? h hm
  · intro v w hv hw
    obtain ⟨m, hm⟩ := Option.isSome_iff_exists.1 hv
    obtain ⟨n, hn⟩ := Option.isSome_iff_exists.1 hw
    exact Variant.eq_of_match? h hm hn
  · intro vs hall
    cases hfound : vs.findSome? (·.match? ctx token) with
    | none =>
      rw [List.findSome?_eq_none_iff] at hfound
      rw [Context.match?, eq_comm, List.findSome?_eq_none_iff]
      intro v _
      exact hfound v (hall v)
    | some m =>
      obtain ⟨v, -, hv⟩ := List.exists_of_findSome?_eq_some hfound
      rw [match?_of_match? h hv]

/-- The rule at work leaves this token alone, and in it `focus-visible` is read and not `focus`. -/
theorem match?_iff_form_focus_visible :
    let ctx : Context := { rules := [([':'], "-c-".toList)] }
    let token : Text := "focus-visible:p-2".toList
    ctx.rules.restore token = token ∧
      (∃ (f : Form) (b : Char) (rest : Text), f.Begins b rest token) ∧
      ∀ vs : List Variant, (∀ v, v ∈ vs) →
        (vs.findSome? (·.match? ctx token)).map Match.residual = some "p-2".toList := by
  intro ctx token
  have hrestore : ctx.rules.restore token = token := by decide
  have hmatch : (ctx.match? token).map Match.residual = some "p-2".toList := by decide
  obtain ⟨hforms, -, -, horder⟩ := match?_iff_form hrestore
  refine ⟨hrestore, hforms.1 ?_, ?_⟩
  · cases h : ctx.match? token with
    | none => simp [h] at hmatch
    | some m => rfl
  · intro vs hall
    rw [horder vs hall, hmatch]

end Context

end VariantSelector
