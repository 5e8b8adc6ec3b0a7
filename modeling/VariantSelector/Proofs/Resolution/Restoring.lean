import Mathlib.Data.List.Infix
import VariantSelector.Proofs.Resolution.Accounting

/-!
Transform rules act like decoding first, and only where there is something to decode. A text in
which no encoded text occurs is left alone, and so is all that passes leave of it; after a first
pass that read the restored token, an encoded token is therefore resolved like its restored form
(`Context.resolve_restored`).
-/

namespace VariantSelector

/-! ### Texts without an encoded text -/

theorem Text.replaceFrom_of_not_isInfix {old new s : Text} (h : ¬ old <:+: s) :
    replaceFrom old new 0 s = s := by
  induction s with
  | nil => rfl
  | cons c s ih =>
    have hhead : old.isPrefixOf (c :: s) = false := by
      rw [Bool.eq_false_iff, ne_eq, List.isPrefixOf_iff_prefix]
      exact fun hp => h hp.isInfix
    have htail : ¬ old <:+: s := fun ht => h (ht.trans (List.suffix_cons c s).isInfix)
    rw [replaceFrom, hhead, ih htail]
    rfl

theorem Text.replaceAll_of_not_isInfix {old new s : Text} (h : old ≠ [] → ¬ old <:+: s) :
    replaceAll old new s = s := by
  cases old with
  | nil => rfl
  | cons c old => exact replaceFrom_of_not_isInfix (h (List.cons_ne_nil c old))

namespace TransformRules

/-- No encoded text occurs in `s`, the empty one aside. -/
def NothingToDecode (rules : TransformRules) (s : Text) : Prop :=
  ∀ rule ∈ rules, rule.2 ≠ [] → ¬ rule.2 <:+: s

theorem NothingToDecode.restore_eq {rules : TransformRules} {s : Text}
    (h : rules.NothingToDecode s) : rules.restore s = s := by
  induction rules with
  | nil => rfl
  | cons rule rules ih =>
    have hrule : Text.replaceAll rule.2 rule.1 s = s :=
      Text.replaceAll_of_not_isInfix (h rule List.mem_cons_self)
    rw [restore, List.foldl_cons, hrule]
    exact ih fun r hr => h r (List.mem_cons_of_mem rule hr)

theorem NothingToDecode.of_suffix {rules : TransformRules} {s t : Text}
    (h : rules.NothingToDecode s) (hsuffix : t <:+ s) : rules.NothingToDecode t := by
  intro rule hrule hne hinside
  exact h rule hrule hne (hinside.trans hsuffix.isInfix)

end TransformRules

/-! ### Matches -/

/-- The rules matter to a variant only through the text it sees. -/
theorem Variant.match?_eq_match?_source (v : Variant) (ctx : Context) (token : Text) :
    v.match? ctx token = v.match? { ctx with rules := [] } (v.source ctx.rules token) := by
  cases v <;> rfl

namespace Context

variable {ctx : Context} {token body : Text} {m : Match}

theorem match?_of_restore_eq (h : ctx.rules.restore token = token) :
    ctx.match? token = ({ ctx with rules := [] } : Context).match? token := by
  unfold match?
  congr 1
  funext v
  rw [v.match?_eq_match?_source, Variant.source_eq h]

/-- The variants that see restored text come first, so where one of them reads the restored token
no other is asked. -/
theorem match?_eq_match?_restore
    (h : (Variant.plain.match? { ctx with rules := [] } (ctx.rules.restore token)).isSome = true ∨
      (Variant.functional.match? { ctx with rules := [] } (ctx.rules.restore token)).isSome
        = true) :
    ctx.match? token = ({ ctx with rules := [] } : Context).match? (ctx.rules.restore token) := by
  simp only [match?, Variant.all, List.findSome?_cons]
  rw [Variant.plain.match?_eq_match?_source ctx, Variant.functional.match?_eq_match?_source ctx]
  simp only [Variant.source]
  cases hplain : Variant.plain.match? { ctx with rules := [] } (ctx.rules.restore token) with
  | some m => rfl
  | none =>
    rw [hplain] at h
    obtain ⟨m, hm⟩ := Option.isSome_iff_exists.1 (h.resolve_left Bool.false_ne_true)
    rw [hm]

theorem residual_suffix_of_match? (hrestore : ctx.rules.restore body = body)
    (h : ctx.match? body = some m) : m.residual <:+ body := by
  have hcut := cut?_of_match? h
  rw [Variant.source_eq hrestore] at hcut
  exact ⟨m.taken, (Text.cut?_eq_some_iff.1 hcut).1.symm⟩

/-! ### Runs -/

theorem pass_iff_of_restore_eq (h : ctx.rules.restore body = body) :
    ctx.Pass body m ↔ ({ ctx with rules := [] } : Context).Pass body m := by
  constructor
  · rintro ⟨hm, hconsumes, hshortens⟩
    exact ⟨match?_of_restore_eq h ▸ hm, hconsumes, hshortens⟩
  · rintro ⟨hm, hconsumes, hshortens⟩
    exact ⟨(match?_of_restore_eq h).trans hm, hconsumes, hshortens⟩

/-- Where there is nothing to decode in a body there is nothing in what a pass leaves of it either,
so the whole run is that without rules. -/
theorem Run.strip_eq {ms : List Match} {rest : Text} (h : ctx.Run body ms rest)
    (hnothing : ctx.rules.NothingToDecode body) :
    ({ ctx with rules := [] } : Context).strip body = (ms, rest) := by
  induction h with
  | stop hstop =>
    apply strip_of_not_pass
    intro m hm
    exact hstop m ((pass_iff_of_restore_eq hnothing.restore_eq).2 hm)
  | pass hpass _ ih =>
    have hresidual := residual_suffix_of_match? hnothing.restore_eq hpass.matched
    rw [strip_of_pass ((pass_iff_of_restore_eq hnothing.restore_eq).1 hpass),
      ih (hnothing.of_suffix hresidual)]

theorem strip_of_nothingToDecode (h : ctx.rules.NothingToDecode body) :
    ctx.strip body = ({ ctx with rules := [] } : Context).strip body :=
  ((ctx.strip_run body).strip_eq h).symm

/-- The first pass over an encoded token is the one over its restored form, and behind it there is
nothing to decode. -/
theorem strip_eq_strip_restore
    (hnothing : ctx.rules.NothingToDecode (ctx.rules.restore token))
    (hsize : (ctx.rules.restore token).byteSize ≤ token.byteSize)
    (h : (Variant.plain.match? { ctx with rules := [] } (ctx.rules.restore token)).isSome = true ∨
      (Variant.functional.match? { ctx with rules := [] } (ctx.rules.restore token)).isSome
        = true) :
    ctx.strip token = ({ ctx with rules := [] } : Context).strip (ctx.rules.restore token) := by
  have hfirst := match?_eq_match?_restore h
  have hrestore := hnothing.restore_eq
  cases hm : ({ ctx with rules := [] } : Context).match? (ctx.rules.restore token) with
  | none =>
    -- the set reads what one of its variants reads
    rw [match?, List.findSome?_eq_none_iff] at hm
    simp [hm _ (Variant.mem_all _)] at h
  | some m =>
    rw [hm] at hfirst
    have hplain : ({ ctx with rules := [] } : Context).Pass (ctx.rules.restore token) m :=
      pass_of_match? hm (Variant.source_eq rfl m.variant)
    have hpass : ctx.Pass token m :=
      ⟨hfirst, hplain.consumes, Nat.lt_of_lt_of_le hplain.shortens hsize⟩
    have hresidual : m.residual <:+ ctx.rules.restore token :=
      residual_suffix_of_match? hrestore ((match?_of_restore_eq hrestore).trans hm)
    rw [strip_of_pass hpass, strip_of_pass hplain,
      strip_of_nothingToDecode (hnothing.of_suffix hresidual)]

end Context

/-! ### Rules -/

/-- The rule with `subject` in front of its own subject. -/
def Rule.on (r : Rule) (subject : Text) : Rule := { r with selector := subject ++ r.selector }

theorem Match.apply_on (m : Match) (r : Rule) (subject : Text) :
    m.apply (r.on subject) = (m.apply r).on subject := by
  unfold apply Rule.on
  cases m.change <;> simp

theorem Rule.foldl_apply_on (ms : List Match) (r : Rule) (subject : Text) :
    ms.foldl (fun rule m => m.apply rule) (r.on subject)
      = (ms.foldl (fun rule m => m.apply rule) r).on subject := by
  induction ms generalizing r with
  | nil => rfl
  | cons m ms ih => rw [List.foldl_cons, m.apply_on, ih, List.foldl_cons]

/-- What matches make of a rule without a subject. -/
def Rule.ofMatches (ms : List Match) : Rule :=
  ms.foldl (fun rule m => m.apply rule) { selector := [] }

theorem Context.rule_resolve (ctx : Context) (token : Text) :
    (ctx.resolve token).rule
      = (Rule.ofMatches (ctx.strip token).1).on (Css.classSelector token) := by
  rw [Rule.ofMatches, ← Rule.foldl_apply_on, Rule.on, List.append_nil]
  rfl

namespace Context

/-- Transform rules act like decoding first, and only where there is something to decode. A token
in which no encoded text occurs is resolved as it is without rules. If none occurs in the restored
token, which is no longer than the token and begins with a key, bare or in a wrapper, then the
token gives the matches and the body of the restored token, and their rules differ in nothing but
the class of the subject. -/
theorem resolve_restored (ctx : Context) (token : Text) :
    let unruled : Context := { ctx with rules := [] }
    let restored := ctx.rules.restore token
    (ctx.rules.NothingToDecode token → ctx.resolve token = unruled.resolve token) ∧
    (ctx.rules.NothingToDecode restored → restored.byteSize ≤ token.byteSize →
      (Variant.plain.match? unruled restored).isSome = true ∨
        (Variant.functional.match? unruled restored).isSome = true →
      (ctx.resolve token).variants = (unruled.resolve restored).variants ∧
      (ctx.resolve token).body = (unruled.resolve restored).body ∧
      ∃ change : Rule,
        (ctx.resolve token).rule = change.on (Css.classSelector token) ∧
        (unruled.resolve restored).rule = change.on (Css.classSelector restored)) := by
  intro unruled restored
  constructor
  · intro hnothing
    rw [resolve, resolve, strip_of_nothingToDecode hnothing]
  · intro hnothing hsize hfirst
    have hstrip : ctx.strip token = unruled.strip restored :=
      strip_eq_strip_restore hnothing hsize hfirst
    refine ⟨congrArg Prod.fst hstrip, congrArg Prod.snd hstrip,
      Rule.ofMatches (ctx.strip token).1, ctx.rule_resolve token, ?_⟩
    rw [hstrip]
    exact unruled.rule_resolve restored

/-- Two rules, of which one encodes the separator of variants: nothing is left to decode in the
restored token, which begins with a wrapped key; and a token without an encoded text. -/
theorem resolve_restored_separator :
    let ctx : Context := { rules := [([':'], "-c-".toList), (['['], "-fl-".toList)] }
    let token : Text := "not-hover-c-focus-c-p-2".toList
    let restored : Text := "not-hover:focus:p-2".toList
    ctx.rules.restore token = restored ∧ ctx.rules.NothingToDecode restored ∧
      restored.byteSize ≤ token.byteSize ∧
      (Variant.functional.match? {} restored).isSome = true ∧
      (ctx.resolve token).variants = (({} : Context).resolve restored).variants ∧
      (ctx.resolve token).body = (({} : Context).resolve restored).body ∧
      ctx.resolve restored = ({} : Context).resolve restored := by
  intro ctx token restored
  have hrestore : ctx.rules.restore token = restored := by decide
  have hnothing : ctx.rules.NothingToDecode restored := by
    unfold TransformRules.NothingToDecode
    decide
  have hfunctional : (Variant.functional.match? {} restored).isSome = true := by decide
  have hsize : restored.byteSize ≤ token.byteSize := by decide
  have h := (resolve_restored ctx token).2
  rw [hrestore] at h
  obtain ⟨hvariants, hbody, -⟩ := h hnothing hsize (.inr hfunctional)
  exact ⟨hrestore, hnothing, hsize, hfunctional, hvariants, hbody,
    (resolve_restored ctx restored).1 hnothing⟩

end Context

end VariantSelector
