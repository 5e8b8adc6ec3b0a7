import VariantSelector.Proofs.Resolution.Accounting

/-!
When resolving stops. A match takes something off the text its variant sees, so it is dropped only
where restoring has made that text longer than the body. Rules whose plain texts are no longer than
their encoded ones never do that (`TransformRules.byteSize_restore_le`), and relations and parts see
the body as it is. So a body behind a run either begins with no variant, or with a key that a
lengthening rule has put there (`Context.resolve_exhausted`).
-/

namespace VariantSelector

/-! ### Rules that do not lengthen a text -/

/-- The characters that are pending were counted with the occurrence they belong to. -/
theorem Text.byteSize_replaceFrom_le {old new : Text} (hold : old ≠ [])
    (h : new.byteSize ≤ old.byteSize) (pending : Nat) (s : Text) :
    (replaceFrom old new pending s).byteSize + byteSize (s.take pending) ≤ s.byteSize := by
  fun_induction replaceFrom old new pending s with
  | case1 pending => simp
  | case2 pending c s ih =>
    rw [List.take_succ_cons, byteSize_cons, byteSize_cons]
    omega
  | case3 c s hprefix ih =>
    -- the occurrence is the character in front and what is pending behind it
    obtain ⟨t, ht⟩ := List.isPrefixOf_iff_prefix.1 hprefix
    cases old with
    | nil => exact absurd rfl hold
    | cons d old =>
      rw [List.cons_append] at ht
      obtain ⟨rfl, rfl⟩ := List.cons.inj ht
      have hpending : (old ++ t).take ((d :: old).length - 1) = old := by simp
      rw [hpending] at ih
      simp only [List.take_zero, byteSize_nil, byteSize_append, byteSize_cons] at h ih ⊢
      omega
  | case4 c s hprefix ih =>
    simp only [List.take_zero, byteSize_nil, byteSize_cons] at ih ⊢
    omega

theorem Text.byteSize_replaceAll_le {old new : Text} (h : old ≠ [] → new.byteSize ≤ old.byteSize)
    (s : Text) : (replaceAll old new s).byteSize ≤ s.byteSize := by
  cases old with
  | nil => exact Nat.le_refl _
  | cons c old =>
    have hne : c :: old ≠ [] := List.cons_ne_nil c old
    exact byteSize_replaceFrom_le hne (h hne) 0 s

namespace TransformRules

/-- A rule that writes more bytes than it replaces. A rule without encoded text writes nothing. -/
def Lengthens (rule : Text × Text) : Prop := rule.2 ≠ [] ∧ rule.2.byteSize < rule.1.byteSize

theorem byteSize_restore_le {rules : TransformRules} (h : ∀ rule ∈ rules, ¬ Lengthens rule)
    (s : Text) : (rules.restore s).byteSize ≤ s.byteSize := by
  induction rules generalizing s with
  | nil => exact Nat.le_refl _
  | cons rule rules ih =>
    rw [List.forall_mem_cons] at h
    have hrule : rule.2 ≠ [] → rule.1.byteSize ≤ rule.2.byteSize := fun hne =>
      Nat.le_of_not_lt fun hlt => h.1 ⟨hne, hlt⟩
    calc (restore (rule :: rules) s).byteSize
        = (restore rules (Text.replaceAll rule.2 rule.1 s)).byteSize := rfl
      _ ≤ (Text.replaceAll rule.2 rule.1 s).byteSize := ih h.2 _
      _ ≤ s.byteSize := Text.byteSize_replaceAll_le hrule s

theorem exists_lengthens {rules : TransformRules} {s : Text}
    (h : s.byteSize < (rules.restore s).byteSize) : ∃ rule ∈ rules, Lengthens rule := by
  by_contra hnone
  simp only [not_exists, not_and] at hnone
  exact absurd (byteSize_restore_le hnone s) (Nat.not_le_of_lt h)

end TransformRules

open TransformRules (Lengthens)

namespace Context

variable {ctx : Context} {body : Text} {m : Match}

/-! ### Matches that are dropped -/

/-- The variant of a match sees the body as it is unless it is read behind the rules. -/
theorem source_eq_or (ctx : Context) (v : Variant) (body : Text) :
    (v = .plain ∨ v = .functional) ∨ v.source ctx.rules body = body := by
  cases v with
  | plain => exact .inl (.inl rfl)
  | functional => exact .inl (.inr rfl)
  | relation r => exact .inr rfl
  | part => exact .inr rfl

/-- What a match that is dropped leaves is no shorter than the body, since a rule has made the text
longer that its variant saw. -/
theorem lengthened_of_not_pass (h : ctx.match? body = some m) (hpass : ¬ ctx.Pass body m) :
    (m.variant = .plain ∨ m.variant = .functional) ∧ body.byteSize ≤ m.residual.byteSize ∧
      ∃ rule ∈ ctx.rules, Lengthens rule := by
  have hconsumes := consumed_ne_zero_of_match? h
  have hlong : body.byteSize ≤ m.residual.byteSize :=
    Nat.le_of_not_lt fun hlt => hpass ⟨h, hconsumes, hlt⟩
  rcases source_eq_or ctx m.variant body with hkeyed | hsource
  · refine ⟨hkeyed, hlong, TransformRules.exists_lengthens (s := body) ?_⟩
    have hrestored : m.variant.source ctx.rules body = ctx.rules.restore body := by
      rcases hkeyed with hplain | hfunctional
      · rw [hplain]
        rfl
      · rw [hfunctional]
        rfl
    have hcut := cut?_of_match? h
    rw [hrestored] at hcut
    obtain ⟨hbody, hsize⟩ := Text.cut?_eq_some_iff.1 hcut
    rw [hbody, Text.byteSize_append]
    omega
  · exact absurd (pass_of_match? h hsource) hpass

/-! ### The end of a run -/

theorem Run.not_pass {ms : List Match} {rest : Text} (h : ctx.Run body ms rest) :
    ∀ m, ¬ ctx.Pass rest m := by
  induction h with
  | stop hstop => exact hstop
  | pass _ _ ih => exact ih

theorem match?_eq_none_iff : ctx.match? body = none ↔ ∀ v : Variant, v.match? ctx body = none := by
  rw [match?, List.findSome?_eq_none_iff]
  exact ⟨fun h v => h v v.mem_all, fun h v _ => h v⟩

/-- Nothing that can be read is left in front of the body, but for a key that is there only because
a rule lengthens the text it stands in; a relation or a part never is. The body resolves to itself,
without a match. Where no rule lengthens a text, no variant at all can be read there. -/
theorem resolve_exhausted (ctx : Context) (token : Text) :
    let r := ctx.resolve token
    ((∀ v : Variant, v.match? ctx r.body = none) ∨
      ∃ m, ctx.match? r.body = some m ∧ (m.variant = .plain ∨ m.variant = .functional) ∧
        r.body.byteSize ≤ m.residual.byteSize ∧ ∃ rule ∈ ctx.rules, Lengthens rule) ∧
    (∀ m, ctx.match? r.body = some m → m.variant ≠ .part ∧ ∀ q, m.variant ≠ .relation q) ∧
    ((ctx.resolve r.body).variants = [] ∧ (ctx.resolve r.body).body = r.body) ∧
    ((∀ rule ∈ ctx.rules, ¬ Lengthens rule) → ∀ v : Variant, v.match? ctx r.body = none) := by
  intro r
  have hstop : ∀ m, ¬ ctx.Pass r.body m := (ctx.strip_run token).not_pass
  have hfront := fun m (hm : ctx.match? r.body = some m) => lengthened_of_not_pass hm (hstop m)
  refine ⟨?_, ?_, ?_, ?_⟩
  · cases hm : ctx.match? r.body with
    | none => exact .inl (match?_eq_none_iff.1 hm)
    | some m => exact .inr ⟨m, rfl, hfront m hm⟩
  · intro m hm
    rcases (hfront m hm).1 with hplain | hfunctional
    · simp [hplain]
    · simp [hfunctional]
  · have hstrip : ctx.strip r.body = ([], r.body) := strip_of_not_pass hstop
    show (ctx.strip r.body).1 = [] ∧ (ctx.strip r.body).2 = r.body
    rw [hstrip]
    exact ⟨rfl, rfl⟩
  · intro hnone
    rw [← match?_eq_none_iff, Option.eq_none_iff_forall_ne_some]
    intro m hm
    obtain ⟨-, -, rule, hrule, hlengthens⟩ := hfront m hm
    exact hnone rule hrule hlengthens

/-- Behind a relation, the rule that lengthens a text has put a key in front of the body; with a
rule that does not, everything is read that can be. -/
theorem resolve_exhausted_lengthening :
    let long : Context := { rules := [("hover:wide".toList, ['h'])] }
    let short : Context := { rules := [([':'], "-c-".toList)] }
    ((long.resolve "group-[.a]/b:h".toList).body = ['h'] ∧
      (∃ m, long.match? ['h'] = some m ∧ (m.variant = .plain ∨ m.variant = .functional)) ∧
      (long.resolve ['h']).variants = []) ∧
    (short.resolve "hover-c-before-c-p-c-2".toList).body = "p:2".toList ∧
    (∀ rule ∈ short.rules, ¬ Lengthens rule) ∧
    ∀ v : Variant, v.match? short "p:2".toList = none := by
  intro long short
  have hlong : (long.resolve "group-[.a]/b:h".toList).body = ['h'] := by decide +kernel
  have hshort : (short.resolve "hover-c-before-c-p-c-2".toList).body = "p:2".toList := by
    decide +kernel
  have hrules : ∀ rule ∈ short.rules, ¬ Lengthens rule := by
    unfold Lengthens
    decide
  obtain ⟨hfront, -, ⟨hagain, -⟩, -⟩ := resolve_exhausted long "group-[.a]/b:h".toList
  obtain ⟨-, -, -, hnone⟩ := resolve_exhausted short "hover-c-before-c-p-c-2".toList
  rw [hlong] at hfront hagain
  rw [hshort] at hnone
  refine ⟨⟨hlong, ?_, hagain⟩, hshort, hrules, hnone hrules⟩
  rcases hfront with hread | ⟨m, hm, hvariant, -⟩
  · exact absurd (hread .plain) (by decide)
  · exact ⟨m, hm, hvariant⟩

end Context

end VariantSelector
