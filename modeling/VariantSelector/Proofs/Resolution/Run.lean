import VariantSelector.Proofs.Variant.Reading

/-!
Runs of the resolver. A pass reads a match off the body and leaves a shorter one; a run is a
sequence of passes up to a body without a further pass. Stripping a body is its one run
(`Context.strip_run`), and no body has an endless one (`Context.wellFounded_pass`).
-/

namespace VariantSelector.Context

variable {ctx : Context} {body : Text} {m : Match}

/-- A pass over `body` that records `m` and leaves its residual. -/
structure Pass (ctx : Context) (body : Text) (m : Match) : Prop where
  matched : ctx.match? body = some m
  consumes : m.consumed ≠ 0
  shortens : m.residual.byteSize < body.byteSize

/-- The passes over a body, and the body behind the last of them. -/
inductive Run (ctx : Context) : Text → List Match → Text → Prop
  | stop {body : Text} (h : ∀ m, ¬ ctx.Pass body m) : Run ctx body [] body
  | pass {body : Text} {m : Match} {ms : List Match} {rest : Text} (h : ctx.Pass body m)
      (run : Run ctx m.residual ms rest) : Run ctx body (m :: ms) rest

theorem strip_of_pass (h : ctx.Pass body m) :
    ctx.strip body = (m :: (ctx.strip m.residual).1, (ctx.strip m.residual).2) := by
  have hbody : body.isEmpty = false := by
    have hsize := h.shortens
    cases body with
    | nil => simp at hsize
    | cons c s => rfl
  rw [strip_eq, hbody, h.matched]
  simp [h.consumes, h.shortens]

theorem strip_of_not_pass (h : ∀ m, ¬ ctx.Pass body m) : ctx.strip body = ([], body) := by
  rw [strip_eq]
  split
  · rfl
  · cases hm : ctx.match? body with
    | none => rfl
    | some found =>
      refine if_neg ?_
      rintro ⟨hconsumes, hshortens⟩
      exact h found ⟨hm, hconsumes, hshortens⟩

/-- Passes are the steps of a terminating relation, since each leaves a shorter body. -/
theorem wellFounded_pass (ctx : Context) :
    WellFounded fun next body => ∃ m, ctx.Pass body m ∧ m.residual = next := by
  refine Subrelation.wf ?_ (measure Text.byteSize).wf
  rintro next body ⟨m, h, rfl⟩
  exact h.shortens

theorem strip_run (ctx : Context) (body : Text) :
    ctx.Run body (ctx.strip body).1 (ctx.strip body).2 := by
  -- a residual is no part of the body where rules restored it, so the induction is along passes
  induction body using (wellFounded_pass ctx).induction with
  | h body ih =>
    by_cases hpass : ∃ m, ctx.Pass body m
    · obtain ⟨m, hm⟩ := hpass
      rw [strip_of_pass hm]
      exact .pass hm (ih m.residual ⟨m, hm, rfl⟩)
    · rw [not_exists] at hpass
      rw [strip_of_not_pass hpass]
      exact .stop hpass

/-- What a run records has been read off some body. -/
theorem Run.exists_match? {rest : Text} {ms : List Match} (h : ctx.Run body ms rest) :
    ∀ m ∈ ms, ∃ body', ctx.match? body' = some m := by
  induction h with
  | stop => simp
  | pass hpass _ ih => exact List.forall_mem_cons.2 ⟨⟨_, hpass.matched⟩, ih⟩

end VariantSelector.Context
