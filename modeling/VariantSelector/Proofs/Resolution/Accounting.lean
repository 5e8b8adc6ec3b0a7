import Mathlib.Algebra.Ring.Nat
import VariantSelector.Proofs.Resolution.Run

/-!
Every byte of a token is accounted for. A match takes the first bytes of the text its variant saw
and leaves the rest, so the pieces that were taken and the body make up the token, up to what the
transform rules restored in between (`Context.resolve_accounts`).
-/

namespace VariantSelector

/-- The matches lead from one text to another: each takes the first bytes, of which there are some,
of the text that its variant sees, leaves what is behind them, and what it leaves is shorter than
what it was given. -/
inductive Accounts (rules : TransformRules) : Text → List Match → Text → Prop
  | done {body : Text} : Accounts rules body [] body
  | step {before : Text} {m : Match} {ms : List Match} {body : Text} (positive : 0 < m.consumed)
      (cut : (m.variant.source rules before).cut? m.consumed = some (m.taken, m.residual))
      (shorter : m.residual.byteSize < before.byteSize) (rest : Accounts rules m.residual ms body) :
      Accounts rules before (m :: ms) body

namespace Accounts

variable {rules : TransformRules} {before body : Text} {ms : List Match}

theorem length_le (h : Accounts rules before ms body) :
    ms.length + body.byteSize ≤ before.byteSize := by
  induction h with
  | done => simp
  | step _ _ hshorter _ ih =>
    rw [List.length_cons]
    omega

/-- Without rules nothing is restored, so the pieces and the body are the text. -/
theorem flatMap_taken (h : Accounts [] before ms body) :
    ms.flatMap Match.taken ++ body = before := by
  induction h with
  | done => rfl
  | step _ hcut _ _ ih =>
    rw [Variant.source_eq rfl] at hcut
    rw [List.flatMap_cons, List.append_assoc, ih, (Text.cut?_eq_some_iff.1 hcut).1]

theorem sum_consumed (h : Accounts [] before ms body) :
    (ms.map Match.consumed).sum + body.byteSize = before.byteSize := by
  induction h with
  | done => simp
  | step _ hcut _ _ ih =>
    rw [Variant.source_eq rfl] at hcut
    obtain ⟨hbefore, hconsumed⟩ := Text.cut?_eq_some_iff.1 hcut
    rw [hbefore, Text.byteSize_append, hconsumed, List.map_cons, List.sum_cons]
    omega

end Accounts

namespace Context

variable {ctx : Context} {body : Text} {m : Match}

/-- What a match takes and leaves is the text that its variant saw. -/
theorem cut?_of_match? (h : ctx.match? body = some m) :
    (m.variant.source ctx.rules body).cut? m.consumed = some (m.taken, m.residual) := by
  obtain ⟨v, -, hv⟩ := List.exists_of_findSome?_eq_some h
  obtain ⟨f, b, rest, rfl, hbegins, rfl, -⟩ := Variant.isReading_of_match? hv
  exact Text.cut?_eq_some_iff.2 ⟨(Form.taken_append_rest ctx.style hbegins).symm, rfl⟩

theorem consumed_ne_zero_of_match? (h : ctx.match? body = some m) : m.consumed ≠ 0 := by
  obtain ⟨v, -, hv⟩ := List.exists_of_findSome?_eq_some h
  obtain ⟨f, b, rest, -, -, rfl, -⟩ := Variant.isReading_of_match? hv
  exact Nat.ne_of_gt (Text.byteSize_pos (by simp [Form.reading]))

/-- A match is a pass where its variant sees the body as it is. -/
theorem pass_of_match? (h : ctx.match? body = some m)
    (hsource : m.variant.source ctx.rules body = body) : ctx.Pass body m := by
  have hconsumed := consumed_ne_zero_of_match? h
  have hcut := cut?_of_match? h
  rw [hsource] at hcut
  obtain ⟨hbody, hsize⟩ := Text.cut?_eq_some_iff.1 hcut
  refine ⟨h, hconsumed, ?_⟩
  rw [hbody, Text.byteSize_append]
  omega

theorem Run.accounts {ms : List Match} {rest : Text} (h : ctx.Run body ms rest) :
    Accounts ctx.rules body ms rest := by
  induction h with
  | stop => exact .done
  | pass hpass _ ih =>
    exact .step (Nat.pos_of_ne_zero hpass.consumes) (cut?_of_match? hpass.matched) hpass.shortens ih

/-- Resolution accounts for every byte and ends: the recorded matches lead from the token to the
body, byte by byte; there are no more of them than bytes, and no rules allow endless passes. Without
rules, the pieces that were taken and the body make up the token. -/
theorem resolve_accounts (ctx : Context) (token : Text) :
    let r := ctx.resolve token
    let plain := ({ ctx with rules := [] } : Context).resolve token
    Accounts ctx.rules token r.variants r.body ∧
    r.variants.length ≤ token.byteSize ∧
    (WellFounded fun next body => ∃ m, ctx.Pass body m ∧ m.residual = next) ∧
    plain.variants.flatMap Match.taken ++ plain.body = token ∧
    (plain.variants.map Match.consumed).sum + plain.body.byteSize = token.byteSize := by
  intro r plain
  have haccounts : Accounts ctx.rules token r.variants r.body := (ctx.strip_run token).accounts
  have hplain : Accounts [] token plain.variants plain.body :=
    (({ ctx with rules := [] } : Context).strip_run token).accounts
  refine ⟨haccounts, ?_, ctx.wellFounded_pass, hplain.flatMap_taken, hplain.sum_consumed⟩
  have := haccounts.length_le
  omega

end Context

end VariantSelector
