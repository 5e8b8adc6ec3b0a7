import VariantSelector.Notice
import VariantSelector.Variant.Resolution

/-!
Matching and resolving with a notice log. Labels are experimental: reading a relation that has one
puts a notice on record at the moment of the match. Apart from the log, a match gives the answers of
`Variant.match?` and `Context.match?`, whatever is on record already (`Variant.run_noticedMatch?`,
`Context.run_noticedMatch?`).
-/

namespace VariantSelector

/-- The log behind the reading of a variant, which is noted if it is labeled. -/
def NoticeLog.note (log : NoticeLog) (found : Option Match) : NoticeLog :=
  if found.any Match.isLabeled then log.record .labeled else log

/-- Reads one variant. -/
def Variant.noticedMatch? (v : Variant) (ctx : Context) (token : Text) :
    StateM NoticeLog (Option Match) := do
  let found := v.match? ctx token
  modify (·.note found)
  return found

namespace Context

/-- Reads the first variant there is. -/
def noticedMatch? (ctx : Context) (token : Text) : StateM NoticeLog (Option Match) :=
  Variant.all.findSomeM? (·.noticedMatch? ctx token)

/-- Resolves a token. -/
def noticedResolve (ctx : Context) (token : Text) : StateM NoticeLog Resolution := do
  let (variants, body) ← stripVariants ctx.noticedMatch? token
  return .ofMatches token variants body

end Context

/-! ### Answers do not depend on the log -/

theorem Variant.run_noticedMatch? (v : Variant) (ctx : Context) (token : Text) (log : NoticeLog) :
    (v.noticedMatch? ctx token).run log = (v.match? ctx token, log.note (v.match? ctx token)) := rfl

namespace Context

/-- Variants that are not read leave nothing on record, so only the first that is read counts. -/
theorem run_noticedMatch? (ctx : Context) (token : Text) (log : NoticeLog) :
    (ctx.noticedMatch? token).run log = (ctx.match? token, log.note (ctx.match? token)) := by
  unfold noticedMatch? match?
  induction Variant.all with
  | nil => rfl
  | cons v vs ih =>
    simp only [List.findSomeM?, List.findSome?, StateT.run_bind, Variant.run_noticedMatch?]
    cases v.match? ctx token with
    | none => exact ih
    | some m => rfl

end Context

end VariantSelector
