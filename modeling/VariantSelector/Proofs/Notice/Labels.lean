import VariantSelector.Proofs.Resolution.Accounting
import VariantSelector.Variant.Noticed

/-!
Which readings put the notice on labels on record. An action that reads variants gives an answer
that does not depend on the log, and either leaves the log alone or records that one notice
(`NoticeLog.Notes`); actions that do so can be put behind one another. A match with a label is one
of a relation, which reads the body as it is, so the resolver never drops it (`pass_of_isLabeled`),
and the notice is on record behind any calls iff a match that they returned has a label
(`ReadingCall.labeled_on_record`).
-/

namespace VariantSelector

namespace NoticeLog

theorem record_record (log : NoticeLog) (n : Notice) : (log.record n).record n = log.record n := by
  have hcontains : (log.record n).contains n = true := by rw [contains_record]; simp
  rw [record, if_pos hcontains]

/-- Whatever is on record, the action gives `answer`, and it records the notice on labels if
`labeled` and nothing else. -/
def Notes {α : Type} (action : StateM NoticeLog α) (answer : α) (labeled : Bool) : Prop :=
  ∀ log : NoticeLog, action.run log = (answer, if labeled then log.record .labeled else log)

namespace Notes

variable {α β : Type} {action : StateM NoticeLog α} {a : α} {labeled : Bool}

theorem pure (a : α) : Notes (Pure.pure a) a false := fun _ => rfl

theorem bind (h : Notes action a labeled) {next : α → StateM NoticeLog β} {b : β} {later : Bool}
    (hnext : Notes (next a) b later) : Notes (action >>= next) b (labeled || later) := by
  intro log
  rw [StateT.run_bind, h log]
  show (next a).run (if labeled then log.record .labeled else log) = _
  rw [hnext]
  -- a notice that is recorded twice is recorded once
  cases labeled <;> cases later <;> simp [record_record]

theorem map (h : Notes action a labeled) (f : α → β) :
    Notes (action >>= fun a => Pure.pure (f a)) (f a) labeled := by
  rw [← Bool.or_false labeled]
  exact h.bind (pure (f a))

theorem mapM {γ : Type} {run : γ → StateM NoticeLog α} {answer : γ → α} {labels : γ → Bool}
    (h : ∀ c, Notes (run c) (answer c) (labels c)) (cs : List γ) :
    Notes (cs.mapM run) (cs.map answer) (cs.any labels) := by
  induction cs with
  | nil => exact pure []
  | cons c cs ih =>
    rw [List.mapM_cons, List.map_cons, List.any_cons]
    exact (h c).bind (ih.map _)

end Notes

end NoticeLog

open NoticeLog (Notes)

/-! ### Readings -/

theorem Variant.notes_noticedMatch? (v : Variant) (ctx : Context) (token : Text) :
    Notes (v.noticedMatch? ctx token) (v.match? ctx token)
      ((v.match? ctx token).any Match.isLabeled) := by
  intro log
  rw [v.run_noticedMatch?, NoticeLog.note]

namespace Context

variable {ctx : Context} {body : Text} {m : Match}

theorem notes_noticedMatch? (ctx : Context) (body : Text) :
    Notes (ctx.noticedMatch? body) (ctx.match? body) ((ctx.match? body).any Match.isLabeled) := by
  intro log
  rw [ctx.run_noticedMatch?, NoticeLog.note]

/-- A match with a label is one of a relation, so it was read from the body as it is. -/
theorem pass_of_isLabeled (h : ctx.match? body = some m) (hlabel : m.isLabeled = true) :
    ctx.Pass body m := by
  refine pass_of_match? h ?_
  obtain ⟨v, -, hv⟩ := List.exists_of_findSome?_eq_some h
  obtain ⟨f, b, rest, rfl, -, rfl, -⟩ := Variant.isReading_of_match? hv
  cases f with
  | keyword | bracketed => rfl
  | bare | wrapped | part => cases hlabel

/-- What the resolver drops has no label. -/
theorem isLabeled_of_not_pass (h : ctx.match? body = some m) (hpass : ¬ ctx.Pass body m) :
    m.isLabeled = false := by
  rw [Bool.eq_false_iff]
  exact fun hlabel => hpass (pass_of_isLabeled h hlabel)

theorem notes_stripVariants (ctx : Context) (body : Text) :
    Notes (stripVariants ctx.noticedMatch? body) (ctx.strip body)
      ((ctx.strip body).1.any Match.isLabeled) := by
  -- along the passes; a match that ends the run must not have been noted
  induction body using (wellFounded_pass ctx).induction with
  | h body ih =>
    have hfirst := ctx.notes_noticedMatch? body
    rw [stripVariants, strip_eq]
    cases hbody : body.isEmpty with
    | true => exact .pure _
    | false =>
      cases hm : ctx.match? body with
      | none =>
        rw [hm] at hfirst
        exact hfirst.bind (.pure _)
      | some m =>
        rw [hm] at hfirst
        simp only [Bool.false_eq_true, ↓reduceIte]
        by_cases hpass : m.consumed ≠ 0 ∧ m.residual.byteSize < body.byteSize
        · rw [if_pos hpass]
          refine hfirst.bind ?_
          simp only [dif_pos hpass]
          exact (ih m.residual ⟨m, ⟨hm, hpass.1, hpass.2⟩, rfl⟩).map _
        · rw [if_neg hpass]
          have hdropped := isLabeled_of_not_pass hm fun h => hpass ⟨h.consumes, h.shortens⟩
          rw [Option.any_some, hdropped] at hfirst
          refine hfirst.bind (?_ : Notes _ _ false)
          simp only [dif_neg hpass]
          exact .pure _

theorem notes_noticedResolve (ctx : Context) (token : Text) :
    Notes (ctx.noticedResolve token) (ctx.resolve token)
      ((ctx.resolve token).variants.any Match.isLabeled) :=
  (ctx.notes_stripVariants token).map _

end Context

/-! ### Calls -/

/-- A call that reads a token: for one variant, for the first of the set that can be read, or for
all in turn. -/
inductive ReadingCall
  | variant (v : Variant) (ctx : Context) (token : Text)
  | first (ctx : Context) (token : Text)
  | resolve (ctx : Context) (token : Text)
  deriving DecidableEq, Repr

/-- What such a call returns. -/
inductive ReadingAnswer
  | found (m : Option Match)
  | resolved (r : Resolution)
  deriving DecidableEq, Repr

/-- The matches that are returned, or recorded in the resolution that is. -/
def ReadingAnswer.variants : ReadingAnswer → List Match
  | .found m => m.toList
  | .resolved r => r.variants

namespace ReadingCall

def run : ReadingCall → StateM NoticeLog ReadingAnswer
  | .variant v ctx token => do return .found (← v.noticedMatch? ctx token)
  | .first ctx token => do return .found (← ctx.noticedMatch? token)
  | .resolve ctx token => do return .resolved (← ctx.noticedResolve token)

/-- What the call returns where there is no log. -/
def answer : ReadingCall → ReadingAnswer
  | .variant v ctx token => .found (v.match? ctx token)
  | .first ctx token => .found (ctx.match? token)
  | .resolve ctx token => .resolved (ctx.resolve token)

def runAll (calls : List ReadingCall) : StateM NoticeLog (List ReadingAnswer) := calls.mapM run

theorem notes_run (call : ReadingCall) :
    Notes call.run call.answer (call.answer.variants.any Match.isLabeled) := by
  have hfound : ∀ m : Option Match, m.toList.any Match.isLabeled = m.any Match.isLabeled := by
    intro m
    cases m <;> simp
  cases call with
  | variant v ctx token =>
    simp only [answer, ReadingAnswer.variants, hfound]
    exact (v.notes_noticedMatch? ctx token).map _
  | first ctx token =>
    simp only [answer, ReadingAnswer.variants, hfound]
    exact (ctx.notes_noticedMatch? token).map _
  | resolve ctx token => exact (ctx.notes_noticedResolve token).map _

theorem notes_runAll (calls : List ReadingCall) :
    Notes (runAll calls) (calls.map answer)
      (calls.any fun call => call.answer.variants.any Match.isLabeled) :=
  .mapM notes_run calls

/-- The notice on labels is on record behind a sequence of calls iff a match that one of them
returned, or recorded in the resolution that it returned, has a label. Attempts at a variant that
decline, or whose match has no label, leave the log alone; where brackets cannot be read, only what
the keyword form makes of the token counts; a match that the resolver drops has left the log alone,
and one that has a label is not dropped. -/
theorem labeled_on_record (calls : List ReadingCall) :
    let outcome := (runAll calls).run {}
    outcome.1 = calls.map answer ∧
    (outcome.2.contains .labeled = true ↔ ∃ a ∈ outcome.1, ∃ m ∈ a.variants, m.label ≠ []) ∧
    (∀ (v : Variant) (ctx : Context) (token : Text) (log : NoticeLog),
      (∀ m ∈ v.match? ctx token, m.label = []) →
        ((v.noticedMatch? ctx token).run log).2 = log) ∧
    (∀ (r : Relation) (ctx : Context) (token : Text) (log : NoticeLog),
      r.matchBracket? ctx.style token = none →
        ((Variant.relation r).noticedMatch? ctx token).run log
          = (r.matchKeyword? ctx.style token, log.note (r.matchKeyword? ctx.style token))) ∧
    ∀ (ctx : Context) (body : Text) (m : Match), ctx.match? body = some m →
      (m.label ≠ [] → ctx.Pass body m) ∧
      (¬ ctx.Pass body m → ∀ log : NoticeLog, ((ctx.noticedMatch? body).run log).2 = log) := by
  intro outcome
  have houtcome : outcome = _ := notes_runAll calls {}
  have hlabel : ∀ m : Match, m.isLabeled = true ↔ m.label ≠ [] := by
    intro m
    simp [Match.isLabeled]
  have hunlabeled : ∀ {found : Option Match}, (∀ m ∈ found, m.label = []) →
      found.any Match.isLabeled = false := by
    intro found h
    cases found with
    | none => rfl
    | some m => rw [Option.any_some, Bool.eq_false_iff, ne_eq, hlabel, not_not, h m rfl]
  refine ⟨by rw [houtcome], ?_, ?_, ?_, ?_⟩
  · have hreturned : (∃ a ∈ calls.map answer, ∃ m ∈ a.variants, m.label ≠ []) ↔
        (calls.any fun call => call.answer.variants.any Match.isLabeled) = true := by
      simp [List.any_eq_true, hlabel]
    rw [houtcome, hreturned]
    cases calls.any fun call => call.answer.variants.any Match.isLabeled <;>
      simp [NoticeLog.contains_record]
  · intro v ctx token log h
    rw [v.notes_noticedMatch? ctx token log, hunlabeled h]
    rfl
  · intro r ctx token log h
    rw [Variant.run_noticedMatch?, Variant.match?, Relation.match?, h, Option.none_or]
  · intro ctx body m hm
    refine ⟨fun h => Context.pass_of_isLabeled hm ((hlabel m).2 h), fun hpass log => ?_⟩
    rw [ctx.notes_noticedMatch? body log, hm, Option.any_some,
      Context.isLabeled_of_not_pass hm hpass]
    rfl

/-- A rule that makes text longer has the resolver drop a match without a label, behind one that has
one and was read from brackets. -/
theorem labeled_on_record_dropped :
    let ctx : Context := { rules := [("hover:wide".toList, ['h'])] }
    let token : Text := "group-[.a]/b:h".toList
    (((runAll [.resolve ctx token]).run {}).2.contains .labeled = true) ∧
    (∀ log : NoticeLog, ((Variant.plain.noticedMatch? ctx token).run log).2 = log) ∧
    (∀ log : NoticeLog, ((Variant.relation .group).noticedMatch? {} "group-[]:x".toList).run log
      = (none, log)) ∧
    ∃ m, ctx.match? ['h'] = some m ∧ ¬ ctx.Pass ['h'] m ∧
      ∀ log : NoticeLog, ((ctx.noticedMatch? ['h']).run log).2 = log := by
  intro ctx token
  obtain ⟨hanswers, hrecord, hdeclined, hkeyword, hmatched⟩ :=
    labeled_on_record [.resolve ctx token]
  refine ⟨hrecord.2 ?_, fun log => hdeclined .plain ctx token log (by decide),
    fun log => hkeyword .group {} "group-[]:x".toList log (by decide), ?_⟩
  · obtain ⟨m, hm, hlabel⟩ : ∃ m, ctx.match? token = some m ∧ m.label ≠ [] :=
      ⟨_, rfl, by decide⟩
    have hpass := (hmatched ctx token m hm).1 hlabel
    refine ⟨.resolved (ctx.resolve token), by rw [hanswers]; exact List.mem_singleton_self _, m, ?_,
      hlabel⟩
    show m ∈ (ctx.strip token).1
    rw [Context.strip_of_pass hpass]
    exact List.mem_cons_self
  · obtain ⟨m, hm, hlonger⟩ : ∃ m, ctx.match? ['h'] = some m ∧
        ¬ m.residual.byteSize < Text.byteSize ['h'] := ⟨_, rfl, by decide⟩
    have hdropped : ¬ ctx.Pass ['h'] m := fun hpass => hlonger hpass.shortens
    exact ⟨m, hm, hdropped, (hmatched ctx ['h'] m hm).2 hdropped⟩

end ReadingCall

end VariantSelector
