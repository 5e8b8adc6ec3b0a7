import Mathlib.Data.List.Infix
import VariantSelector.Notice

/-!
The notice log over a history of calls. Each call has the log to itself while it runs, so whatever
any number of callers do, in whatever order, is one list of calls. The answers are those of a log
that knows a notice by the text `[component] message`: a notice counts as printed if one of the
same text was (`answersFor_confused`). Two notices share that text only if the end of one's
component stands at the front of the other's message (`Notice.key_eq_iff`), and a history without
such notices is answered as if each notice were known by its two parts
(`LogCall.answersFor_history`).
-/

namespace VariantSelector

/-! ### Notices of one text -/

namespace Notice

/-- What separates component and message in the text that a notice is remembered by. -/
def separator : Text := [']', ' ']

theorem key_eq (n : Notice) : n.key = '[' :: (n.component ++ (separator ++ n.message)) := rfl

/-- The end of `n`'s component, behind a separator in it, stands at the front of `k`'s message. -/
def Shifts (k n : Notice) : Prop :=
  ∃ s : Text, n.component = k.component ++ (separator ++ s) ∧
    k.message = s ++ (separator ++ n.message)

/-- The log cannot tell the notices apart. -/
def Confused (k n : Notice) : Prop := k = n ∨ k.Shifts n ∨ n.Shifts k

/-- Two separators overlap only if they are the same. -/
theorem separator_append_eq {s t u : Text} (h : separator ++ s = t ++ (separator ++ u)) :
    t = [] ∧ s = u ∨ ∃ v, t = separator ++ v ∧ s = v ++ (separator ++ u) := by
  match t with
  | [] => exact .inl ⟨rfl, List.append_cancel_left h⟩
  | [c] =>
    simp only [separator, List.cons_append, List.nil_append, List.cons.injEq] at h
    exact absurd h.2.1 (by decide)
  | c :: d :: v =>
    simp only [separator, List.cons_append, List.nil_append, List.cons.injEq] at h
    obtain ⟨rfl, rfl, h⟩ := h
    exact .inr ⟨v, rfl, h⟩

theorem key_eq_of_shifts {k n : Notice} (h : k.Shifts n) : k.key = n.key := by
  obtain ⟨s, hcomponent, hmessage⟩ := h
  rw [key_eq, key_eq, hcomponent, hmessage]
  simp only [List.append_assoc]

theorem eq_or_shifts {k n : Notice} {t : Text} (hcomponent : n.component = k.component ++ t)
    (hmessage : separator ++ k.message = t ++ (separator ++ n.message)) : k = n ∨ k.Shifts n := by
  rcases separator_append_eq hmessage with ⟨rfl, hm⟩ | ⟨s, rfl, hm⟩
  · left
    rw [List.append_nil] at hcomponent
    cases k
    cases n
    simp_all
  · exact .inr ⟨s, hcomponent, hm⟩

/-- Notices are confused if, and only if, they are remembered by the same text. -/
theorem key_eq_iff {k n : Notice} : k.key = n.key ↔ k.Confused n := by
  constructor
  · intro h
    rw [key_eq, key_eq, List.cons_inj_right] at h
    rcases List.append_eq_append_iff.1 h with ⟨t, hcomponent, hmessage⟩ |
      ⟨t, hcomponent, hmessage⟩
    · exact (eq_or_shifts hcomponent hmessage).imp id .inl
    · exact (eq_or_shifts hcomponent hmessage).imp Eq.symm .inr
  · rintro (rfl | h | h)
    · rfl
    · exact key_eq_of_shifts h
    · exact (key_eq_of_shifts h).symm

theorem Shifts.separator_infix {k n : Notice} (h : k.Shifts n) : separator <:+: n.component := by
  obtain ⟨s, hcomponent, -⟩ := h
  exact ⟨k.component, s, by rw [hcomponent, List.append_assoc]⟩

end Notice

/-! ### Calls -/

/-- A call on the log. -/
inductive LogCall
  | warn (n : Notice)
  /-- Asks whether a notice was printed. -/
  | ask (n : Notice)
  | clear
  deriving DecidableEq, Repr

namespace LogCall

/-- Carries out a call, and gives its answer if it has one. -/
def run : LogCall → StateM NoticeLog (Option Bool)
  | .warn n => do return some (← NoticeLog.warn n)
  | .ask n => do return some ((← get).contains n)
  | .clear => do
    NoticeLog.clear
    return none

/-- The notice that a call is about. -/
def notice? : LogCall → Option Notice
  | .warn n => some n
  | .ask n => some n
  | .clear => none

variable {ι : Type}

/-- Carries out the calls of a history, each by one of the callers `ι`. -/
def runAll (history : List (ι × LogCall)) : StateM NoticeLog (List (Option Bool)) :=
  history.mapM fun call => call.2.run

/-- The answers that the calls of a history get from a log that was empty. -/
def answers (history : List (ι × LogCall)) : List (Option Bool) := ((runAll history).run {}).1

/-- Some call warned of `n`, and none has cleared the log since. -/
def Warned (history : List (ι × LogCall)) (n : Notice) : Prop :=
  ∃ (before after : List (ι × LogCall)) (caller : ι),
    history = before ++ (caller, .warn n) :: after ∧ ∀ call ∈ after, call.2 ≠ .clear

/-- Every answer is right if notices that are `same` count as one: a warning is printed unless the
same notice was since the log was cleared, and a question is answered by whether it was. -/
def AnswersFor (same : Notice → Notice → Prop) (history : List (ι × LogCall)) : Prop :=
  ∀ (i : Nat) (caller : ι) (n : Notice),
    (history[i]? = some (caller, .warn n) → ∃ b, (answers history)[i]? = some (some b) ∧
      (b = true ↔ ¬ ∃ k, Warned (history.take i) k ∧ same k n)) ∧
    (history[i]? = some (caller, .ask n) → ∃ b, (answers history)[i]? = some (some b) ∧
      (b = true ↔ ∃ k, Warned (history.take i) k ∧ same k n))

/-! ### The log behind a history -/

/-- The log behind a history that found `log`. -/
def logAfter (log : NoticeLog) (history : List (ι × LogCall)) : NoticeLog :=
  ((runAll history).run log).2

theorem logAfter_cons (log : NoticeLog) (call : ι × LogCall) (history : List (ι × LogCall)) :
    logAfter log (call :: history) = logAfter (call.2.run.run log).2 history := by
  simp only [logAfter, runAll, List.mapM_cons, StateT.run_bind]
  rfl

theorem logAfter_concat (log : NoticeLog) (history : List (ι × LogCall)) (call : ι × LogCall) :
    logAfter log (history ++ [call]) = (call.2.run.run (logAfter log history)).2 := by
  induction history generalizing log with
  | nil => rw [List.nil_append, logAfter_cons]; rfl
  | cons c history ih => rw [List.cons_append, logAfter_cons, ih, logAfter_cons]

theorem getElem?_run_runAll (log : NoticeLog) (history : List (ι × LogCall)) (i : Nat) :
    ((runAll history).run log).1[i]?
      = history[i]?.map fun call => (call.2.run.run (logAfter log (history.take i))).1 := by
  induction history generalizing log i with
  | nil => rfl
  | cons c history ih =>
    have hrun : ((runAll (c :: history)).run log).1
        = (c.2.run.run log).1 :: ((runAll history).run (c.2.run.run log).2).1 := by
      simp only [runAll, List.mapM_cons, StateT.run_bind]
      rfl
    rw [hrun]
    cases i with
    | zero => rfl
    | succ i => simp only [List.getElem?_cons_succ, ih, List.take_succ_cons, logAfter_cons]

theorem warned_concat (history : List (ι × LogCall)) (call : ι × LogCall) (n : Notice) :
    Warned (history ++ [call]) n ↔
      call.2 = .warn n ∨ Warned history n ∧ call.2 ≠ .clear := by
  constructor
  · rintro ⟨before, after, caller, heq, hclear⟩
    -- the last call is the warning itself, or stands behind it
    rcases List.eq_nil_or_concat after with rfl | ⟨init, last, rfl⟩
    · obtain ⟨rfl, hlast⟩ := List.append_inj' heq rfl
      exact .inl (by rw [List.singleton_inj.1 hlast])
    · rw [List.concat_eq_append] at heq hclear
      rw [← List.cons_append, ← List.append_assoc] at heq
      obtain ⟨rfl, hlast⟩ := List.append_inj' heq rfl
      obtain rfl := List.singleton_inj.1 hlast
      exact .inr ⟨⟨before, init, caller, rfl, fun c hc => hclear c (by simp [hc])⟩,
        hclear call (by simp)⟩
  · rintro (h | ⟨⟨before, after, caller, rfl, hclear⟩, hcall⟩)
    · exact ⟨history, [], call.1, by rw [← h], by simp⟩
    · refine ⟨before, after ++ [call], caller, by simp, ?_⟩
      intro c hc
      rcases List.mem_append.1 hc with hc | hc
      · exact hclear c hc
      · rwa [List.mem_singleton.1 hc]

/-- What one call leaves on record. -/
theorem contains_run (call : LogCall) (log : NoticeLog) (n : Notice) :
    ((call.run.run log).2.contains n = true) ↔
      (∃ k, call = .warn k ∧ k.Confused n) ∨ log.contains n = true ∧ call ≠ .clear := by
  cases call with
  | warn k =>
    have hrecord : ((LogCall.warn k).run.run log).2 = log.record k := rfl
    rw [hrecord, NoticeLog.contains_record, Bool.or_eq_true, decide_eq_true_eq, Notice.key_eq_iff,
      or_comm]
    simp
  | ask k =>
    have hlog : ((LogCall.ask k).run.run log).2 = log := rfl
    rw [hlog]
    simp
  | clear =>
    have hlog : (LogCall.clear.run.run log).2 = {} := rfl
    rw [hlog, NoticeLog.contains_empty]
    simp

/-- What a whole history leaves on record. -/
theorem contains_logAfter (history : List (ι × LogCall)) (n : Notice) :
    (logAfter {} history).contains n = true ↔ ∃ k, Warned history k ∧ k.Confused n := by
  -- from the end of the history: the last call adds to the record, leaves it or empties it
  induction history using List.reverseRecOn with
  | nil =>
    have hempty : logAfter {} ([] : List (ι × LogCall)) = {} := rfl
    rw [hempty, NoticeLog.contains_empty]
    simp [Warned]
  | append_singleton history call ih =>
    rw [logAfter_concat, contains_run, ih]
    simp only [warned_concat]
    constructor
    · rintro (⟨k, hk, hsame⟩ | ⟨⟨k, hk, hsame⟩, hclear⟩)
      · exact ⟨k, .inl hk, hsame⟩
      · exact ⟨k, .inr ⟨hk, hclear⟩, hsame⟩
    · rintro ⟨k, hk | ⟨hk, hclear⟩, hsame⟩
      · exact .inl ⟨k, hk, hsame⟩
      · exact .inr ⟨⟨k, hk, hsame⟩, hclear⟩

/-! ### Answers -/

/-- The log answers as if notices were the same that it cannot tell apart. -/
theorem answersFor_confused (history : List (ι × LogCall)) :
    AnswersFor Notice.Confused history := by
  intro i caller n
  have hanswer : (answers history)[i]? = _ := getElem?_run_runAll {} history i
  constructor
  · intro hcall
    refine ⟨!(logAfter {} (history.take i)).contains n, ?_, ?_⟩
    · rw [hanswer, hcall]
      rfl
    · rw [← contains_logAfter, Bool.not_eq_true', Bool.not_eq_true]
  · intro hcall
    refine ⟨(logAfter {} (history.take i)).contains n, ?_, contains_logAfter _ n⟩
    rw [hanswer, hcall]
    rfl

/-- Some call is about `n`. -/
def IsAbout (history : List (ι × LogCall)) (n : Notice) : Prop :=
  ∃ call ∈ history, call.2.notice? = some n

theorem Warned.isAbout {history : List (ι × LogCall)} {i : Nat} {n : Notice}
    (h : Warned (history.take i) n) : IsAbout history n := by
  obtain ⟨before, after, caller, htake, -⟩ := h
  refine ⟨(caller, .warn n), List.mem_of_mem_take (i := i) ?_, rfl⟩
  rw [htake]
  exact List.mem_append_right _ List.mem_cons_self

/-- Only notices that a history is about have a say in its answers. -/
theorem AnswersFor.congr {same same' : Notice → Notice → Prop} {history : List (ι × LogCall)}
    (h : AnswersFor same history)
    (hsame : ∀ k n, IsAbout history k → IsAbout history n → (same k n ↔ same' k n)) :
    AnswersFor same' history := by
  have hiff : ∀ {i : Nat} {caller : ι} {n : Notice} {call : LogCall},
      history[i]? = some (caller, call) → call.notice? = some n →
      ((∃ k, Warned (history.take i) k ∧ same k n) ↔
        ∃ k, Warned (history.take i) k ∧ same' k n) := by
    intro i caller n call hcall hnotice
    have hn : IsAbout history n := ⟨_, List.mem_of_getElem? hcall, hnotice⟩
    refine exists_congr fun k => and_congr_right fun hk => ?_
    exact hsame k n hk.isAbout hn
  intro i caller n
  constructor
  · intro hcall
    rw [← hiff hcall rfl]
    exact (h i caller n).1 hcall
  · intro hcall
    rw [← hiff hcall rfl]
    exact (h i caller n).2 hcall

/-- What the log tells apart. A history is answered as if notices were the same that are remembered
by one text. If it is about no two notices of which one shifts into the other, and so if the
separator stands in no component that it is about, then each notice is answered for alone: a warning
is printed unless the very same notice was printed since the log was cleared, a question is answered
by whether it was, and calls about other notices have no say in either. -/
theorem answersFor_history (history : List (ι × LogCall)) :
    AnswersFor Notice.Confused history ∧
    ((∀ k n, IsAbout history k → IsAbout history n → ¬ k.Shifts n) →
      AnswersFor (· = ·) history) ∧
    ((∀ n, IsAbout history n → ¬ Notice.separator <:+: n.component) →
      AnswersFor (· = ·) history) := by
  have happart : (∀ k n, IsAbout history k → IsAbout history n → ¬ k.Shifts n) →
      AnswersFor (· = ·) history := by
    intro hshifts
    refine (answersFor_confused history).congr fun k n hk hn => ?_
    simp [Notice.Confused, hshifts k n hk hn, hshifts n k hn hk]
  refine ⟨answersFor_confused history, happart, ?_⟩
  intro hseparator
  exact happart fun k n _ hn h => hseparator n hn h.separator_infix

/-- Two callers warn of the same message, each for a component of its own, and one of them in vain
again after the other: the components hold no separator. -/
theorem answersFor_history_two_callers :
    let a : Notice := ⟨"a]".toList, "b] c".toList⟩
    let b : Notice := ⟨"b".toList, "b] c".toList⟩
    let history : List (Bool × LogCall) :=
      [(true, .warn a), (false, .warn b), (true, .warn a), (false, .clear), (true, .ask a)]
    (∀ n, IsAbout history n → ¬ Notice.separator <:+: n.component) ∧
      AnswersFor (· = ·) history ∧
      answers history = [some true, some true, some false, none, some false] := by
  intro a b history
  have hseparator : ∀ n, IsAbout history n → ¬ Notice.separator <:+: n.component := by
    rintro n ⟨call, hcall, hn⟩
    simp only [history, List.mem_cons, List.not_mem_nil, or_false] at hcall
    rcases hcall with rfl | rfl | rfl | rfl | rfl <;> cases hn <;> decide
  exact ⟨hseparator, (answersFor_history history).2.2 hseparator, rfl⟩

/-- The log does not know every notice by its two parts: `[a] b] c` stands for a message of `a] b`
and for one of `a`, and where the first was printed the second never is. -/
theorem not_forall_answersFor_eq :
    ¬ ∀ history : List (Unit × LogCall), AnswersFor (· = ·) history := by
  intro h
  let printed : Notice := ⟨"a] b".toList, "c".toList⟩
  let refused : Notice := ⟨"a".toList, "b] c".toList⟩
  let history : List (Unit × LogCall) := [((), .warn printed), ((), .warn refused)]
  have hanswers : (answers history)[1]? = some (some false) := rfl
  obtain ⟨b, hb, hiff⟩ := (h history 1 () refused).1 rfl
  rw [hanswers] at hb
  obtain rfl : false = b := by simpa using hb
  have hwarned : ∃ k, Warned (history.take 1) k ∧ k = refused := by
    by_contra hno
    exact Bool.false_ne_true (hiff.2 hno)
  obtain ⟨k, ⟨before, after, caller, htake, -⟩, rfl⟩ := hwarned
  have hmem : (caller, LogCall.warn refused) ∈ history.take 1 := by
    rw [htake]
    exact List.mem_append_right _ List.mem_cons_self
  exact absurd (List.mem_singleton.1 hmem) (by simp [printed, refused])

end LogCall

end VariantSelector
