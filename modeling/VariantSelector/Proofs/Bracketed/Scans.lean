import VariantSelector.Proofs.Bracketed.Positions

/-!
The two scans of the brackets in a payload. The scan for the end of a group lets a backslash take
the next character along; the one in front of decoding counts square brackets and knows no
backslashes. Decoding drops backslashes, but only in front of underscores, so to the first scan a
decoded payload is as balanced as the payload was (`balanced_of_extract?`). The second scan agrees
with the first one where no square bracket is escaped (`Balanced.bracketsMatch`), and rejects what
the first one has accepted where the escaped brackets are more on one side than on the other
(`Balanced.count_escaped_of_bracketsMatch`).
-/

namespace VariantSelector

/-- Every character of a text is taken along by a backslash or is not. -/
theorem Text.count_unescapedFrom_add_escapedFrom (c : Char) (b : Bool) (p : Text) :
    (p.unescapedFrom b).count c + (p.escapedFrom b).count c = p.count c := by
  induction p generalizing b with
  | nil => cases b <;> rfl
  | cons d p ih =>
    cases b with
    | true =>
      have := ih false
      rw [unescapedFrom, escapedFrom, List.count_cons, List.count_cons]
      omega
    | false =>
      have := ih (d = '\\')
      rw [unescapedFrom, escapedFrom, List.count_cons, List.count_cons]
      omega

namespace Bracketed

/-! ### The scan for the end of a group -/

section Closes

variable {b d : Nat} {p q : Text} {c : Char}

@[simp] theorem closes_escape_iff : Closes b d ('\\' :: c :: p) ↔ Closes b d p := by
  constructor
  · intro h
    cases h with
    | escape _ h => exact h
    | plain hc _ => cases hc
  · exact .escape c

theorem closes_plain_iff (hc : isDelimiter c = false) : Closes b d (c :: p) ↔ Closes b d p := by
  constructor
  · intro h
    cases h with
    | plain _ h => exact h
    | _ => cases hc
  · exact .plain hc

theorem closes_append_iff_of_plain (hp : ∀ c ∈ p, isDelimiter c = false) :
    Closes b d (p ++ q) ↔ Closes b d q := by
  induction p with
  | nil => rfl
  | cons c p ih =>
    rw [List.forall_mem_cons] at hp
    rw [List.cons_append, closes_plain_iff hp.1, ih hp.2]

/-- What one text leaves open the next one may close. -/
theorem Closes.append {b' d' : Nat} (hp : Closes b d p) (hq : Closes b' d' q) :
    Closes (b + b') (d + d') (p ++ q) := by
  induction hp with
  | nil => simpa using hq
  | escape c _ ih => exact ih.escape c
  | openParen _ ih => exact .openParen (by rwa [Nat.add_right_comm] at ih)
  | closeParen _ ih =>
    rw [Nat.add_right_comm]
    exact ih.closeParen
  | openBracket _ ih => exact .openBracket (by rwa [Nat.add_right_comm] at ih)
  | closeBracket _ ih =>
    rw [Nat.add_right_comm]
    exact ih.closeBracket
  | plain hc _ ih => exact ih.plain hc

/-- At whatever depth, and behind a backslash as without one, the scan closes the same with one text
as with the other. -/
structure ClosesAlike (p q : Text) : Prop where
  bare : ∀ b d, Closes b d p ↔ Closes b d q
  escaped : ∀ b d, Closes b d ('\\' :: p) ↔ Closes b d ('\\' :: q)

theorem Closes.cons_congr (hc : c ≠ '\\') (h : ∀ b d, Closes b d p → Closes b d q)
    (hp : Closes b d (c :: p)) : Closes b d (c :: q) := by
  cases hp with
  | escape => exact absurd rfl hc
  | openParen hp => exact .openParen (h _ _ hp)
  | closeParen hp => exact .closeParen (h _ _ hp)
  | openBracket hp => exact .openBracket (h _ _ hp)
  | closeBracket hp => exact .closeBracket (h _ _ hp)
  | plain hplain hp => exact .plain hplain (h _ _ hp)

theorem ClosesAlike.cons (c : Char) (h : ClosesAlike p q) : ClosesAlike (c :: p) (c :: q) where
  bare b d := by
    by_cases hc : c = '\\'
    · rw [hc]
      exact h.escaped b d
    · exact ⟨.cons_congr hc fun b d => (h.bare b d).1, .cons_congr hc fun b d => (h.bare b d).2⟩
  escaped b d := by rw [closes_escape_iff, closes_escape_iff, h.bare]

theorem closesAlike_spaceUnderscores (mode : UrlMode) (p : Text) :
    ClosesAlike (spaceUnderscores mode p) p := by
  have hunderscore : isDelimiter '_' = false := by decide
  have hspace : isDelimiter ' ' = false := by decide
  refine spaceUnderscores_rel ?_ ?_ ?_ ?_ mode p
  · exact ⟨fun _ _ => .rfl, fun _ _ => .rfl⟩
  · intro c p q h
    exact h.cons c
  · -- behind a backslash, the one in front of the underscore is taken along
    intro p q h
    exact ⟨fun b d => by rw [closes_plain_iff hunderscore, closes_escape_iff, h.bare],
      fun b d => by rw [closes_escape_iff, closes_escape_iff, closes_plain_iff hunderscore, h.bare]⟩
  · intro p q h
    exact ⟨fun b d => by rw [closes_plain_iff hspace, closes_plain_iff hunderscore, h.bare],
      fun b d => by rw [closes_escape_iff, closes_escape_iff, h.bare]⟩

end Closes

/-! ### Decoding what stands in a group -/

theorem isDelimiter_eq_false_of_isPlain {c : Char} (h : Css.Reader.isPlain c = true) :
    isDelimiter c = false := by
  obtain ⟨hbackslash, -, hbrackets⟩ := Css.Reader.isPlain_iff.1 h
  exact isDelimiter_eq_false_iff.2 ⟨hbackslash, hbrackets⟩

theorem closes_readCustomProperty {base : Text} (h : Closes 0 0 base) :
    Closes 0 0 (readCustomProperty base) := by
  unfold readCustomProperty
  split
  · have hopen : Closes 0 1 (base ++ [')']) := by simpa using h.append (.closeParen .nil)
    have hvar : ∀ c ∈ "var".toList, isDelimiter c = false := by simp [isDelimiter]
    exact (closes_append_iff_of_plain hvar).2 (.openParen hopen)
  · exact h

/-- The hint in front of a base has no part in its brackets and backslashes. -/
theorem Balanced.of_splitHint {payload base : Text} {hint : Option Hint} (h : Balanced payload)
    (hsplit : splitHint payload = (hint, base)) :
    Balanced base ∧ base.escaped = payload.escaped := by
  obtain ⟨lead, rfl, hlead⟩ := exists_of_splitHint hsplit
  have hplain : ∀ c ∈ lead, Css.Reader.isPlain c = true := fun c hc => (hlead c hc).isPlain
  rw [balanced_iff_closes] at h ⊢
  refine ⟨(closes_append_iff_of_plain fun c hc => ?_).1 h,
    (escapedFrom_of_isPlain_append hplain base).symm⟩
  exact isDelimiter_eq_false_of_isPlain (hplain c hc)

/-- What is not put into quotes stays balanced. -/
theorem balanced_of_decode? {payload value base : Text} {hint : Option Hint}
    (hsplit : splitHint payload = (hint, base)) (hhint : hint ≠ some .quoted)
    (h : decode? payload = some value) (hpayload : Balanced payload) : Balanced value := by
  obtain ⟨mode, rfl⟩ := (value_of_decode? hsplit h).2 hhint
  have hbase := balanced_iff_closes.1 (hpayload.of_splitHint hsplit).1
  rw [balanced_iff_closes, (closesAlike_spaceUnderscores mode _).bare]
  exact closes_readCustomProperty hbase

/-- What was found in the brackets of a token is balanced again behind decoding, unless it is put
into quotes. -/
theorem balanced_of_extract? {lead token value : Text} {x : Extract}
    (hx : extract? lead token = some x) (hvalue : decode? x.payload = some value)
    (hquoted : ∀ base, ¬ Hint.quoted.Leads x.payload base) : Balanced value := by
  have hsplits := splits_splitHint x.payload
  obtain ⟨hint, base, hsplit⟩ : ∃ hint base, splitHint x.payload = (hint, base) := ⟨_, _, rfl⟩
  rw [hsplit] at hsplits
  refine balanced_of_decode? hsplit ?_ hvalue (extract?_eq_some_iff.1 hx).1.balanced
  rintro rfl
  cases hsplits with
  | hinted hlead => exact hquoted base hlead

/-- The payload is a custom property that holds an escaped backslash in front of an underscore and
an escaped parenthesis. -/
theorem balanced_of_extract?_backslashes :
    let token : Text := "group-[color:--a\\\\_(\\([_\\_])]:x".toList
    let value : Text := "var(--a\\_(\\([ _]))".toList
    ∃ x, extract? "group-".toList token = some x ∧ decode? x.payload = some value ∧
      (∀ base, ¬ Hint.quoted.Leads x.payload base) ∧ Balanced value := by
  intro token value
  obtain ⟨x, hx, hvalue, hsplit⟩ : ∃ x, extract? "group-".toList token = some x ∧
      decode? x.payload = some value ∧ (splitHint x.payload).1 = some .color :=
    ⟨_, rfl, by decide, by decide⟩
  have hquoted : ∀ base, ¬ Hint.quoted.Leads x.payload base := by
    intro base hlead
    rw [splits_iff.1 (.hinted hlead)] at hsplit
    cases hsplit
  exact ⟨x, hx, hvalue, hquoted, balanced_of_extract? hx hvalue hquoted⟩

/-- Quotes put a backslash in front of a backslash, and what that one has taken along is live. -/
example : Balanced "quoted:\\(".toList ∧ decode? "quoted:\\(".toList = some "\"\\\\(\"".toList ∧
    ¬ Balanced "\"\\\\(\"".toList := by
  unfold Balanced
  decide

/-! ### The scan in front of decoding -/

theorem bracketsClose_cons {c : Char} (hopen : c ≠ '[') (hclose : c ≠ ']') (depth : Nat)
    (p : Text) : bracketsClose depth (c :: p) = bracketsClose depth p := by
  rw [bracketsClose] <;> assumption

/-- Where no square bracket is escaped, both scans count the same ones. -/
theorem Closes.bracketsClose {b d : Nat} {p : Text} (h : Closes b d p)
    (hopen : '[' ∉ p.escaped) (hclose : ']' ∉ p.escaped) : bracketsClose b p = true := by
  induction h with
  | nil => rfl
  | escape c _ ih =>
    simp only [Text.escaped, Text.escapedFrom, decide_true, List.mem_cons, not_or] at hopen hclose
    rw [bracketsClose_cons (by decide) (by decide),
      bracketsClose_cons (Ne.symm hopen.1) (Ne.symm hclose.1)]
    exact ih hopen.2 hclose.2
  | openParen _ ih =>
    rw [bracketsClose_cons (by decide) (by decide)]
    exact ih hopen hclose
  | closeParen _ ih =>
    rw [bracketsClose_cons (by decide) (by decide)]
    exact ih hopen hclose
  | openBracket _ ih => exact ih hopen hclose
  | closeBracket _ ih => exact ih hopen hclose
  | @plain b d p c hc _ ih =>
    obtain ⟨hbackslash, -, -, h₁, h₂⟩ := isDelimiter_eq_false_iff.1 hc
    simp only [Text.escaped, Text.escapedFrom, hbackslash, decide_false] at hopen hclose
    rw [bracketsClose_cons h₁ h₂]
    exact ih hopen hclose

/-- The brackets that are not escaped are as many on both sides. -/
theorem Closes.count_unescaped {b d : Nat} {p : Text} (h : Closes b d p) :
    b + p.unescaped.count '[' = p.unescaped.count ']' := by
  unfold Text.unescaped
  induction h with
  | nil => rfl
  | escape c _ ih => simpa [Text.unescapedFrom] using ih
  | openParen _ ih => simpa [Text.unescapedFrom] using ih
  | closeParen _ ih => simpa [Text.unescapedFrom] using ih
  | @openBracket b d p _ ih =>
    have hstep : Text.unescapedFrom false ('[' :: p) = '[' :: p.unescapedFrom false := rfl
    rw [hstep, List.count_cons_self, List.count_cons_of_ne (by decide), ← ih]
    omega
  | @closeBracket b d p _ ih =>
    have hstep : Text.unescapedFrom false (']' :: p) = ']' :: p.unescapedFrom false := rfl
    rw [hstep, List.count_cons_self, List.count_cons_of_ne (by decide), ← ih]
    omega
  | @plain b d p c hc _ ih =>
    obtain ⟨hbackslash, -, -, h₁, h₂⟩ := isDelimiter_eq_false_iff.1 hc
    simpa [Text.unescapedFrom, hbackslash, h₁, h₂] using ih

theorem Balanced.bracketsMatch {p : Text} (h : Balanced p) (hopen : '[' ∉ p.escaped)
    (hclose : ']' ∉ p.escaped) : BracketsMatch p :=
  bracketsClose_zero_iff.1 ((balanced_iff_closes.1 h).bracketsClose hopen hclose)

/-- The second scan takes the escaped brackets for open and closed ones, so it must find as many of
the one kind as of the other. -/
theorem Balanced.count_escaped_of_bracketsMatch {p : Text} (h : Balanced p)
    (hmatch : BracketsMatch p) : p.escaped.count '[' = p.escaped.count ']' := by
  have hopen : p.unescaped.count '[' + p.escaped.count '[' = p.count '[' :=
    Text.count_unescapedFrom_add_escapedFrom '[' false p
  have hclose : p.unescaped.count ']' + p.escaped.count ']' = p.count ']' :=
    Text.count_unescapedFrom_add_escapedFrom ']' false p
  have hunescaped := (balanced_iff_closes.1 h).count_unescaped
  have hall := hmatch.2
  omega

theorem decode?_eq_none_iff {payload base : Text} {hint : Option Hint}
    (hsplit : splitHint payload = (hint, base)) : decode? payload = none ↔ IsVoid base := by
  simp only [decode?, hsplit, isVoid_iff]
  split
  next hvoid => exact iff_of_true rfl hvoid
  next hvoid => exact iff_of_false (by split <;> simp) hvoid

end Bracketed

end VariantSelector
