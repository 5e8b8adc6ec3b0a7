import VariantSelector.Proofs.Bracketed.Scans

/-!
Payloads for given texts. A text is written with an underscore for each space and a backslash in
front of each underscore, and behind the hint `string` the decoder gives it back, but for a few
kinds of text (`decode?_underscored_eq_some_iff`). Behind the hint `quoted` the decoder gives the
value that it gives behind `string`, in quotes from which no text breaks out
(`decode?_quoted_eq_none_or`).
-/

namespace VariantSelector.Bracketed

/-! ### The two hints without `url(...)` -/

/-- A hint is found as it is written in the table. -/
theorem splitHint_name_append (h : Hint) (base : Text) :
    splitHint (h.name ++ ':' :: base) = (some h, base) :=
  splits_iff.1 (.hinted ⟨h.name, rfl, by cases h <;> decide⟩)

theorem splitHint_string (base : Text) :
    splitHint ("string:".toList ++ base) = (some .string, base) :=
  splitHint_name_append .string base

theorem splitHint_quoted (base : Text) :
    splitHint ("quoted:".toList ++ base) = (some .quoted, base) :=
  splitHint_name_append .quoted base

theorem decode?_string {base : Text} (h : ¬ IsVoid base) :
    decode? ("string:".toList ++ base)
      = some (spaceUnderscores .plain (readCustomProperty base)) := by
  rw [decode?, splitHint_string]
  exact if_neg (mt (isVoid_iff base).1 h)

theorem decode?_quoted {base : Text} (h : ¬ IsVoid base) :
    decode? ("quoted:".toList ++ base)
      = some (quote (spaceUnderscores .plain (readCustomProperty base))) := by
  rw [decode?, splitHint_quoted]
  exact if_neg (mt (isVoid_iff base).1 h)

/-! ### Underscores for spaces -/

/-- Writes underscores for spaces, and a backslash in front of each underscore. -/
def underscored (t : Text) : Text :=
  t.flatMap fun c => if c = '_' then ['\\', '_'] else if c = ' ' then ['_'] else [c]

@[simp] theorem underscored_nil : underscored [] = [] := rfl

@[simp] theorem underscored_underscore (t : Text) :
    underscored ('_' :: t) = '\\' :: '_' :: underscored t := rfl

@[simp] theorem underscored_space (t : Text) :
    underscored (' ' :: t) = '_' :: underscored t := rfl

variable {c : Char} {s t u : Text}

theorem underscored_cons (hunderscore : c ≠ '_') (hspace : c ≠ ' ') (t : Text) :
    underscored (c :: t) = c :: underscored t := by
  simp [underscored, hunderscore, hspace]

theorem underscored_eq_nil_iff : underscored t = [] ↔ t = [] := by
  cases t with
  | nil => rfl
  | cons c t =>
    by_cases hunderscore : c = '_'
    · simp [hunderscore]
    · by_cases hspace : c = ' '
      · simp [hspace]
      · simp [underscored_cons hunderscore hspace]

/-- Characters that are written as they are, and by which no others are written. -/
def isKept (c : Char) : Bool := c ≠ '_' && c ≠ ' ' && c ≠ '\\'

theorem underscored_eq_append_iff (hs : ∀ c ∈ s, isKept c = true) :
    underscored t = s ++ u ↔ ∃ t', t = s ++ t' ∧ underscored t' = u := by
  induction s generalizing t with
  | nil => simp
  | cons c s ih =>
    rw [List.forall_mem_cons] at hs
    obtain ⟨hc, hs⟩ := hs
    obtain ⟨hunderscore, hspace, hbackslash⟩ : c ≠ '_' ∧ c ≠ ' ' ∧ c ≠ '\\' := by
      simpa [isKept, and_assoc] using hc
    cases t with
    | nil => simp
    | cons d t =>
      by_cases hd : d = '_'
      · simp [hd, Ne.symm hunderscore, Ne.symm hbackslash]
      · by_cases hd' : d = ' '
        · simp [hd', Ne.symm hunderscore, Ne.symm hspace]
        · rw [underscored_cons hd hd', List.cons_append, List.cons.injEq, ih hs]
          simp [and_assoc]

theorem prefix_underscored_iff (hs : ∀ c ∈ s, isKept c = true) :
    s <+: underscored t ↔ s <+: t := by
  constructor
  · rintro ⟨u, hu⟩
    obtain ⟨t', rfl, -⟩ := (underscored_eq_append_iff hs).1 hu.symm
    exact List.prefix_append s t'
  · rintro ⟨t', rfl⟩
    rw [(underscored_eq_append_iff hs).2 ⟨t', rfl, rfl⟩]
    exact List.prefix_append s _

theorem underscored_eq_iff (hs : ∀ c ∈ s, isKept c = true) : underscored t = s ↔ t = s := by
  have h := underscored_eq_append_iff (t := t) (u := []) hs
  simpa [underscored_eq_nil_iff] using h

theorem bracketsClose_cons_congr (c : Char)
    (h : ∀ depth, bracketsClose depth s = bracketsClose depth t) (depth : Nat) :
    bracketsClose depth (c :: s) = bracketsClose depth (c :: t) := by
  by_cases hopen : c = '['
  · subst hopen
    exact h (depth + 1)
  · by_cases hclose : c = ']'
    · subst hclose
      cases depth with
      | zero => rfl
      | succ depth => exact h depth
    · rw [bracketsClose_cons hopen hclose, bracketsClose_cons hopen hclose, h]

theorem bracketsClose_underscored (t : Text) (depth : Nat) :
    bracketsClose depth (underscored t) = bracketsClose depth t := by
  induction t generalizing depth with
  | nil => rfl
  | cons c t ih =>
    by_cases hunderscore : c = '_'
    · subst hunderscore
      exact ih depth
    · by_cases hspace : c = ' '
      · subst hspace
        exact ih depth
      · rw [underscored_cons hunderscore hspace]
        exact bracketsClose_cons_congr c ih depth

theorem isVoid_underscored_iff : IsVoid (underscored t) ↔ IsVoid t := by
  have hempty : ∀ c ∈ "=\"\"".toList, isKept c = true := List.all_eq_true.1 (by decide)
  unfold IsVoid
  rw [← bracketsClose_zero_iff, ← bracketsClose_zero_iff, bracketsClose_underscored,
    underscored_eq_nil_iff, underscored_eq_iff hempty]

/-! ### Spaces for underscores, without `url(...)` -/

theorem spaceUnderscores_plain_cons (hunderscore : c ≠ '_')
    (hbackslash : c = '\\' → s.head? ≠ some '_') :
    spaceUnderscores .plain (c :: s) = c :: spaceUnderscores .plain s := by
  by_cases hurl : ['u', 'r', 'l', '('] <+: c :: s
  · obtain ⟨rest, hrest⟩ := hurl
    obtain ⟨rfl, rfl⟩ := List.cons.inj hrest
    simp [spaceUnderscores, UrlMode.enter]
  · by_cases hparen : c = ')'
    · rw [hparen]
      rfl
    · rw [spaceUnderscores]
      · rintro rest rfl rfl
        exact hurl ⟨rest, rfl⟩
      · exact hparen
      · rintro rest rfl rfl
        exact hbackslash rfl rfl
      · exact hunderscore

/-- Only a space is written with an underscore in front. -/
theorem head?_underscored (h : (underscored t).head? = some '_') : ∃ t', t = ' ' :: t' := by
  cases t with
  | nil => cases h
  | cons c t =>
    by_cases hunderscore : c = '_'
    · simp [hunderscore] at h
    · by_cases hspace : c = ' '
      · exact ⟨t, by rw [hspace]⟩
      · rw [underscored_cons hunderscore hspace] at h
        exact absurd (Option.some.inj h) hunderscore

theorem spaceUnderscores_underscored_cons (h : ¬ "\\ ".toList <+: c :: t) :
    spaceUnderscores .plain (underscored (c :: t))
      = c :: spaceUnderscores .plain (underscored t) := by
  by_cases hunderscore : c = '_'
  · subst hunderscore
    rfl
  · by_cases hspace : c = ' '
    · subst hspace
      rfl
    · rw [underscored_cons hunderscore hspace, spaceUnderscores_plain_cons hunderscore]
      rintro rfl hhead
      obtain ⟨t', rfl⟩ := head?_underscored hhead
      exact h ⟨t', rfl⟩

/-- A text comes back unless it holds a backslash in front of a space: there, what is written is an
escaped underscore. -/
theorem spaceUnderscores_underscored_iff :
    spaceUnderscores .plain (underscored t) = t ↔ ¬ "\\ ".toList <:+: t := by
  induction t with
  | nil => exact iff_of_true rfl (by decide)
  | cons c t ih =>
    rw [List.infix_cons_iff, not_or, ← ih]
    by_cases h : "\\ ".toList <+: c :: t
    · obtain ⟨rest, hrest⟩ := h
      obtain ⟨rfl, rfl⟩ := List.cons.inj hrest
      refine iff_of_false ?_ fun hall => hall.1 ⟨rest, rfl⟩
      change '_' :: _ ≠ '\\' :: _
      simp
    · rw [spaceUnderscores_underscored_cons h, List.cons_inj_right]
      exact (and_iff_right h).symm

/-- A text comes back from the payload it is written as exactly if it is not empty, is not `=""`,
does not begin like a custom property, has square brackets that match, escaped or not, and has no
space behind a backslash. -/
theorem decode?_underscored_eq_some_iff (t : Text) :
    decode? ("string:".toList ++ underscored t) = some t ↔
      t ≠ [] ∧ t ≠ "=\"\"".toList ∧ ¬ "--".toList <+: t ∧ BracketsMatch t ∧
        ¬ "\\ ".toList <:+: t := by
  by_cases hvoid : IsVoid t
  · have hnone := (decode?_eq_none_iff (splitHint_string _)).2 (isVoid_underscored_iff.2 hvoid)
    rw [hnone]
    refine iff_of_false (by simp) ?_
    rintro ⟨hnil, hempty, -, hmatch, -⟩
    rcases hvoid with h | h | h
    · exact hnil h
    · exact hempty h
    · exact h hmatch
  · rw [decode?_string (mt isVoid_underscored_iff.1 hvoid), Option.some_inj, readCustomProperty_eq]
    simp only [IsVoid, not_or, not_not] at hvoid
    obtain ⟨hnil, hempty, hmatch⟩ := hvoid
    have hdashes : "--".toList <+: underscored t ↔ "--".toList <+: t :=
      prefix_underscored_iff (List.all_eq_true.1 (by decide))
    by_cases hprefix : "--".toList <+: t
    · rw [if_pos (hdashes.2 hprefix)]
      refine iff_of_false ?_ fun h => h.2.2.1 hprefix
      -- the value begins with the `v` of `var(...)`
      obtain ⟨rest, rfl⟩ := hprefix
      change spaceUnderscores .plain ('v' :: _) ≠ '-' :: _
      rw [spaceUnderscores_plain_cons (by decide) (by simp)]
      simp
    · rw [if_neg (mt hdashes.1 hprefix), spaceUnderscores_underscored_iff]
      exact ⟨fun hspace => ⟨hnil, hempty, hprefix, hmatch, hspace⟩, fun h => h.2.2.2.2⟩

example : underscored "\\_ url(a b)".toList = "\\\\__url(a_b)".toList := by decide

/-! ### Quotes -/

/-- Cuts a text at the first double quote that no backslash takes along. -/
def cutAtQuote? : Text → Option (Text × Text)
  | [] => none
  | '\\' :: c :: s => (cutAtQuote? s).map fun (p, r) => ('\\' :: c :: p, r)
  | c :: s => if c = '"' then some ([], s) else (cutAtQuote? s).map fun (p, r) => (c :: p, r)

/-- Leaves out the backslashes: one stands for the character behind it. -/
def dropBackslashes : Text → Text
  | [] => []
  | '\\' :: c :: s => c :: dropBackslashes s
  | c :: s => c :: dropBackslashes s

/-- What is written between quotes does not reach past the closing one, whatever follows. -/
theorem cutAtQuote?_escapeQuotes (s rest : Text) :
    cutAtQuote? (escapeQuotes s ++ '"' :: rest) = some (escapeQuotes s, rest) := by
  induction s with
  | nil => rfl
  | cons c s ih =>
    by_cases hc : c = '"' ∨ c = '\\'
    · rw [escapeQuotes_cons_of_pos hc, List.cons_append, List.cons_append, cutAtQuote?, ih]
      rfl
    · have hne := not_or.1 hc
      rw [escapeQuotes_cons_of_neg hc, List.cons_append]
      simp [cutAtQuote?, hne, ih]

theorem dropBackslashes_escapeQuotes (s : Text) : dropBackslashes (escapeQuotes s) = s := by
  induction s with
  | nil => rfl
  | cons c s ih =>
    by_cases hc : c = '"' ∨ c = '\\'
    · rw [escapeQuotes_cons_of_pos hc, dropBackslashes, ih]
    · rw [escapeQuotes_cons_of_neg hc]
      simp [dropBackslashes, not_or.1 hc, ih]

/-- Behind the hint `quoted` a base stands for something exactly if it does behind `string`. Its
value is then in quotes: the first double quote behind the opening one that no backslash takes along
is the closing one, whatever follows, and what is between the two, without its backslashes, is the
value behind `string`. -/
theorem decode?_quoted_eq_none_or (base : Text) :
    decode? ("quoted:".toList ++ base) = none ∧ decode? ("string:".toList ++ base) = none ∨
    ∃ value body, decode? ("string:".toList ++ base) = some value ∧
      decode? ("quoted:".toList ++ base) = some ('"' :: (body ++ ['"'])) ∧
      (∀ rest, cutAtQuote? (body ++ '"' :: rest) = some (body, rest)) ∧
      dropBackslashes body = value := by
  by_cases hvoid : IsVoid base
  · left
    exact ⟨(decode?_eq_none_iff (splitHint_quoted base)).2 hvoid,
      (decode?_eq_none_iff (splitHint_string base)).2 hvoid⟩
  · right
    let value := spaceUnderscores .plain (readCustomProperty base)
    refine ⟨value, escapeQuotes value, decode?_string hvoid, ?_, ?_, ?_⟩
    · rw [decode?_quoted hvoid, quote_eq]
    · exact cutAtQuote?_escapeQuotes value
    · exact dropBackslashes_escapeQuotes value

example : decode? "quoted:a_\\\\_\"\\".toList = some "\"a \\\\_\\\"\\\\\"".toList := by decide

end VariantSelector.Bracketed
