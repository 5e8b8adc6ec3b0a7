import VariantSelector.Proofs.Json.Value

/-!
Reading numbers and strings character by character, against the grammar: a number is read to its
end and told from what follows (`read?_number`, `feed?_eq_none_of_endsNumber`), and a string gives
the text of its code units or, where they have none, is refused (`ReadsQuotation.foldlM_strict`).
-/

namespace VariantSelector.Json

/-! ### Numbers -/

namespace Numeral

/-- Takes in the characters of `s` one after another. -/
def read? (n : Numeral) (s : Text) : Option Numeral := s.foldlM feed? n

theorem read?_append (n : Numeral) (s t : Text) :
    n.read? (s ++ t) = (n.read? s).bind (·.read? t) := List.foldlM_append

theorem read?_cons (n : Numeral) (c : Char) (s : Text) :
    n.read? (c :: s) = (n.feed? c).bind (·.read? s) := List.foldlM_cons

/-- Reads digits that are all taken in alike. -/
theorem read?_digits (add : Numeral → Text → Numeral) {s : Text} (hs : ∀ c ∈ s, c.isDigit = true)
    (hfeed : ∀ (t : Text) (n : Numeral) (c : Char), c.isDigit = true →
      (add n t).feed? c = some (add n (t ++ [c]))) (n : Numeral) (t : Text) :
    (add n t).read? s = some (add n (t ++ s)) := by
  induction s generalizing t with
  | nil => rw [List.append_nil]; rfl
  | cons c s ih =>
    rw [read?_cons, hfeed t n c (hs c List.mem_cons_self), Option.bind_some,
      ih (fun d hd => hs d (List.mem_cons_of_mem c hd)), List.append_assoc, List.singleton_append]

theorem isDigit_ne {c d : Char} (hc : c.isDigit = true) (hd : d.isDigit = false) : c ≠ d := by
  rintro rfl
  rw [hc] at hd
  cases hd

/-- A number whose digits in front of the point have been read. -/
def ofWhole (negative : Bool) (whole : Text) : Numeral where
  negative
  whole
  stage := if whole = ['0'] then .zero else .whole

/-- A number of which one digit has been read. -/
def ofDigit (negative : Bool) (c : Char) : Numeral where
  negative
  whole := [c]
  stage := if c = '0' then .zero else .whole

theorem feed?_sign {c : Char} (hc : c.isDigit = true) :
    (start '-').feed? c = some (ofDigit true c) := by
  by_cases h0 : c = '0' <;> simp [start, feed?, ofDigit, h0, hc]

theorem read?_whole {negative : Bool} {c : Char} {s : Text} (hs : ∀ d ∈ s, d.isDigit = true)
    (hzero : c = '0' → s = []) :
    (ofDigit negative c).read? s = some (ofWhole negative (c :: s)) := by
  by_cases h0 : c = '0'
  · rw [hzero h0, h0]
    rfl
  · have hread := read?_digits (fun n t => { n with whole := c :: t, stage := .whole }) hs
      (fun t n d hd => by simp [feed?, hd]) { negative, stage := .whole } []
    simpa [h0, ofDigit, ofWhole] using hread

/-- What a number that has come to its fraction goes on with. -/
def withFraction (n : Numeral) (fraction : Text) : Numeral :=
  if fraction = [] then n else { n with fraction, stage := .fraction }

theorem read?_fraction {negative : Bool} {whole s : Text} (hs : ∀ c ∈ s, c.isDigit = true) :
    (ofWhole negative whole).read? (if s = [] then [] else '.' :: s)
      = some ((ofWhole negative whole).withFraction s) := by
  cases s with
  | nil => rfl
  | cons c s =>
    have hpoint : (ofWhole negative whole).feed? '.'
        = some { ofWhole negative whole with stage := .point } := by
      unfold ofWhole
      by_cases h : whole = ['0'] <;> simp [feed?, h]
    have hc : c.isDigit = true := hs c List.mem_cons_self
    have hfirst : Numeral.feed? { ofWhole negative whole with stage := .point } c
        = some { ofWhole negative whole with fraction := [c], stage := .fraction } := by
      simp [feed?, hc, ofWhole]
    have hread := read?_digits (fun n t => { n with fraction := t, stage := .fraction })
      (fun d hd => hs d (List.mem_cons_of_mem c hd)) (fun t n d hd => by simp [feed?, hd])
      (ofWhole negative whole) [c]
    rw [if_neg (List.cons_ne_nil c s), read?_cons, hpoint, Option.bind_some, read?_cons, hfirst,
      Option.bind_some, hread, withFraction, if_neg (List.cons_ne_nil c s)]
    rfl

/-- The exponent of a number, behind its mark. -/
def withExponent (n : Numeral) (sign digits : Text) : Numeral :=
  { n with exponentNegative := sign = ['-'], exponent := digits, stage := .exponent }

theorem read?_sign {n : Numeral} (hnegative : n.exponentNegative = false)
    (hexponent : n.exponent = []) {sign : Text} (hsign : sign = [] ∨ sign = ['+'] ∨ sign = ['-'])
    {c : Char} (hc : c.isDigit = true) :
    Numeral.read? { n with stage := .exponentMark } (sign ++ [c])
      = some (n.withExponent sign [c]) := by
  have hplus : c ≠ '+' := isDigit_ne hc rfl
  have hminus : c ≠ '-' := isDigit_ne hc rfl
  rcases hsign with rfl | rfl | rfl <;>
    simp [read?, feed?, withExponent, hc, hplus, hminus, hnegative, hexponent]

theorem read?_exponent {negative : Bool} {whole fraction : Text} (e : Exponent) :
    ((ofWhole negative whole).withFraction fraction).read? e.text
      = some (((ofWhole negative whole).withFraction fraction).withExponent e.sign e.digits) := by
  obtain ⟨c, s, hdigits⟩ := List.exists_cons_of_ne_nil e.isDigits.nonempty
  have hall : ∀ d ∈ c :: s, d.isDigit = true := hdigits ▸ e.isDigits.digits
  generalize hn : (ofWhole negative whole).withFraction fraction = n
  have hempty : n.exponentNegative = false ∧ n.exponent = [] := by
    rw [← hn]
    unfold withFraction ofWhole
    split <;> exact ⟨rfl, rfl⟩
  have hstage : n.stage = .zero ∨ n.stage = .whole ∨ n.stage = .fraction := by
    rw [← hn]
    unfold withFraction ofWhole
    by_cases h : fraction = [] <;> by_cases h' : whole = ['0'] <;> simp [h, h']
  have hmark : n.feed? e.mark = some { n with stage := .exponentMark } := by
    rcases e.isMark with hm | hm <;> rw [hm] <;>
      rcases hstage with h | h | h <;> simp [feed?, h]
  have hrest := read?_digits (fun n t => n.withExponent e.sign t)
    (fun d hd => hall d (List.mem_cons_of_mem c hd))
    (fun t n d hd => by simp [feed?, withExponent, hd]) n [c]
  have hsplit : e.sign ++ e.digits = (e.sign ++ [c]) ++ s := by rw [hdigits]; simp
  rw [Exponent.text, read?_cons, hmark, Option.bind_some, hsplit, read?_append,
    read?_sign hempty.1 hempty.2 e.isSign (hall c List.mem_cons_self), Option.bind_some, hrest,
    hdigits]
  rfl

end Numeral

namespace Number

theorem numeral_eq (n : Number) :
    n.numeral = n.exponent.elim ((Numeral.ofWhole n.negative n.whole).withFraction n.fraction)
      fun e => ((Numeral.ofWhole n.negative n.whole).withFraction n.fraction).withExponent
        e.sign e.digits := by
  cases he : n.exponent with
  | none =>
    by_cases hf : n.fraction = [] <;>
      simp [numeral, he, hf, Numeral.withFraction, Numeral.ofWhole]
  | some e =>
    by_cases hf : n.fraction = [] <;>
      simp [numeral, he, hf, Numeral.withFraction, Numeral.withExponent, Numeral.ofWhole]

theorem read?_fraction_exponent (n : Number) :
    (Numeral.ofWhole n.negative n.whole).read? (n.fractionText ++ n.exponentText)
      = some n.numeral := by
  rw [Numeral.read?_append, fractionText, Numeral.read?_fraction n.isFraction, Option.bind_some,
    numeral_eq, exponentText]
  cases n.exponent with
  | none => rfl
  | some e => exact Numeral.read?_exponent e

/-- A number begins with a sign or a digit, and is read to its end from there. -/
theorem read?_number (n : Number) :
    ∃ (c : Char) (s : Text), n.text = c :: s ∧ (c = '-' ∨ c.isDigit = true) ∧
      (Numeral.start c).read? s = some n.numeral := by
  obtain ⟨c, whole, hwhole⟩ := List.exists_cons_of_ne_nil n.isWhole.nonempty
  have hdigits : ∀ d ∈ c :: whole, d.isDigit = true := hwhole ▸ n.isWhole.digits
  have hc : c.isDigit = true := hdigits c List.mem_cons_self
  have hzero : c = '0' → whole = [] := by
    intro h0
    have := n.noLeadingZero (by rw [hwhole, h0]; rfl)
    rw [hwhole] at this
    exact (List.cons_eq_cons.1 this).2
  have hread : (Numeral.ofDigit n.negative c).read? (whole ++ (n.fractionText ++ n.exponentText))
      = some n.numeral := by
    rw [Numeral.read?_append,
      Numeral.read?_whole (fun d hd => hdigits d (List.mem_cons_of_mem c hd)) hzero,
      Option.bind_some, ← hwhole, read?_fraction_exponent]
  cases hneg : n.negative with
  | true =>
    refine ⟨'-', n.unsignedText, by rw [text, hneg, if_pos rfl], .inl rfl, ?_⟩
    rw [hneg] at hread
    rw [unsignedText, hwhole, List.cons_append, Numeral.read?_cons, Numeral.feed?_sign hc,
      Option.bind_some, hread]
  | false =>
    refine ⟨c, whole ++ (n.fractionText ++ n.exponentText), ?_, .inr hc, ?_⟩
    · rw [text, hneg, unsignedText, hwhole]
      rfl
    · have hstart : Numeral.start c = Numeral.ofDigit n.negative c := by
        rw [Numeral.start, if_neg (Numeral.isDigit_ne hc rfl), hneg]
        rfl
      rw [hstart, hread]

theorem isComplete_numeral (n : Number) : n.numeral.isComplete = true := by
  unfold numeral Numeral.isComplete
  by_cases he : n.exponent.isSome <;> by_cases hf : n.fraction = [] <;>
    by_cases hw : n.whole = ['0'] <;> simp [he, hf, hw]

end Number

/-- No number goes on with this character. -/
def EndsNumber (c : Char) : Prop := c.isDigit = false ∧ c ≠ '.' ∧ c ≠ 'e' ∧ c ≠ 'E'

instance (c : Char) : Decidable (EndsNumber c) := inferInstanceAs (Decidable (_ ∧ _))

theorem Numeral.feed?_eq_none_of_endsNumber {n : Numeral} {c : Char} (h : n.isComplete = true)
    (hc : EndsNumber c) : n.feed? c = none ∧ n.endsBefore c = true := by
  obtain ⟨hdigit, hpoint, he, hE⟩ := hc
  constructor
  · cases hs : n.stage <;> simp [isComplete, hs] at h <;> simp [feed?, hs, hdigit, hpoint, he, hE]
  · simp [endsBefore, h, hdigit]

/-! ### Strings -/

theorem hexDigit?_bounds {c : Char} {n : Nat} (h : hexDigit? c = some n) :
    n < 16 ∧ c.utf8Size = 1 := by
  rw [Char.utf8Size_eq_one_iff]
  simp only [hexDigit?, Char.isDigit, Char.le_def, UInt32.le_iff_toNat_le, Bool.and_eq_true,
    decide_eq_true_eq, ge_iff_le, Char.toNat] at h ⊢
  have h0 : '0'.val.toNat = 48 := rfl
  have h9 : '9'.val.toNat = 57 := rfl
  have ha : 'a'.val.toNat = 97 := rfl
  have hf : 'f'.val.toNat = 102 := rfl
  have hA : 'A'.val.toNat = 65 := rfl
  have hF : 'F'.val.toNat = 70 := rfl
  have hmax : (127 : UInt32).toNat = 127 := rfl
  split at h
  · cases h; omega
  · split at h
    · cases h; omega
    · split at h
      · cases h; omega
      · cases h

theorem hexValue?_bounds {a b c d : Char} {unit : Nat} (h : hexValue? [a, b, c, d] = some unit) :
    unit < 0x10000 ∧ a.utf8Size = 1 ∧ b.utf8Size = 1 ∧ c.utf8Size = 1 ∧ d.utf8Size = 1 := by
  simp only [hexValue?, List.foldlM_cons, List.foldlM_nil, Option.bind_eq_bind,
    Option.bind_eq_some_iff, Option.map_eq_some_iff, Option.pure_def, Option.some.injEq] at h
  obtain ⟨_, ⟨na, ha, rfl⟩, _, ⟨nb, hb, rfl⟩, _, ⟨nc, hc, rfl⟩, _, ⟨nd, hd, rfl⟩, rfl⟩ := h
  have ha := hexDigit?_bounds ha
  have hb := hexDigit?_bounds hb
  have hc := hexDigit?_bounds hc
  have hd := hexDigit?_bounds hd
  omega

theorem simpleEscape?_bounds {e c : Char} (h : simpleEscape? e = some c) :
    e ≠ 'u' ∧ c.toNat < 0x80 := by
  unfold simpleEscape? at h
  split at h <;> cases h <;> decide

/-- Behind a surrogate that opens a pair no character stands that is written in another way. -/
theorem text?_high_utf16_append {high : Nat} (c : Char) (us : List Nat)
    (hhigh : isHighSurrogate high = true) : text? (high :: (utf16 c ++ us)) = none := by
  have hvalid := toNat_lt_or c
  have hlow : ∀ next rest, utf16 c ++ us = next :: rest → isLowSurrogate next = false := by
    intro next rest h
    unfold utf16 at h
    split at h <;> obtain ⟨rfl, -⟩ := List.cons_eq_cons.1 h <;>
      simp only [isLowSurrogate, Bool.and_eq_false_iff, decide_eq_false_iff_not] <;> omega
  have hne : utf16 c ++ us ≠ [] := by
    unfold utf16
    split <;> simp
  obtain ⟨next, rest, hcons⟩ := List.exists_cons_of_ne_nil hne
  rw [hcons, text?_high_cons _ _ hhigh, hlow next rest hcons]
  rfl

section Strings

variable {σ : Type} {feed : σ → Char → Option σ} {inside : Quotation → σ}
  {finish : Text → Option σ} {us : List Nat} {s : Text}

/-- A machine reads a string as its quotation says, and goes on with the text of it. -/
def ReadsQuotation (feed : σ → Char → Option σ) (inside : Quotation → σ)
    (finish : Text → Option σ) : Prop :=
  ∀ (q : Quotation) (c : Char), feed (inside q) c =
    match q.feed c with
    | .more q => some (inside q)
    | .last text => finish text
    | .refused => none

/-- An escape that names a code unit, behind a surrogate that waits for its partner or none. -/
theorem ReadsQuotation.foldlM_unit (hfeed : ReadsQuotation feed inside finish) {a b c d : Char}
    {unit : Nat} (names : hexValue? [a, b, c, d] = some unit) {q : Quotation} (high : Option Nat)
    (hplace : q.place = high.elim .between .backslash) (t : Text) :
    ('\\' :: 'u' :: a :: b :: c :: d :: t).foldlM feed (inside q) =
      match q.takeUnit high unit with
      | .more q => t.foldlM feed (inside q)
      | .last text => (finish text).bind (t.foldlM feed ·)
      | .refused => none := by
  obtain ⟨-, ha, hb, hc, hd⟩ := hexValue?_bounds names
  have hbegin : ('\\' :: 'u' :: a :: b :: c :: d :: t).foldlM feed (inside q)
      = (a :: b :: c :: d :: t).foldlM feed (inside { q with place := .unit high [] }) := by
    cases high <;> simp [List.foldlM_cons, hfeed _ _, Quotation.feed, hplace]
  have htake : Quotation.takeUnit { q with place := .unit high [a, b, c] } high unit
      = q.takeUnit high unit := rfl
  rw [hbegin]
  simp only [List.foldlM_cons, hfeed _ _, Quotation.feed, List.nil_append, List.cons_append,
    Text.byteSize_cons, Text.byteSize_nil, ha, hb, hc, hd, Nat.reduceAdd, Nat.reduceLT, ↓reduceIte,
    Option.bind_eq_bind, Option.bind_some, names, htake]
  cases q.takeUnit high unit <;> rfl

/-- A character that was taken in stands in front of the text of what follows. -/
theorem bind_push {τ : Type} (q : Quotation) (c : Char) (us : List Nat) (next : σ → Option τ) :
    ((text? us).bind fun text => (finish ((q.push c).reversed.reverse ++ text)).bind next)
      = ((text? us).map (c :: ·)).bind fun text =>
        (finish (q.reversed.reverse ++ text)).bind next := by
  cases text? us with
  | none => rfl
  | some text =>
    have hpush : (q.push c).reversed.reverse ++ text = q.reversed.reverse ++ c :: text := by
      simp [Quotation.push]
    exact congrArg (fun text => (finish text).bind next) hpush

/-- A string whose text is asked for gives the text of its code units; if they have none it is
refused. Where a surrogate is waiting for its partner it is one of the units. -/
theorem ReadsQuotation.foldlM_strict (hfeed : ReadsQuotation feed inside finish)
    (h : WritesUnits us s) (rest : Text) (q : Quotation) (hstrict : q.strict = true) :
    (q.place = .between → (s ++ '"' :: rest).foldlM feed (inside q) =
      (text? us).bind fun text =>
        (finish (q.reversed.reverse ++ text)).bind (rest.foldlM feed ·)) ∧
    (∀ high, isHighSurrogate high = true → q.place = .backslash high →
      (s ++ '"' :: rest).foldlM feed (inside q) =
        (text? (high :: us)).bind fun text =>
          (finish (q.reversed.reverse ++ text)).bind (rest.foldlM feed ·)) := by
  induction h generalizing q with
  | nil =>
    constructor
    · intro hplace
      simp [List.foldlM_cons, hfeed _ _, Quotation.feed, hplace, text?]
    · intro high hhigh hplace
      simp [List.foldlM_cons, hfeed _ _, Quotation.feed, hplace, text?, hhigh]
  | @char c us s hquote hbackslash hcontrol _ ih =>
    constructor
    · intro hplace
      have hstep : feed (inside q) c = some (inside (q.push c)) := by
        simp [hfeed _ _, Quotation.feed, hplace, hquote, hbackslash, Nat.not_lt.2 hcontrol]
      rw [List.cons_append, List.foldlM_cons, hstep, text?_utf16_append]
      exact ((ih (q.push c) hstrict).1 rfl).trans (bind_push q c us _)
    · intro high hhigh hplace
      rw [text?_high_utf16_append c us hhigh]
      simp [List.foldlM_cons, hfeed _ _, Quotation.feed, hplace, hbackslash]
  | @escape e c us s hescape _ ih =>
    obtain ⟨hu, hc⟩ := simpleEscape?_bounds hescape
    constructor
    · intro hplace
      rw [text?_cons_of_lt us (by omega), Char.ofNat_toNat]
      have hread : ('\\' :: e :: (s ++ '"' :: rest)).foldlM feed (inside q)
          = (s ++ '"' :: rest).foldlM feed (inside (q.push c)) := by
        simp [List.foldlM_cons, hfeed _ _, Quotation.feed, hplace, hu, hescape, Quotation.push]
      exact hread.trans (((ih (q.push c) hstrict).1 rfl).trans (bind_push q c us _))
    · intro high hhigh hplace
      have hlow : isLowSurrogate c.toNat = false := by
        simp only [isLowSurrogate, Bool.and_eq_false_iff, decide_eq_false_iff_not]
        omega
      rw [text?_high_cons _ _ hhigh, hlow]
      simp [List.foldlM_cons, hfeed _ _, Quotation.feed, hplace, hu]
  | @unit a b c d unit us s names _ ih =>
    have hunit := (hexValue?_bounds names).1
    constructor
    · intro hplace
      refine (hfeed.foldlM_unit names none hplace (s ++ '"' :: rest)).trans ?_
      -- the second half of a pair is refused, the first half waits, any other unit is a character
      by_cases hlow : isLowSurrogate unit = true
      · rw [text?_low_cons us hlow]
        simp [Quotation.takeUnit, hstrict, hlow]
      · by_cases hhigh : isHighSurrogate unit = true
        · have htake : q.takeUnit none unit = .more { q with place := .backslash unit } := by
            simp [Quotation.takeUnit, hstrict, hlow, hhigh]
          rw [htake]
          exact (ih { q with place := .backslash unit } hstrict).2 unit hhigh rfl
        · have htake : q.takeUnit none unit = .more (q.push (Char.ofNat unit)) := by
            simp [Quotation.takeUnit, hstrict, hlow, hhigh]
          have hrange : unit < 0xD800 ∨ 0xDFFF < unit ∧ unit < 0x10000 := by
            simp only [isHighSurrogate, isLowSurrogate, Bool.and_eq_true,
              decide_eq_true_eq] at hhigh hlow
            omega
          rw [htake, text?_cons_of_lt us hrange]
          exact ((ih (q.push (Char.ofNat unit)) hstrict).1 rfl).trans (bind_push q _ us _)
    · intro high hhigh hplace
      refine (hfeed.foldlM_unit names (some high) hplace (s ++ '"' :: rest)).trans ?_
      rw [text?_high_cons _ _ hhigh]
      by_cases hlow : isLowSurrogate unit = true
      · have htake : q.takeUnit (some high) unit = .more (q.push (pairedChar high unit)) := by
          simp [Quotation.takeUnit, hstrict, hlow]
        rw [htake, if_pos hlow]
        exact ((ih (q.push (pairedChar high unit)) hstrict).1 rfl).trans (bind_push q _ us _)
      · simp [Quotation.takeUnit, hstrict, hlow]

/-- A string whose text is not asked for is read to its end, whatever its code units are. -/
theorem ReadsQuotation.foldlM_lenient (hfeed : ReadsQuotation feed inside finish)
    (h : WritesUnits us s) (rest : Text) (q : Quotation) (hstrict : q.strict = false)
    (hplace : q.place = .between) :
    ∃ text, (s ++ '"' :: rest).foldlM feed (inside q)
      = (finish text).bind (rest.foldlM feed ·) := by
  induction h generalizing q with
  | nil => exact ⟨q.reversed.reverse, by simp [List.foldlM_cons, hfeed _ _, Quotation.feed, hplace]⟩
  | @char c us s hquote hbackslash hcontrol _ ih =>
    obtain ⟨text, htext⟩ := ih (q.push c) hstrict rfl
    refine ⟨text, Eq.trans ?_ htext⟩
    simp [List.foldlM_cons, hfeed _ _, Quotation.feed, hplace, hquote, hbackslash,
      Nat.not_lt.2 hcontrol]
  | @escape e c us s hescape _ ih =>
    obtain ⟨text, htext⟩ := ih (q.push c) hstrict rfl
    refine ⟨text, Eq.trans ?_ htext⟩
    simp [List.foldlM_cons, hfeed _ _, Quotation.feed, hplace, hescape, Quotation.push,
      (simpleEscape?_bounds hescape).1]
  | @unit a b c d unit us s names _ ih =>
    obtain ⟨text, htext⟩ := ih q hstrict hplace
    refine ⟨text, Eq.trans ?_ htext⟩
    have htake : q.takeUnit none unit = .more q := by
      obtain ⟨strict, reversed, place⟩ := q
      cases hstrict
      cases hplace
      rfl
    refine (hfeed.foldlM_unit names none hplace (s ++ '"' :: rest)).trans ?_
    rw [htake]

end Strings

/-! ### Tokens -/

def Token.isNumber : Token → Bool
  | .number _ => true
  | _ => false

/-- No two numbers stand next to each other. Of all tokens only numbers would run together. -/
def NumbersApart (τs : List Token) : Prop :=
  τs.IsChain fun σ τ => σ.isNumber = true → τ.isNumber = false

theorem NumbersApart.append_cons {σs τs : List Token} {τ : Token} (hσs : NumbersApart σs)
    (hτ : τ.isNumber = false) (hτs : NumbersApart τs) : NumbersApart (σs ++ τ :: τs) := by
  have hcons : NumbersApart (τ :: τs) :=
    List.IsChain.cons hτs fun _ _ h => by rw [hτ] at h; cases h
  refine List.isChain_append.2 ⟨hσs, hcons, ?_⟩
  rintro σ - _ ⟨⟩ -
  exact hτ

theorem numbersApart_inContainer (shape : Shape) {items : List (List Token)}
    (h : ∀ item ∈ items, NumbersApart item) : NumbersApart (inContainer shape items) := by
  have hitems : NumbersApart ([.comma].intercalate items ++ [.closing shape]) := by
    induction items with
    | nil => exact List.isChain_singleton _
    | cons item items ih =>
      have hitem := h item List.mem_cons_self
      have hrest := ih fun other hother => h other (List.mem_cons_of_mem item hother)
      cases items with
      | nil => exact NumbersApart.append_cons (by simpa using hitem) rfl List.isChain_nil
      | cons other items =>
        rw [List.intercalate_cons_cons, List.append_assoc]
        simpa using NumbersApart.append_cons hitem (τ := .comma) rfl hrest
  exact NumbersApart.append_cons List.isChain_nil rfl hitems

theorem Value.numbersApart_tokens (v : Value) : NumbersApart v.tokens := by
  induction v with
  | null | boolean | number | string => exact List.isChain_singleton _
  | array elements ih =>
    rw [Value.tokens, elementTokens_eq]
    refine numbersApart_inContainer .array fun item hitem => ?_
    obtain ⟨v, hv, rfl⟩ := List.mem_map.1 hitem
    exact ih v hv
  | object members ih =>
    rw [Value.tokens, memberTokens_eq]
    refine numbersApart_inContainer .object fun item hitem => ?_
    obtain ⟨m, hm, rfl⟩ := List.mem_map.1 hitem
    exact NumbersApart.append_cons List.isChain_nil rfl
      (NumbersApart.append_cons List.isChain_nil rfl (ih m hm))

theorem endsNumber_of_isSpace {c : Char} (h : isSpace c = true) : EndsNumber c := by
  simp only [isSpace, Bool.or_eq_true, decide_eq_true_eq] at h
  rcases h with ((rfl | rfl) | rfl) | rfl <;> decide

/-- A token other than a number begins with a character that ends a number. -/
theorem Token.exists_cons_of_writtenAs (τ : Token) {s : Text} (h : τ.WrittenAs s)
    (hτ : τ.isNumber = false) : ∃ c t, s = c :: t ∧ EndsNumber c := by
  cases h with
  | opening shape => exact ⟨_, _, rfl, by cases shape <;> decide⟩
  | closing shape => exact ⟨_, _, rfl, by cases shape <;> decide⟩
  | comma | colon | null | true | false | string => exact ⟨_, _, rfl, by decide⟩
  | number n => cases hτ

theorem Lays.head_endsNumber {τs : List Token} {t : Text} (h : Lays τs t)
    (hτs : ∀ τ ∈ τs.head?, τ.isNumber = false) : ∀ c ∈ t.head?, EndsNumber c := by
  cases h with
  | nil hspaces => exact fun c hc => endsNumber_of_isSpace (hspaces c (List.mem_of_head? hc))
  | @cons space s t τ τs hspaces hwritten _ =>
    obtain ⟨c, s, rfl, hc⟩ := τ.exists_cons_of_writtenAs hwritten (hτs τ rfl)
    cases space with
    | nil => rintro _ ⟨⟩; exact hc
    | cons d space => rintro _ ⟨⟩; exact endsNumber_of_isSpace (hspaces d List.mem_cons_self)

end VariantSelector.Json
