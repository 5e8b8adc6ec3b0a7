import VariantSelector.Proofs.Config.Document

/-!
Which problem of a document is reported. The values of `attributifyPseudo` are looked at when the
closing brace of the document is met and at no other time: up to there the reader does what it would
do had it met any other values, and what it reports is about something else (`Reader.steady_feed`).
-/

namespace VariantSelector.Config

open Json

/-- Whether a fault is about the values of `attributifyPseudo`. -/
def Fault.isAttributify : Fault → Bool
  | .wrongType _ .boolean => true
  | .duplicate .attributifyPseudo => true
  | _ => false

namespace Reader

/-! ### Steps in the middle of the document -/

/-- The reader behind a number that ends here, if it stands in one. -/
def endNumber (r : Reader) : Except Fault Reader :=
  match r.reading with
  | .value role (.numeral n) => if n.isComplete then r.takeNumeral role n else .error .malformed
  | _ => .ok r

/-- The reader stands where the closing brace of the document may come. -/
structure AtBrace (r : Reader) : Prop where
  reading : r.reading = .nothing
  nested : r.nested = []
  place : r.place = .document
  mayClose : r.mayClose .object = true

/-- The document has not come to its end, and where an array may end there is one. -/
structure InProgress (r : Reader) : Prop where
  notEnded : ∀ config, r.expect ≠ .ended config
  inArray : ∀ role, r.expect = .valueOrEnd role → r.nested = [] → r.place ≠ .document

/-- The reader as it would be with these values of `attributifyPseudo` met earlier. -/
def behind (r : Reader) (values : List Outline) : Reader :=
  { r with attributify := values ++ r.attributify }

section

variable (r : Reader) (values : List Outline)

-- not plain `rfl`: a rewriting by definition would leave the values in how a condition is decided
@[simp] theorem behind_theme : (r.behind values).theme = r.theme := (rfl)
@[simp] theorem behind_rules : (r.behind values).rules = r.rules := (rfl)
@[simp] theorem behind_place : (r.behind values).place = r.place := (rfl)
@[simp] theorem behind_nested : (r.behind values).nested = r.nested := (rfl)
@[simp] theorem behind_expect : (r.behind values).expect = r.expect := (rfl)
@[simp] theorem behind_reading : (r.behind values).reading = r.reading := (rfl)
@[simp] theorem behind_innermost : (r.behind values).innermost = r.innermost := (rfl)
@[simp] theorem behind_isStrict (role : Role) :
    (r.behind values).isStrict role = r.isStrict role := (rfl)

end

/-- Whatever values of `attributifyPseudo` have been met, this comes to the same fault, which is
about something else. -/
def Fails {α : Type} (outcome : List Outline → Except Fault α) : Prop :=
  ∃ fault : Fault, fault.isAttributify = false ∧ ∀ values, outcome values = .error fault

/-- A step that the values of `attributifyPseudo` have no part in: it fails for something else, or
leads to the same reader behind these values. -/
def Steady (step : List Outline → Except Fault Reader) : Prop :=
  Fails step ∨ ∃ r : Reader, r.InProgress ∧ ∀ values, step values = .ok (r.behind values)

theorem Fails.error {α : Type} (fault : Fault) (h : fault.isAttributify = false) :
    Fails fun _ => (.error fault : Except Fault α) := ⟨fault, h, fun _ => rfl⟩

theorem Fails.bind {α β : Type} {outcome : List Outline → Except Fault α} (h : Fails outcome)
    (next : α → Except Fault β) : Fails fun values => outcome values >>= next := by
  obtain ⟨fault, hfault, herror⟩ := h
  simp only [herror]
  exact .error fault hfault

theorem Steady.error (fault : Fault) (h : fault.isAttributify = false) :
    Steady fun _ => .error fault := .inl (.error fault h)

theorem Steady.ok (r : Reader) (h : r.InProgress) : Steady fun values => .ok (r.behind values) :=
  .inr ⟨r, h, fun _ => rfl⟩

theorem Steady.bind {step : List Outline → Except Fault Reader}
    {next : Reader → Except Fault Reader} (h : Steady step)
    (hnext : ∀ r : Reader, r.InProgress → (∀ values, step values = .ok (r.behind values)) →
      Steady fun values => next (r.behind values)) :
    Steady fun values => step values >>= next := by
  rcases h with hfails | ⟨r, hr, hok⟩
  · exact .inl (hfails.bind next)
  · simp only [hok]
    exact hnext r hr hok

variable {r : Reader}

/-- Only behind an opening bracket may an array end at once. -/
theorem InProgress.of_expect (hended : ∀ config, r.expect ≠ .ended config)
    (hvalue : ∀ role, r.expect ≠ .valueOrEnd role) : r.InProgress :=
  ⟨hended, fun role h => absurd h (hvalue role)⟩

theorem steady_openNested (r : Reader) (shape : Shape) :
    Steady fun values => (r.behind values).openNested shape := by
  by_cases hdeep : (r.place = .document && maxDepth ≤ r.nested.length + 1) = true
  · exact .inl ⟨.malformed, rfl, fun values => if_pos hdeep⟩
  · refine .inr ⟨(r.nest shape).expecting (inside shape .ignored), ⟨?_, ?_⟩,
      fun values => if_neg hdeep⟩
    · cases shape <;> simp [inside]
    · simp [nest]

theorem steady_openContainer (r : Reader) (role : Role) (shape : Shape) :
    Steady fun values => (r.behind values).openContainer role shape := by
  cases role with
  | attributify =>
    have h := steady_openNested { r with attributify := r.attributify ++ [.container shape] } shape
    simpa only [openContainer, behind, List.append_assoc] using h
  | ignored => exact steady_openNested r shape
  | encoded plain => exact .error (.wrongType (.container shape) .string) rfl
  | theme =>
    refine .inr ⟨(r.inTheme shape none).expecting (inside shape .rules), ⟨?_, ?_⟩, fun _ => rfl⟩
    · cases shape <;> simp [inside]
    · simp [inTheme]
  | document =>
    cases shape with
    | object => exact .ok (r.expecting .keyOrEnd) (.of_expect (by simp) (by simp))
    | array => exact .error _ rfl
  | rules =>
    cases shape with
    | object => exact .ok ((r.amongRules []).expecting .keyOrEnd) (.of_expect (by simp) (by simp))
    | array => exact .error _ rfl

/-- The reader behind a scalar. -/
def behindScalar (r : Reader) : Reader := { r with expect := .next, reading := .nothing }

theorem inProgress_behindScalar (r : Reader) : r.behindScalar.InProgress :=
  .of_expect (by simp [behindScalar]) (by simp [behindScalar])

theorem steady_takeScalar (r : Reader) (role : Role) (found : Outline) :
    Steady fun values => (r.behind values).takeScalar role found := by
  cases role with
  | document => exact .error (.wrongType found .config) rfl
  | theme => exact .error (.wrongType found .theme) rfl
  | rules => exact .error (.wrongType found .rules) rfl
  | encoded plain =>
    cases found with
    | string text =>
      exact .ok { r.behindScalar with
        rules := some (TransformRules.put plain text (r.rules.getD [])) }
        (.of_expect (by simp [behindScalar]) (by simp [behindScalar]))
    | _ => exact .error (.wrongType _ .string) rfl
  | attributify =>
    have h := Steady.ok { r.behindScalar with attributify := r.attributify ++ [found] }
      (.of_expect (by simp [behindScalar]) (by simp [behindScalar]))
    simpa only [takeScalar, behind, behindScalar, List.append_assoc] using h
  | ignored => exact .ok r.behindScalar (inProgress_behindScalar r)

theorem steady_takeNumeral (r : Reader) (role : Role) (n : Numeral) :
    Steady fun values => (r.behind values).takeNumeral role n := by
  simp only [takeNumeral, behind_isStrict]
  split
  · cases n.outline? with
    | none => exact .error .malformed rfl
    | some found => exact steady_takeScalar r role found
  · exact steady_takeScalar r role .null

theorem steady_takeKey (r : Reader) (key : Text) :
    Steady fun values => (r.behind values).takeKey key := by
  have hgoOn : ∀ role, Steady fun values =>
      .ok { r.behind values with expect := .colon role, reading := .nothing } := fun role =>
    .ok { r with expect := .colon role, reading := .nothing } (.of_expect (by simp) (by simp))
  simp only [takeKey, behind_nested, behind_place, behind_theme, behind_rules]
  split
  · exact hgoOn .ignored
  · split
    · split
      · split
        · exact .error (.duplicate .theme) rfl
        · exact hgoOn .theme
      · split
        · exact hgoOn .attributify
        · exact hgoOn .ignored
    · split
      · split
        · exact .error (.duplicate .transformRules) rfl
        · exact hgoOn .rules
      · exact hgoOn .ignored
    · exact hgoOn (.encoded key)

/-- Only the brace that closes the document makes the values count. -/
theorem steady_close (h : r.nested = [] → r.place ≠ .document) :
    Steady fun values => (r.behind values).close := by
  cases hnested : r.nested with
  | cons shape nested =>
    have hok := Steady.ok { r with nested, expect := .next } (.of_expect (by simp) (by simp))
    simpa only [close, behind, hnested] using hok
  | nil =>
    cases hplace : r.place with
    | document => exact absurd hplace (h hnested)
    | theme =>
      have hok := Steady.ok
        { r with place := .document, theme := some (r.rules.getD []), expect := .next }
        (.of_expect (by simp) (by simp))
      simpa only [close, behind, hnested, hplace] using hok
    | rules =>
      have hok := Steady.ok { r with place := .theme, expect := .next }
        (.of_expect (by simp) (by simp))
      simpa only [close, behind, hnested, hplace] using hok

theorem steady_separate (r : Reader) : Steady fun values => (r.behind values).separate := by
  simp only [separate, behind_innermost, behind_nested]
  split
  · exact .ok (r.expecting .key) (.of_expect (by simp) (by simp))
  · exact .ok (r.expecting (.value .ignored)) (.of_expect (by simp) (by simp))
  · exact .error .malformed rfl

theorem InProgress.withReading (h : r.InProgress) (reading : Reading) :
    InProgress { r with reading } := ⟨h.notEnded, h.inArray⟩

theorem steady_beginValue (h : r.InProgress) (role : Role) (c : Char) :
    Steady fun values => (r.behind values).beginValue role c := by
  simp only [beginValue, behind_isStrict]
  split
  · exact steady_openContainer r role .array
  · split
    · exact steady_openContainer r role .object
    · cases Lexeme.start? (r.isStrict role) c with
      | none => exact .error .malformed rfl
      | some lexeme => exact .ok _ (h.withReading (.value role lexeme))

theorem steady_beginKey (h : r.InProgress) (c : Char) :
    Steady fun values => (r.behind values).beginKey c := by
  simp only [beginKey, behind_nested, behind_place]
  split
  · exact .ok _ (h.withReading (.key _))
  · exact .error .malformed rfl

theorem steady_punctuate (h : r.InProgress) (hreading : r.reading = .nothing) {c : Char}
    (hbrace : c = '}' → ¬ r.AtBrace) : Steady fun values => (r.behind values).punctuate c := by
  simp only [punctuate, behind_expect, behind_innermost]
  split
  · exact .ok r h
  · cases he : r.expect with
    | value role => exact steady_beginValue h role c
    | valueOrEnd role =>
      simp only
      split
      · exact steady_close (h.inArray role he)
      · exact steady_beginValue h role c
    | key => exact steady_beginKey h c
    | keyOrEnd =>
      simp only
      split
      next hc =>
        refine steady_close fun hnested hplace => hbrace hc ⟨hreading, hnested, hplace, ?_⟩
        simp [mayClose, he]
      next => exact steady_beginKey h c
    | colon role =>
      simp only
      split
      · exact .ok (r.expecting (.value role)) (.of_expect (by simp) (by simp))
      · exact .error .malformed rfl
    | next =>
      simp only
      split
      · exact steady_separate r
      · split
        next hc =>
          refine steady_close fun hnested hplace => ?_
          have hobject : r.innermost = .object := by simp [innermost, hnested, hplace]
          rw [hobject] at hc
          refine hbrace hc ⟨hreading, hnested, hplace, ?_⟩
          simp [mayClose, he, hobject]
        next => exact .error .malformed rfl
    | ended config => exact absurd he (h.notEnded config)

theorem endNumber_of_nothing (h : r.reading = .nothing) : r.endNumber = .ok r := by
  rw [endNumber, h]

theorem endNumber_of_numeral {role : Role} {n : Numeral}
    (h : r.reading = .value role (.numeral n)) :
    r.endNumber = if n.isComplete then r.takeNumeral role n else .error .malformed := by
  rw [endNumber, h]

theorem eq_or_of_endNumber {r₁ : Reader} (h : r.endNumber = .ok r₁) :
    r = r₁ ∨ ∃ role n, r.reading = .value role (.numeral n) ∧ n.isComplete = true ∧
      r.takeNumeral role n = .ok r₁ := by
  unfold endNumber at h
  split at h
  next role n hreading =>
    split at h
    next hcomplete => exact .inr ⟨role, n, hreading, hcomplete, h⟩
    next => cases h
  next =>
    cases h
    exact .inl rfl

/-- Every step but the one at the closing brace is steady. -/
theorem steady_feed (h : r.InProgress) {c : Char}
    (hbrace : c = '}' → ∀ r₁, r.endNumber = .ok r₁ → ¬ r₁.AtBrace) :
    Steady fun values => (r.behind values).feed c := by
  simp only [feed, behind_reading]
  cases hr : r.reading with
  | nothing =>
    exact steady_punctuate h hr fun hc hat => hbrace hc r (endNumber_of_nothing hr) hat
  | key q =>
    simp only
    cases q.feed c with
    | more q => exact .ok _ (h.withReading (.key q))
    | last key => exact steady_takeKey r key
    | refused => exact .error .malformed rfl
  | value role lexeme =>
    cases lexeme with
    | string q =>
      simp only
      cases q.feed c with
      | more q => exact .ok _ (h.withReading (.value role (.string q)))
      | last text => exact steady_takeScalar r role (.string text)
      | refused => exact .error .malformed rfl
    | word next later value =>
      simp only
      split
      · exact .error .malformed rfl
      · cases later with
        | nil => exact steady_takeScalar r role value
        | cons next later => exact .ok _ (h.withReading (.value role (.word next later value)))
    | numeral n =>
      simp only
      cases n.feed? c with
      | some n => exact .ok _ (h.withReading (.value role (.numeral n)))
      | none =>
        simp only
        split
        next hends =>
          -- the number is taken in first, and may be the last thing in front of the brace
          refine (steady_takeNumeral r role n).bind fun r₁ hr₁ hok => ?_
          have htake : r.takeNumeral role n = .ok r₁ := hok []
          refine steady_punctuate hr₁ (takeNumeral_eq_ok htake).2 fun hc => hbrace hc r₁ ?_
          have hcomplete : n.isComplete = true := by
            simp only [Numeral.endsBefore, Bool.and_eq_true] at hends
            exact hends.1
          rw [endNumber_of_numeral hr, if_pos hcomplete, htake]
        next => exact .error .malformed rfl

theorem steady_endNumber (h : r.InProgress) : Steady fun values => (r.behind values).endNumber := by
  simp only [endNumber, behind_reading]
  split
  · split
    · exact steady_takeNumeral r _ _
    · exact .error .malformed rfl
  · exact .ok r h

theorem AtBrace.behind (h : r.AtBrace) (values : List Outline) : (r.behind values).AtBrace :=
  ⟨h.reading, h.nested, h.place, h.mayClose⟩

/-! ### Up to the closing brace -/

/-- What a document comes to if `s` is the rest of it. -/
def run (r : Reader) (s : Text) : Except Fault Config := s.foldlM feed r >>= finish

theorem run_cons (r : Reader) (c : Char) (s : Text) : r.run (c :: s) = r.feed c >>= (·.run s) := by
  rw [run, List.foldlM_cons, bind_assoc]
  rfl

theorem run_append {r₀ : Reader} {s : Text} (h : s.foldlM feed r = .ok r₀) (t : Text) :
    r.run (s ++ t) = r₀.run t := by
  rw [run, List.foldlM_append, h]
  rfl

/-- Going on with `s` the reader comes to the closing brace of the document without a problem, with
these values of `attributifyPseudo`. -/
def Closes (r : Reader) (s : Text) (values : List Outline) : Prop :=
  ∃ inside rest r₀ r₁, s = inside ++ '}' :: rest ∧ inside.foldlM feed r = .ok r₀ ∧
    r₀.endNumber = .ok r₁ ∧ r₁.AtBrace ∧ r₁.attributify = values

theorem Closes.cons {r' : Reader} {c : Char} {s : Text} {values : List Outline}
    (hfeed : r.feed c = .ok r') (h : r'.Closes s values) : r.Closes (c :: s) values := by
  obtain ⟨inside, rest, r₀, r₁, rfl, hread, hbrace⟩ := h
  refine ⟨c :: inside, rest, r₀, r₁, rfl, ?_, hbrace⟩
  rw [List.foldlM_cons, hfeed]
  exact hread

theorem InProgress.fails_finish (h : r.InProgress) :
    Fails fun values => (r.behind values).finish := by
  simp only [finish, behind_reading, behind_expect, behind_isStrict]
  split
  next config _ he => exact absurd he (h.notEnded config)
  next role n _ =>
    split
    · rcases steady_takeNumeral r role n with hfails | ⟨r₁, -, hok⟩
      · exact hfails.bind _
      · simp only [hok]
        exact .error .truncated rfl
    · split
      · exact .error .truncated rfl
      · exact .error .malformed rfl
  next => exact .error .truncated rfl

/-- Where the closing brace is not reached there is a problem. It is not about the values, and it is
reported whatever they are. -/
theorem InProgress.fails_run (h : r.InProgress) (known : List Outline) {s : Text}
    (hopen : ∀ values, ¬ (r.behind known).Closes s values) :
    Fails fun values => (r.behind values).run s := by
  induction s generalizing r with
  | nil => exact h.fails_finish
  | cons c s ih =>
    have hbrace : c = '}' → ∀ r₁, r.endNumber = .ok r₁ → ¬ r₁.AtBrace := by
      rintro rfl r₁ hr₁ hat
      rcases steady_endNumber h with ⟨fault, -, herror⟩ | ⟨r₂, -, hok⟩
      · have hnil : r.endNumber = .error fault := herror []
        rw [hr₁] at hnil
        cases hnil
      · have hnil : r.endNumber = .ok r₂ := hok []
        rw [hr₁] at hnil
        cases hnil
        exact hopen _ ⟨[], s, _, _, rfl, rfl, hok known, hat.behind known, rfl⟩
    simp only [run_cons]
    rcases steady_feed h hbrace with hfails | ⟨r', hr', hok⟩
    · exact hfails.bind _
    · simp only [hok]
      exact ih hr' fun values hcloses => hopen values (hcloses.cons (hok known))

/-! ### At the closing brace -/

/-- A number is taken in by the character behind it. -/
theorem feed_of_endNumber {r₁ : Reader} (h : r.endNumber = .ok r₁) {c : Char} (hc : EndsNumber c) :
    r.feed c = r₁.feed c := by
  rcases eq_or_of_endNumber h with rfl | ⟨role, n, hreading, hcomplete, htake⟩
  · rfl
  · obtain ⟨hnone, hends⟩ := Numeral.feed?_eq_none_of_endsNumber hcomplete hc
    rw [feed_of_nothing (takeNumeral_eq_ok htake).2, feed, hreading]
    simp only [hnone, hends, ↓reduceIte, htake]
    rfl

theorem feed_brace_of_atBrace (h : r.AtBrace) :
    r.feed '}' = settle r.attributify >>= fun attributify =>
      .ok (r.expecting (.ended { attributify, rules := r.theme.getD [] })) := by
  have hobject : r.innermost = .object := by simp [innermost, h.nested, h.place]
  have hclose : r.punctuate '}' = r.close := by
    have hmay := h.mayClose
    cases he : r.expect <;> simp [mayClose, he] at hmay <;>
      simp [punctuate, he, isSpace, hobject, closer]
  rw [feed_of_nothing h.reading, hclose]
  simp only [close, h.nested, h.place, expecting]

/-- Behind the closing brace nothing but white space may come. -/
theorem isAttributify_of_run_ended {config : Config} (hreading : r.reading = .nothing)
    (hended : r.expect = .ended config) {s : Text} {fault : Fault} (h : r.run s = .error fault) :
    fault.isAttributify = false := by
  induction s with
  | nil =>
    rw [run, List.foldlM_nil] at h
    change r.finish = .error fault at h
    rw [finish, hreading, hended] at h
    cases h
  | cons c s ih =>
    rw [run_cons, feed_of_nothing hreading, punctuate, hended] at h
    split at h
    · exact ih h
    · cases h
      rfl

/-- At the closing brace the values are settled, and what follows is read behind it. -/
theorem Closes.run_eq {s : Text} {values : List Outline} (h : r.Closes s values) :
    ∃ (rest : Text) (ended : Bool → Reader),
      (∀ b, (ended b).reading = .nothing ∧ ∃ config, (ended b).expect = .ended config) ∧
      r.run s = settle values >>= fun b => (ended b).run rest := by
  obtain ⟨inside, rest, r₀, r₁, rfl, hread, hend, hat, rfl⟩ := h
  refine ⟨rest, fun b => r₁.expecting (.ended { attributify := b, rules := r₁.theme.getD [] }),
    fun b => ⟨hat.reading, _, rfl⟩, ?_⟩
  rw [run_append hread, run_cons, feed_of_endNumber hend (by decide), feed_brace_of_atBrace hat,
    bind_assoc]
  rfl

theorem inProgress_start : ({} : Reader).InProgress := .of_expect (by simp) (by simp)

end Reader

/-- A fault about the values of `attributifyPseudo` is reported if, and only if, the document comes
to its closing brace without another problem and the values make that fault. -/
theorem parse_eq_error_attributify_iff {text : Text} {fault : Fault}
    (hfault : fault.isAttributify = true) :
    parse text = .error fault ↔
      ∃ values, ({} : Reader).Closes text values ∧ Reader.settle values = .error fault := by
  have hparse : parse text = ({} : Reader).run text := rfl
  constructor
  · intro h
    by_cases hcloses : ∃ values, ({} : Reader).Closes text values
    · obtain ⟨values, hcloses⟩ := hcloses
      obtain ⟨rest, ended, hended, hrun⟩ := hcloses.run_eq
      rw [hparse, hrun] at h
      refine ⟨values, hcloses, ?_⟩
      cases hsettle : Reader.settle values with
      | error other =>
        rw [hsettle] at h
        cases h
        rfl
      | ok b =>
        rw [hsettle] at h
        obtain ⟨hreading, config, hexpect⟩ := hended b
        rw [Reader.isAttributify_of_run_ended hreading hexpect h] at hfault
        cases hfault
    · obtain ⟨other, hother, hrun⟩ := Reader.inProgress_start.fails_run [] (not_exists.1 hcloses)
      have hsame : Except.error other = Except.error fault := (hrun []).symm.trans h
      cases hsame
      rw [hfault] at hother
      cases hother
  · rintro ⟨values, hcloses, hsettle⟩
    obtain ⟨rest, ended, -, hrun⟩ := hcloses.run_eq
    rw [hparse, hrun, hsettle]
    rfl

end VariantSelector.Config
