import VariantSelector.Config.Reader
import VariantSelector.Proofs.Json.Scanning

/-!
The reader over tokens. What the reader makes of a token is said once (`Reader.take?`), without the
characters it is written with; over a text that lays out a list of tokens it does what it does over
the tokens, whatever the spelling of strings and the white space (`Reader.accept?_lays`).
-/

namespace VariantSelector.Config

open Json

theorem toOption_bind {ε α β : Type} (x : Except ε α) (f : α → Except ε β) :
    (x >>= f).toOption = x.toOption.bind fun a => (f a).toOption := by
  cases x <;> rfl

theorem toOption_eq_some {ε α : Type} {x : Except ε α} {a : α} (h : x.toOption = some a) :
    x = .ok a := by
  cases x <;> cases h
  rfl

namespace Reader

/-- Reads a text. -/
def read? (r : Reader) (s : Text) : Option Reader := s.foldlM (fun r c => (r.feed c).toOption) r

/-- The configuration that the reader comes to if `s` is the rest of the document. -/
def accept? (r : Reader) (s : Text) : Option Config := (r.read? s).bind (·.finish.toOption)

@[simp] theorem read?_nil (r : Reader) : r.read? [] = some r := rfl

@[simp] theorem read?_cons (r : Reader) (c : Char) (s : Text) :
    r.read? (c :: s) = (r.feed c).toOption.bind (·.read? s) := List.foldlM_cons

@[simp] theorem read?_append (r : Reader) (s t : Text) :
    r.read? (s ++ t) = (r.read? s).bind (·.read? t) := List.foldlM_append

@[simp] theorem accept?_nil (r : Reader) : r.accept? [] = r.finish.toOption := rfl

@[simp] theorem accept?_cons (r : Reader) (c : Char) (s : Text) :
    r.accept? (c :: s) = (r.feed c).toOption.bind (·.accept? s) := by
  rw [accept?, read?_cons]
  exact Option.bind_assoc _ _ _

theorem accept?_append (r : Reader) (s t : Text) :
    r.accept? (s ++ t) = (r.read? s).bind (·.accept? t) := by
  rw [accept?, read?_append]
  exact Option.bind_assoc _ _ _

theorem toOption_foldlM (r : Reader) (s : Text) : (s.foldlM feed r).toOption = r.read? s := by
  induction s generalizing r with
  | nil => rfl
  | cons c s ih =>
    rw [List.foldlM_cons, toOption_bind, read?_cons]
    simp only [ih]

theorem toOption_foldlM_finish (r : Reader) (s : Text) :
    (s.foldlM feed r >>= finish).toOption = r.accept? s := by
  rw [toOption_bind, toOption_foldlM, accept?]

/-! ### One token -/

/-- What a value that comes next is read for. -/
def role? (r : Reader) : Option Role :=
  match r.expect with
  | .value role | .valueOrEnd role => some role
  | _ => none

/-- Whether the innermost container may end here, if it is of this shape. -/
def mayClose (r : Reader) (shape : Shape) : Bool :=
  match r.expect, shape with
  | .valueOrEnd _, .array => true
  | .keyOrEnd, .object => true
  | .next, shape => shape = r.innermost
  | _, _ => false

def expectsKey (r : Reader) : Bool := r.expect = .key || r.expect = .keyOrEnd

/-- Whether a key that comes next is read strictly. -/
def readsKeyStrictly (r : Reader) : Bool := r.nested.isEmpty || r.place = .document

/-- The text of a string; if it is not read strictly nobody asks for it. -/
def textOf? (strict : Bool) (us : List Nat) : Option Text := if strict then text? us else some []

/-- Takes in a token. -/
def take? (r : Reader) : Token → Option Reader
  | .opening shape => r.role?.bind fun role => (r.openContainer role shape).toOption
  | .closing shape => if r.mayClose shape then r.close.toOption else none
  | .comma => if r.expect = .next then r.separate.toOption else none
  | .colon =>
    match r.expect with
    | .colon role => some { r with expect := .value role }
    | _ => none
  | .null => r.role?.bind fun role => (r.takeScalar role .null).toOption
  | .boolean b => r.role?.bind fun role => (r.takeScalar role (.boolean b)).toOption
  | .number n => r.role?.bind fun role => (r.takeNumeral role n.numeral).toOption
  | .string us =>
    if r.expectsKey then
      (textOf? r.readsKeyStrictly us).bind fun key => (r.takeKey key).toOption
    else r.role?.bind fun role => (textOf? (r.isStrict role) us).bind fun text =>
      (r.takeScalar role (.string text)).toOption

/-- Takes in a list of tokens. -/
def takeAll? (r : Reader) (τs : List Token) : Option Reader := τs.foldlM take? r

@[simp] theorem takeAll?_nil (r : Reader) : r.takeAll? [] = some r := rfl

@[simp] theorem takeAll?_cons (r : Reader) (τ : Token) (τs : List Token) :
    r.takeAll? (τ :: τs) = (r.take? τ).bind (·.takeAll? τs) := List.foldlM_cons

@[simp] theorem takeAll?_append (r : Reader) (σs τs : List Token) :
    r.takeAll? (σs ++ τs) = (r.takeAll? σs).bind (·.takeAll? τs) := List.foldlM_append

/-! ### Characters between scalars -/

variable {r : Reader}

theorem feed_of_nothing (h : r.reading = .nothing) (c : Char) : r.feed c = r.punctuate c := by
  rw [feed, h]

theorem punctuate_opener (r : Reader) (shape : Shape) :
    (r.punctuate shape.opener).toOption = r.take? (.opening shape) := by
  cases shape <;> cases he : r.expect <;> cases hi : r.innermost <;>
    simp [take?, role?, punctuate, he, hi, Shape.opener, isSpace, beginValue, beginKey, closer,
      Except.toOption]

theorem punctuate_closer (r : Reader) (shape : Shape) :
    (r.punctuate shape.closer).toOption = r.take? (.closing shape) := by
  cases shape <;> cases he : r.expect <;> cases hi : r.innermost <;>
    simp [take?, mayClose, punctuate, he, hi, Shape.closer, isSpace, beginValue, beginKey, closer,
      Lexeme.start?, Except.toOption]

theorem punctuate_comma (r : Reader) : (r.punctuate ',').toOption = r.take? .comma := by
  cases he : r.expect <;>
    simp [take?, punctuate, he, isSpace, beginValue, beginKey, Lexeme.start?, Except.toOption]

theorem punctuate_colon (r : Reader) : (r.punctuate ':').toOption = r.take? .colon := by
  cases he : r.expect <;> cases hi : r.innermost <;>
    simp [take?, punctuate, he, hi, isSpace, beginValue, beginKey, closer, Lexeme.start?,
      Except.toOption]

/-- A character that a scalar other than a string may begin with. -/
def BeginsScalar (c : Char) : Prop := c = 'n' ∨ c = 't' ∨ c = 'f' ∨ c = '-' ∨ c.isDigit = true

theorem punctuate_of_beginsScalar {c : Char} (hc : BeginsScalar c) :
    (r.punctuate c).toOption = r.role?.bind fun role =>
      (Lexeme.start? (r.isStrict role) c).map fun lexeme =>
        { r with reading := .value role lexeme } := by
  have hne : isSpace c = false ∧ c ≠ '[' ∧ c ≠ '{' ∧ c ≠ ']' ∧ c ≠ '}' ∧ c ≠ '"' ∧ c ≠ ',' ∧
      c ≠ ':' := by
    rcases hc with rfl | rfl | rfl | rfl | hc
    · decide
    · decide
    · decide
    · decide
    · have := fun {d} => Numeral.isDigit_ne (d := d) hc
      simp only [isSpace, Bool.or_eq_false_iff, decide_eq_false_iff_not]
      exact ⟨⟨⟨⟨this rfl, this rfl⟩, this rfl⟩, this rfl⟩, this rfl, this rfl, this rfl, this rfl,
        this rfl, this rfl, this rfl⟩
  obtain ⟨hspace, h₁, h₂, h₃, h₄, h₅, h₆, h₇⟩ := hne
  have hbegin : ∀ role, (r.beginValue role c).toOption =
      (Lexeme.start? (r.isStrict role) c).map fun lexeme =>
        { r with reading := .value role lexeme } := by
    intro role
    rw [beginValue, if_neg h₁, if_neg h₂]
    cases Lexeme.start? (r.isStrict role) c <;> rfl
  have hcloser : ∀ shape, c ≠ closer shape := by
    intro shape
    cases shape
    · exact h₃
    · exact h₄
  have hpunctuate : (r.punctuate c).toOption
      = r.role?.bind fun role => (r.beginValue role c).toOption := by
    cases he : r.expect <;>
      simp [role?, punctuate, hspace, he, h₃, h₄, h₅, h₆, h₇, hcloser, beginKey, Except.toOption]
  simp only [hpunctuate, hbegin]

theorem punctuate_quote (r : Reader) :
    (r.punctuate '"').toOption =
      if r.expectsKey then some { r with reading := .key { strict := r.readsKeyStrictly } }
      else r.role?.map fun role =>
        { r with reading := .value role (.string { strict := r.isStrict role }) } := by
  cases he : r.expect <;> cases hi : r.innermost <;>
    simp [expectsKey, readsKeyStrictly, role?, punctuate, he, hi, isSpace, beginValue, beginKey,
      closer, Lexeme.start?, Except.toOption]

theorem punctuate_isSpace {c : Char} (hc : isSpace c = true) : r.punctuate c = .ok r := by
  rw [punctuate, if_pos hc]

theorem read?_spaces (hr : r.reading = .nothing) {space : Text} (h : IsSpaces space) :
    r.read? space = some r := by
  induction space with
  | nil => rfl
  | cons c space ih =>
    rw [read?_cons, feed_of_nothing hr, punctuate_isSpace (h c (by simp))]
    exact ih fun d hd => h d (List.mem_cons_of_mem c hd)

/-! ### Scalars -/

theorem takeScalar_eq_ok {r' : Reader} {role : Role} {found : Outline}
    (h : r.takeScalar role found = .ok r') : r'.expect = .next ∧ r'.reading = .nothing := by
  cases role <;> cases found <;> cases h <;> exact ⟨rfl, rfl⟩

theorem takeNumeral_eq_ok {r' : Reader} {role : Role} {n : Numeral}
    (h : r.takeNumeral role n = .ok r') : r'.expect = .next ∧ r'.reading = .nothing := by
  unfold takeNumeral at h
  split at h
  · split at h
    · exact takeScalar_eq_ok h
    · cases h
  · exact takeScalar_eq_ok h

theorem read?_word (role : Role) (next : Char) (later : Text) (value : Outline) :
    read? { r with reading := .value role (.word next later value) } (next :: later)
      = (r.takeScalar role value).toOption := by
  induction later generalizing next with
  | nil =>
    rw [read?_cons, feed]
    simp only [ne_eq, not_true_eq_false, ↓reduceIte]
    exact Option.bind_fun_some _
  | cons c later ih =>
    rw [read?_cons, feed]
    simp only [ne_eq, not_true_eq_false, ↓reduceIte]
    exact ih c

theorem read?_numeral (role : Role) {n m : Numeral} {s : Text} (h : n.read? s = some m) :
    read? { r with reading := .value role (.numeral n) } s
      = some { r with reading := .value role (.numeral m) } := by
  induction s generalizing n with
  | nil => cases h; rfl
  | cons c s ih =>
    rw [Numeral.read?_cons, Option.bind_eq_some_iff] at h
    obtain ⟨n', hn', hm⟩ := h
    have hfeed : feed { r with reading := .value role (.numeral n) } c
        = .ok { r with reading := .value role (.numeral n') } := by
      simp only [feed, hn']
    rw [read?_cons, hfeed]
    exact ih hm

/-- A number is taken in when the text ends or another token begins. At the end of the text it does
not matter whether it has been: a document does not end with a number. -/
theorem accept?_numeral (role : Role) {n : Numeral} (hn : n.isComplete = true) {t : Text}
    (ht : ∀ c ∈ t.head?, EndsNumber c) :
    accept? { r with reading := .value role (.numeral n) } t
      = (r.takeNumeral role n).toOption.bind (·.accept? t) := by
  have htake : takeNumeral { r with reading := .value role (.numeral n) } role n
      = r.takeNumeral role n := rfl
  cases t with
  | nil =>
    -- both sides come to nothing: the document is not closed, whether the number is taken in or not
    rw [accept?_nil, finish]
    simp only [hn, ↓reduceIte, htake]
    cases h : r.takeNumeral role n with
    | error fault => rfl
    | ok r' =>
      obtain ⟨hexpect, hreading⟩ := takeNumeral_eq_ok h
      simp [finish, hexpect, hreading, Except.toOption, bind, Except.bind]
  | cons c t =>
    obtain ⟨hnone, hends⟩ := Numeral.feed?_eq_none_of_endsNumber hn (ht c rfl)
    rw [accept?_cons, feed]
    simp only [hnone, hends, ↓reduceIte, htake]
    cases h : r.takeNumeral role n with
    | error fault => rfl
    | ok r' =>
      have hfeed := feed_of_nothing (takeNumeral_eq_ok h).2 c
      simp [hfeed, Except.toOption, bind, Except.bind]

theorem read?_quotation {inside : Quotation → Reader} {finish : Text → Option Reader}
    (hfeed : ReadsQuotation (fun r c => (r.feed c).toOption) inside finish) {us : List Nat}
    {s : Text} (h : WritesUnits us s) (strict : Bool)
    (hany : strict = false → ∀ text, finish text = finish []) :
    (inside { strict }).read? (s ++ ['"']) = (textOf? strict us).bind finish := by
  cases strict with
  | true =>
    have := (hfeed.foldlM_strict h [] { strict := true } rfl).1 rfl
    rw [read?, this, textOf?, if_pos rfl]
    simp
  | false =>
    obtain ⟨text, htext⟩ := hfeed.foldlM_lenient h [] { strict := false } rfl rfl
    rw [read?, htext, hany rfl text]
    simp [textOf?]

theorem readsQuotation_key (r : Reader) :
    ReadsQuotation (fun r c => (r.feed c).toOption) (fun q => { r with reading := .key q })
      fun key => (r.takeKey key).toOption := by
  intro q c
  cases h : q.feed c <;> simp only [feed, h] <;> rfl

theorem readsQuotation_value (r : Reader) (role : Role) :
    ReadsQuotation (fun r c => (r.feed c).toOption)
      (fun q => { r with reading := .value role (.string q) })
      fun text => (r.takeScalar role (.string text)).toOption := by
  intro q c
  cases h : q.feed c <;> simp only [feed, h] <;> rfl

theorem takeKey_of_not_readsKeyStrictly (h : r.readsKeyStrictly = false) (key : Text) :
    r.takeKey key = .ok { r with expect := .colon .ignored, reading := .nothing } := by
  simp only [readsKeyStrictly, Bool.or_eq_false_iff] at h
  rw [takeKey]
  simp [h.1]

theorem takeScalar_of_not_isStrict {role : Role} (h : r.isStrict role = false) (found : Outline) :
    r.takeScalar role found = .ok { r with expect := .next, reading := .nothing } := by
  obtain ⟨rfl, -⟩ : role = .ignored ∧ r.place ≠ .document := by simpa [isStrict] using h
  cases found <;> rfl

/-! ### Whole texts -/

theorem read?_token {τ : Token} {s : Text} (hτ : τ.WrittenAs s) (hr : r.reading = .nothing)
    (hnumber : τ.isNumber = false) : r.read? s = r.take? τ := by
  have hone : ∀ c, r.read? [c] = (r.punctuate c).toOption := by
    intro c
    rw [read?_cons, feed_of_nothing hr]
    exact Option.bind_fun_some _
  cases hτ with
  | opening shape => rw [hone, punctuate_opener]
  | closing shape => rw [hone, punctuate_closer]
  | comma => rw [hone, punctuate_comma]
  | colon => rw [hone, punctuate_colon]
  | null =>
    change r.read? ('n' :: 'u' :: "ll".toList) = _
    rw [read?_cons, feed_of_nothing hr, punctuate_of_beginsScalar (.inl rfl), take?]
    cases r.role? with
    | none => rfl
    | some role => exact read?_word role 'u' "ll".toList .null
  | true =>
    change r.read? ('t' :: 'r' :: "ue".toList) = _
    rw [read?_cons, feed_of_nothing hr, punctuate_of_beginsScalar (.inr (.inl rfl)), take?]
    cases r.role? with
    | none => rfl
    | some role => exact read?_word role 'r' "ue".toList (.boolean true)
  | false =>
    change r.read? ('f' :: 'a' :: "lse".toList) = _
    rw [read?_cons, feed_of_nothing hr, punctuate_of_beginsScalar (.inr (.inr (.inl rfl))), take?]
    cases r.role? with
    | none => rfl
    | some role => exact read?_word role 'a' "lse".toList (.boolean false)
  | number n => cases hnumber
  | string writes =>
    rw [read?_cons, feed_of_nothing hr, punctuate_quote, take?]
    split
    · rw [Option.bind_some, read?_quotation (readsQuotation_key r) writes]
      intro hstrict text
      rw [takeKey_of_not_readsKeyStrictly hstrict, takeKey_of_not_readsKeyStrictly hstrict]
    · cases r.role? with
      | none => rfl
      | some role =>
        rw [Option.map_some, Option.bind_some, read?_quotation (readsQuotation_value r role) writes]
        · rfl
        · intro hstrict text
          rw [takeScalar_of_not_isStrict hstrict, takeScalar_of_not_isStrict hstrict]

/-- A number is read, but not taken in before it is known to end. -/
theorem read?_number (n : Number) (hr : r.reading = .nothing) :
    r.read? n.text
      = r.role?.map fun role => { r with reading := .value role (.numeral n.numeral) } := by
  obtain ⟨c, s, htext, hc, hread⟩ := n.read?_number
  have hstart : ∀ strict, Lexeme.start? strict c = some (.numeral (.start c)) := by
    intro strict
    rcases hc with rfl | hc
    · rfl
    · have := fun {d} => Numeral.isDigit_ne (d := d) hc
      rw [Lexeme.start?, if_neg (this rfl), if_neg (this rfl), if_neg (this rfl),
        if_neg (this rfl), if_pos (by simp [hc])]
  rw [htext, read?_cons, feed_of_nothing hr, punctuate_of_beginsScalar (.inr (.inr (.inr hc)))]
  cases r.role? with
  | none => rfl
  | some role =>
    simp only [Option.bind_some, hstart, Option.map_some]
    exact read?_numeral role hread

theorem accept?_token {τ : Token} {s : Text} (hτ : τ.WrittenAs s) (hr : r.reading = .nothing)
    {t : Text} (ht : τ.isNumber = true → ∀ c ∈ t.head?, EndsNumber c) :
    r.accept? (s ++ t) = (r.take? τ).bind (·.accept? t) := by
  cases hnumber : τ.isNumber with
  | false => rw [accept?_append, read?_token hτ hr hnumber]
  | true =>
    cases hτ with
    | number n =>
      rw [accept?_append, read?_number n hr, take?]
      cases r.role? with
      | none => rfl
      | some role => exact accept?_numeral role n.isComplete_numeral (ht rfl)
    | _ => cases hnumber

theorem openNested_reading {r' : Reader} {shape : Shape} (hr : r.reading = .nothing)
    (h : r.openNested shape = .ok r') : r'.reading = .nothing := by
  rw [openNested] at h
  split at h <;> cases h
  exact hr

theorem openContainer_reading {r' : Reader} {role : Role} {shape : Shape}
    (hr : r.reading = .nothing) (h : r.openContainer role shape = .ok r') :
    r'.reading = .nothing := by
  cases role with
  | ignored => exact openNested_reading hr h
  | attributify =>
    refine openNested_reading ?_ h
    exact hr
  | document | theme | rules | encoded => cases shape <;> cases h <;> exact hr

theorem close_reading {r' : Reader} (hr : r.reading = .nothing) (h : r.close = .ok r') :
    r'.reading = .nothing := by
  rw [close] at h
  split at h
  case h_2 =>
    cases hs : settle r.attributify with
    | error fault => rw [hs] at h; cases h
    | ok attributify => rw [hs] at h; cases h; exact hr
  all_goals cases h; exact hr

theorem separate_reading {r' : Reader} (hr : r.reading = .nothing) (h : r.separate = .ok r') :
    r'.reading = .nothing := by
  rw [separate] at h
  split at h <;> cases h <;> exact hr

theorem takeKey_reading {r' : Reader} {key : Text} (h : r.takeKey key = .ok r') :
    r'.reading = .nothing := by
  simp only [takeKey] at h
  repeat' split at h
  all_goals cases h
  all_goals rfl

theorem take?_reading {r' : Reader} {τ : Token} (hr : r.reading = .nothing)
    (h : r.take? τ = some r') : r'.reading = .nothing := by
  cases τ with
  | opening shape =>
    obtain ⟨role, -, h⟩ := Option.bind_eq_some_iff.1 h
    exact openContainer_reading hr (toOption_eq_some h)
  | closing shape =>
    rw [take?] at h
    split at h
    · exact close_reading hr (toOption_eq_some h)
    · cases h
  | comma =>
    rw [take?] at h
    split at h
    · exact separate_reading hr (toOption_eq_some h)
    · cases h
  | colon =>
    rw [take?] at h
    split at h <;> cases h
    exact hr
  | null =>
    obtain ⟨role, -, h⟩ := Option.bind_eq_some_iff.1 h
    exact (takeScalar_eq_ok (toOption_eq_some h)).2
  | boolean b =>
    obtain ⟨role, -, h⟩ := Option.bind_eq_some_iff.1 h
    exact (takeScalar_eq_ok (toOption_eq_some h)).2
  | number n =>
    obtain ⟨role, -, h⟩ := Option.bind_eq_some_iff.1 h
    exact (takeNumeral_eq_ok (toOption_eq_some h)).2
  | string us =>
    rw [take?] at h
    split at h
    · obtain ⟨key, -, h⟩ := Option.bind_eq_some_iff.1 h
      exact takeKey_reading (toOption_eq_some h)
    · obtain ⟨role, -, h⟩ := Option.bind_eq_some_iff.1 h
      obtain ⟨text, -, h⟩ := Option.bind_eq_some_iff.1 h
      exact (takeScalar_eq_ok (toOption_eq_some h)).2

/-- Over a text the reader does what it does over the tokens that the text is written for. -/
theorem accept?_lays {τs : List Token} {t : Text} (h : Lays τs t) (hτs : NumbersApart τs)
    (hr : r.reading = .nothing) :
    r.accept? t = (r.takeAll? τs).bind (·.finish.toOption) := by
  -- on the layout: white space changes nothing, and a token is taken in with what ends it in sight
  induction h generalizing r with
  | @nil space hspace =>
    rw [accept?, read?_spaces hr hspace]
    rfl
  | @cons space s t τ τs hspace hwritten hrest ih =>
    have hhead : τ.isNumber = true → ∀ c ∈ t.head?, EndsNumber c := by
      intro hτ
      refine hrest.head_endsNumber fun σ hσ => ?_
      obtain ⟨σs, rfl⟩ := List.head?_eq_some_iff.1 hσ
      exact (List.isChain_cons_cons.1 hτs).1 hτ
    rw [accept?_append, read?_spaces hr hspace, Option.bind_some, accept?_token hwritten hr hhead,
      takeAll?_cons, Option.bind_assoc]
    cases hr' : r.take? τ with
    | none => rfl
    | some r' => exact ih hτs.of_cons (take?_reading hr hr')

end Reader

/-- Over the text of a value, parsing takes in the value's tokens. -/
theorem toOption_parse {v : Value} {text : Text} (h : v.IsWrittenAs text) :
    (parse text).toOption
      = (({} : Reader).takeAll? v.tokens).bind fun r => r.finish.toOption :=
  (Reader.toOption_foldlM_finish {} text).trans (Reader.accept?_lays h v.numbersApart_tokens rfl)

end VariantSelector.Config
