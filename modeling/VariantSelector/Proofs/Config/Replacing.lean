import VariantSelector.Proofs.Config.Precedence

/-!
Documents that begin alike, but for the values of `attributifyPseudo`, and go on with the same text.
If something else is wrong with one of them before its closing brace, the same is reported for both
(`parse_fault_unmasked`).
-/

namespace VariantSelector

open Config

namespace Json

theorem Token.ne_nil_of_writtenAs {τ : Token} {s : Text} (h : τ.WrittenAs s) : s ≠ [] := by
  cases hnumber : τ.isNumber with
  | false =>
    obtain ⟨c, t, rfl, -⟩ := τ.exists_cons_of_writtenAs h hnumber
    exact List.cons_ne_nil c t
  | true =>
    cases h with
    | number n =>
      obtain ⟨c, s, htext, -⟩ := n.read?_number
      rw [htext]
      exact List.cons_ne_nil c s
    | _ => cases hnumber

theorem Lays.eq_nil {τs : List Token} (h : Lays τs []) : τs = [] := by
  generalize ht : ([] : Text) = t at h
  cases h with
  | nil => rfl
  | @cons space s t τ τs hspace hwritten hrest =>
    obtain ⟨-, hs, -⟩ : space = [] ∧ s = [] ∧ t = [] := by simpa using ht.symm
    exact absurd hs (Token.ne_nil_of_writtenAs hwritten)

/-- The tokens of an object that is still open behind these members. -/
def openObject (members : List (List Nat × Value)) : List Token :=
  .opening .object :: [.comma].intercalate (members.map tokensOfMember)

theorem numbersApart_openObject (members : List (List Nat × Value)) :
    NumbersApart (openObject members) := by
  have h := (Value.object members).numbersApart_tokens
  rw [Value.tokens, memberTokens_eq, inContainer, ← List.cons_append] at h
  exact h.left_of_append

/-- The text begins with an object and these members of it, and goes on with `rest`. Where the last
of them ends with a number `rest` does not begin with more of it: in front of a `5` there is no
value `1`, but the beginning of `15`. -/
inductive BeginsWith (members : List (List Nat × Value)) (rest : Text) : Text → Prop
  | intro {s : Text} (lays : Lays (openObject members) s)
      (ends : ∀ τ ∈ (openObject members).getLast?, τ.isNumber = true →
        ∀ c ∈ rest.head?, EndsNumber c) :
      BeginsWith members rest (s ++ rest)

/-- The same member, or one that sets `attributifyPseudo` to another value within the limits of the
reader. -/
def Replaces (m m' : List Nat × Value) : Prop :=
  m' = m ∨ m.1 = units Field.attributifyPseudo.name ∧ m'.1 = m.1 ∧
    m'.2.isWithin (maxDepth - 1) = true

/-- Nothing is wrong with these members of a document, unless with what `attributifyPseudo` is. -/
structure Untroubled (members : List (List Nat × Value)) : Prop where
  isReadable : (Value.object members).isReadable = true
  theme : (only? Value.themeRules? (valuesOf Field.theme.name members)).isSome = true

theorem valuesOf_theme_of_replaces {members members' : List (List Nat × Value)}
    (h : List.Forall₂ Replaces members members') :
    valuesOf Field.theme.name members' = valuesOf Field.theme.name members := by
  have hnames : units Field.attributifyPseudo.name ≠ units Field.theme.name := by decide
  induction h with
  | nil => rfl
  | cons hm _ ih =>
    rw [Reader.valuesOf_cons, Reader.valuesOf_cons, ih]
    rcases hm with rfl | ⟨hname, hsame, -⟩
    · rfl
    · rw [hsame, hname, if_neg hnames, if_neg hnames]

theorem Untroubled.of_replaces {members members' : List (List Nat × Value)}
    (h : Untroubled members) (hreplaces : List.Forall₂ Replaces members members') :
    Untroubled members' := by
  have hnames : units Field.attributifyPseudo.name ≠ units Field.theme.name := by decide
  refine ⟨?_, by rw [valuesOf_theme_of_replaces hreplaces]; exact h.theme⟩
  have hreadable : members.all isReadableMember = true := h.isReadable
  change members'.all isReadableMember = true
  clear h
  induction hreplaces with
  | nil => rfl
  | cons hm _ ih =>
    rw [List.all_cons, Bool.and_eq_true] at hreadable ⊢
    refine ⟨?_, ih hreadable.2⟩
    rcases hm with rfl | ⟨hname, hsame, hwithin⟩
    · exact hreadable.1
    · have hkey := hreadable.1
      simp only [isReadableMember, Bool.and_eq_true, hsame, hname, if_neg hnames] at hkey ⊢
      exact ⟨hkey.1, hwithin⟩

end Json

namespace Config.Reader

open Json

variable {r : Reader}

/-! ### The beginning of a document -/

/-- Over what a token is written as the reader gets to where the token leads, but for a number,
which it still has to take in. -/
theorem read?_writtenAs {τ : Token} {s : Text} (h : τ.WrittenAs s) {r' : Reader}
    (hr : r.reading = .nothing) (htake : r.take? τ = some r') :
    ∃ r₀, r.read? s = some r₀ ∧ r₀.endNumber = .ok r' ∧ (r₀ = r' ∨ τ.isNumber = true) := by
  cases hnumber : τ.isNumber with
  | false =>
    exact ⟨r', by rw [read?_token h hr hnumber, htake],
      endNumber_of_nothing (take?_reading hr htake), .inl rfl⟩
  | true =>
    cases h with
    | number n =>
      rw [take?] at htake
      obtain ⟨role, hrole, htaken⟩ := Option.bind_eq_some_iff.1 htake
      refine ⟨_, by rw [read?_number n hr, hrole, Option.map_some], ?_, .inr rfl⟩
      rw [endNumber_of_numeral rfl, if_pos n.isComplete_numeral]
      exact toOption_eq_some htaken
    | _ => cases hnumber

/-- Over a text that tokens are written for the reader gets to where they lead, up to a number that
stands at the end. -/
theorem read?_lays {τs : List Token} {s : Text} (h : Lays τs s) (hτs : NumbersApart τs)
    {r' : Reader} (hr : r.reading = .nothing) (htake : r.takeAll? τs = some r') :
    ∃ r₀, r.read? s = some r₀ ∧ r₀.endNumber = .ok r' ∧
      (r₀ = r' ∨ ∃ τ ∈ τs.getLast?, τ.isNumber = true) := by
  induction h generalizing r with
  | @nil space hspace =>
    obtain rfl : r = r' := Option.some.inj htake
    exact ⟨r, read?_spaces hr hspace, endNumber_of_nothing hr, .inl rfl⟩
  | @cons space s t τ τs hspace hwritten hrest ih =>
    rw [takeAll?_cons] at htake
    obtain ⟨r₁, hr₁, htakes⟩ := Option.bind_eq_some_iff.1 htake
    obtain ⟨r₂, hread₂, hend₂, hr₂⟩ := read?_writtenAs hwritten hr hr₁
    rw [read?_append, read?_spaces hr hspace, Option.bind_some, read?_append, hread₂,
      Option.bind_some]
    cases t with
    | nil =>
      -- the token is the last one, and may be a number that is still to be taken in
      obtain rfl := hrest.eq_nil
      obtain rfl : r₁ = r' := Option.some.inj htakes
      exact ⟨r₂, rfl, hend₂, hr₂.imp id fun hnumber => ⟨τ, rfl, hnumber⟩⟩
    | cons c t =>
      obtain ⟨r₀, hread, hend, hlast⟩ := ih hτs.of_cons (take?_reading hr hr₁) htakes
      refine ⟨r₀, ?_, hend, hlast.imp id fun ⟨σ, hσ, hnumber⟩ => ⟨σ, ?_, hnumber⟩⟩
      · rcases hr₂ with rfl | hnumber
        · exact hread
        · have hc : EndsNumber c := by
            refine hrest.head_endsNumber (fun σ hσ => ?_) c rfl
            obtain ⟨σs, rfl⟩ := List.head?_eq_some_iff.1 hσ
            exact (List.isChain_cons_cons.1 hτs).1 hnumber
          rw [read?_cons, feed_of_endNumber hend₂ hc, ← read?_cons]
          exact hread
      · rw [Option.mem_def] at hσ
        rw [Option.mem_def, List.getLast?_cons, hσ]
        rfl

/-- The reader behind some members, of which the first may have been behind a comma. -/
theorem takeAll?_memberList (m : List Nat × Value) (members : List (List Nat × Value)) (met : Met)
    {expect : Expect} (hkey : ((inDocument met).expecting expect).expectsKey = true) :
    ((inDocument met).expecting expect).takeAll?
        ([.comma].intercalate ((m :: members).map tokensOfMember))
      = ((m :: members).foldlM takeMember? met).map fun met =>
        (inDocument met).expecting .next := by
  induction members generalizing m met expect with
  | nil =>
    rw [List.map_singleton, List.intercalate_singleton, takeAll?_documentMember met hkey]
    simp
  | cons n members ih =>
    rw [List.map_cons, List.map_cons, List.intercalate_cons_cons, List.append_assoc,
      takeAll?_append, takeAll?_documentMember met hkey, List.foldlM_cons]
    cases takeMember? met m with
    | none => rfl
    | some met => exact ih n met rfl

/-- The reader behind members of the document, which ends among them or goes on with a comma. -/
def afterMembers (members : List (List Nat × Value)) (met : Met) : Reader :=
  (inDocument met).expecting (if members = [] then .keyOrEnd else .next)

theorem takeAll?_openObject (members : List (List Nat × Value)) :
    ({} : Reader).takeAll? (openObject members)
      = (members.foldlM takeMember? {}).map (afterMembers members) := by
  have hopening : take? {} (.opening .object) = some ((inDocument {}).expecting .keyOrEnd) := rfl
  rw [openObject, takeAll?_cons, hopening, Option.bind_some]
  cases members with
  | nil => rfl
  | cons m members =>
    rw [takeAll?_memberList m members {} rfl]
    rfl

theorem inProgress_afterMembers (members : List (List Nat × Value)) (met : Met) :
    (afterMembers members met).InProgress := by
  cases members <;> exact .of_expect (by simp [afterMembers]) (by simp [afterMembers])

theorem afterMembers_eq_behind (members : List (List Nat × Value)) (values : List Outline)
    (theme : Option (Shape × Option TransformRules)) :
    afterMembers members { attributify := values, theme }
      = (afterMembers members { theme }).behind values := by
  simp [afterMembers, inDocument, behind, expecting]

/-- What untroubled members leave behind: the theme, and the values of `attributifyPseudo`. -/
theorem foldlM_takeMember?_of_untroubled {members : List (List Nat × Value)}
    (h : Untroubled members) :
    ∃ theme, only? readTheme? (valuesOf Field.theme.name members) = some theme ∧
      members.foldlM takeMember? {} = some
        { attributify := (valuesOf Field.attributifyPseudo.name members).map Value.outline
          theme } := by
  have hreadable : members.all isReadableMember = true := h.isReadable
  have hrules := only?_readTheme? (valuesOf Field.theme.name members)
  obtain ⟨rules, hsome⟩ := Option.isSome_iff_exists.1 h.theme
  rw [hsome] at hrules
  obtain ⟨theme, htheme, -⟩ := Option.map_eq_some_iff.1 hrules
  refine ⟨theme, htheme, ?_⟩
  have hfold := foldlM_takeMember? members [] none
  rw [if_pos hreadable, foldlM_set?, htheme] at hfold
  exact hfold

/-! ### Going on behind the beginning -/

theorem run_of_endNumber {r₀ r₁ : Reader} (hend : r₀.endNumber = .ok r₁) {t : Text}
    (hfeed : ∀ c ∈ t.head?, r₀.feed c = r₁.feed c) : r₀.run t = r₁.run t := by
  cases t with
  | nil =>
    rcases eq_or_of_endNumber hend with rfl | ⟨role, n, hreading, hcomplete, htake⟩
    · rfl
    · obtain ⟨hnext, hnothing⟩ := takeNumeral_eq_ok htake
      change r₀.finish = r₁.finish
      rw [finish, finish, hreading, hnothing, hnext]
      simp only [hcomplete, ↓reduceIte, htake]
      rfl
  | cons c t => rw [run_cons, run_cons, hfeed c rfl]

theorem closes_of_endNumber {r₀ r₁ : Reader} (hend : r₀.endNumber = .ok r₁) {t : Text}
    (hfeed : ∀ c ∈ t.head?, r₀.feed c = r₁.feed c) {values : List Outline}
    (h : r₁.Closes t values) : r₀.Closes t values := by
  obtain ⟨inside, rest, r₂, r₃, rfl, hread, hbrace⟩ := h
  cases inside with
  | nil =>
    cases hread
    refine ⟨[], rest, r₀, r₃, rfl, rfl, ?_, hbrace.2⟩
    rcases eq_or_of_endNumber hend with rfl | ⟨role, n, -, -, htake⟩
    · exact hbrace.1
    · rw [endNumber_of_nothing (takeNumeral_eq_ok htake).2] at hbrace
      exact hend.trans hbrace.1
  | cons c inside =>
    refine ⟨c :: inside, rest, r₂, r₃, rfl, ?_, hbrace⟩
    rw [List.foldlM_cons, hfeed c rfl]
    exact hread

theorem Closes.append {r₀ : Reader} {s t : Text} {values : List Outline}
    (hread : s.foldlM feed r = .ok r₀) (h : r₀.Closes t values) : r.Closes (s ++ t) values := by
  obtain ⟨inside, rest, r₁, r₂, rfl, hinside, hbrace⟩ := h
  refine ⟨s ++ inside, rest, r₁, r₂, by rw [List.append_assoc], ?_, hbrace⟩
  rw [List.foldlM_append, hread]
  exact hinside

/-- Behind untroubled members the document goes on as the theme among them has it, with some values
of `attributifyPseudo` met. -/
theorem exists_of_beginsWith {members : List (List Nat × Value)} {rest text : Text}
    (h : BeginsWith members rest text) (hmembers : Untroubled members) :
    ∃ theme values, only? readTheme? (valuesOf Field.theme.name members) = some theme ∧
      ({} : Reader).run text = ((afterMembers members { theme }).behind values).run rest ∧
      ∀ found, ((afterMembers members { theme }).behind values).Closes rest found →
        ({} : Reader).Closes text found := by
  obtain ⟨hlays, hends⟩ := h
  obtain ⟨theme, htheme, hmet⟩ := foldlM_takeMember?_of_untroubled hmembers
  have htake := takeAll?_openObject members
  rw [hmet, Option.map_some, afterMembers_eq_behind] at htake
  obtain ⟨r₀, hread, hend, hlast⟩ := read?_lays hlays (numbersApart_openObject members) rfl htake
  have hfold := toOption_eq_some ((toOption_foldlM _ _).trans hread)
  refine ⟨theme, (valuesOf Field.attributifyPseudo.name members).map Value.outline, htheme, ?_⟩
  generalize (afterMembers members { theme }).behind _ = r₁ at hend hlast ⊢
  -- a number at the end of the members is taken in with what follows
  have hfeed : ∀ c ∈ rest.head?, r₀.feed c = r₁.feed c := by
    intro c hc
    rcases hlast with rfl | ⟨τ, hτ, hnumber⟩
    · rfl
    · exact feed_of_endNumber hend (hends τ hτ hnumber c hc)
  refine ⟨?_, fun found hfound => (closes_of_endNumber hend hfeed hfound).append hfold⟩
  rw [run_append hfold, run_of_endNumber hend hfeed]

end Config.Reader

namespace Config

open Json Reader

/-- What is wrong with a document before its closing brace is never hidden by `attributifyPseudo`.
If its object does not close, the fault that is reported is about something else, and the same
whatever the values are that `attributifyPseudo` has among the members in front of the problem. A
fault about these values is reported only if the object closes without another problem. -/
theorem parse_fault_unmasked :
    (∀ members members' rest text text', BeginsWith members rest text →
      BeginsWith members' rest text' → Untroubled members →
      List.Forall₂ Replaces members members' → (∀ values, ¬ ({} : Reader).Closes text values) →
        ∃ fault : Fault, fault.isAttributify = false ∧ parse text = .error fault ∧
          parse text' = .error fault) ∧
    ∀ (text : Text) (fault : Fault), fault.isAttributify = true →
      (parse text = .error fault ↔
        ∃ values, ({} : Reader).Closes text values ∧ settle values = .error fault) := by
  refine ⟨?_, fun text fault => parse_eq_error_attributify_iff⟩
  intro members members' rest text text' h h' hmembers hreplaces hopen
  obtain ⟨theme, values, htheme, hrun, hcloses⟩ := exists_of_beginsWith h hmembers
  obtain ⟨theme', values', htheme', hrun', -⟩ :=
    exists_of_beginsWith h' (hmembers.of_replaces hreplaces)
  rw [valuesOf_theme_of_replaces hreplaces, htheme, Option.some.injEq] at htheme'
  subst htheme'
  have hsame : afterMembers members' { theme } = afterMembers members { theme } := by
    cases hreplaces <;> rfl
  obtain ⟨fault, hfault, hfails⟩ := (inProgress_afterMembers members { theme }).fails_run values
    fun found hfound => hopen found (hcloses found hfound)
  rw [hsame] at hrun'
  exact ⟨fault, hfault, hrun.trans (hfails values), hrun'.trans (hfails values')⟩

/-- In `{"attributifyPseudo":[],"theme":null` the theme is at fault, as it is with `true` in the
place of the array, which would be at fault itself. -/
theorem parse_fault_unmasked_theme :
    let text := "\x7b\"attributifyPseudo\":[],\"theme\":null".toList
    let text' := "\x7b\"attributifyPseudo\":true,\"theme\":null".toList
    (∀ values, ¬ ({} : Reader).Closes text values) ∧
      ∃ fault : Fault, fault.isAttributify = false ∧ parse text = .error fault ∧
        parse text' = .error fault := by
  intro text text'
  have hlays : Lays (openObject [(units "attributifyPseudo".toList, .array [])]) _ :=
    Lays.token (.opening .object) <| .token (.plain "attributifyPseudo".toList rfl) <|
    .token .colon <| .token (.opening .array) <| .token (.closing .array) .done
  have hlays' : Lays (openObject [(units "attributifyPseudo".toList, .boolean true)]) _ :=
    Lays.token (.opening .object) <| .token (.plain "attributifyPseudo".toList rfl) <|
    .token .colon <| .token .true .done
  have hcomma : ∀ c ∈ ",\"theme\":null".toList.head?, EndsNumber c := by
    rintro _ ⟨⟩
    decide
  have hbegins := BeginsWith.intro hlays fun _ _ _ => hcomma
  have hbegins' := BeginsWith.intro hlays' fun _ _ _ => hcomma
  have hopen : ∀ values, ¬ ({} : Reader).Closes text values := by
    rintro values ⟨inside, rest, -, -, htext, -⟩
    have hbrace : '}' ∈ text := by rw [htext]; simp
    exact absurd hbrace (by decide)
  exact ⟨hopen, parse_fault_unmasked.1 _ _ _ text text' hbegins hbegins' ⟨by decide, by decide⟩
    (.cons (.inr ⟨rfl, rfl, by decide⟩) .nil) hopen⟩

end Config

end VariantSelector
