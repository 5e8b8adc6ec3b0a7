import VariantSelector.Proofs.Config.Theme

/-!
What configuration a document is (`Value.config?`), stated over its value as a whole, and that
parsing the document's text gives that configuration and no other (`parse_written`).
-/

namespace VariantSelector

open Config

/-! ### Documents as values -/

namespace Json

def Value.boolean? : Value → Option Bool
  | .boolean b => some b
  | _ => none

/-- The configuration that a document is: an object that may set `attributifyPseudo` and `theme`
once each. Its other members do not matter, nor do those of the theme. -/
def Value.config? : Value → Option Config
  | .object members => do
    let attributify ← only? boolean? (valuesOf Field.attributifyPseudo.name members)
    let theme ← only? themeRules? (valuesOf Field.theme.name members)
    some { attributify := attributify.getD false, rules := theme.join.getD [] }
  | _ => none

/-- Whether a member of the document can be read, whatever it is for. -/
def isReadableMember (m : List Nat × Value) : Bool :=
  (text? m.1).isSome &&
    if m.1 = units Field.theme.name then m.2.hasReadableKeys else m.2.isWithin (maxDepth - 1)

/-- Whether a document keeps to the limits of the reader: its keys and those of the theme have a
text, and the values of its other members are within the limits of a strict reader. -/
def Value.isReadable : Value → Bool
  | .object members => members.all isReadableMember
  | _ => true

/-- The value as it is known when it has been read. -/
def Value.outline : Value → Outline
  | .null => .null
  | .boolean b => .boolean b
  | .number n => n.numeral.outline?.getD .null
  | .string us => .string ((text? us).getD [])
  | .array _ => .container .array
  | .object _ => .container .object

end Json

namespace Config.Reader

open Json

variable {r : Reader}

/-! ### Reading the document -/

/-- What has been met between two members of the document. -/
structure Met where
  /-- The values of `attributifyPseudo`. -/
  attributify : List Outline := []
  /-- The shape of the theme and the rules that it gives, if it has been met. -/
  theme : Option (Shape × Option TransformRules) := none

/-- The reader between two members of the document. -/
def inDocument (met : Met) : Reader where
  attributify := met.attributify
  theme := met.theme.map fun theme => theme.2.getD []
  rules := met.theme.bind fun theme => theme.2
  themeShape := met.theme.elim .object fun theme => theme.1

/-- A value that is read for `attributifyPseudo` is passed over, but for its outline. -/
theorem takeAll?_attributify (hr : r.reading = .nothing) (hplace : r.place = .document)
    (hnested : r.nested = []) (hrole : r.role? = some .attributify) (v : Value) :
    r.takeAll? v.tokens
      = if v.isWithin (maxDepth - 1) then
          some ({ r with attributify := r.attributify ++ [v.outline] }.expecting .next)
        else none := by
  -- with the outline noted at once, the rest is what it would be if nobody asked
  have hpassed := takeAll?_ignored v
    (r := { r with attributify := r.attributify ++ [v.outline] }.expecting (.value .ignored)) hr rfl
  have hallows : ({ r with attributify := r.attributify ++ [v.outline] }.expecting
      (.value .ignored)).allows (v.isWithin ·) = v.isWithin (maxDepth - 1) := by
    simp [allows, hplace, hnested]
  rw [hallows, expecting_expecting] at hpassed
  rw [← hpassed]
  cases v with
  | null | boolean | array | object =>
    simp only [Value.tokens, inContainer, takeAll?_cons, take?, hrole]
    rfl
  | number n =>
    simp only [Value.tokens, takeAll?_cons, take?, hrole]
    cases hn : n.numeral.outline? with
    | none => simp [takeNumeral, isStrict, hplace, hn, role?, expecting, Except.toOption]
    | some found =>
      simp [takeNumeral, takeScalar, isStrict, hplace, hn, role?, expecting, Except.toOption,
        Value.outline]
  | string us =>
    have hkey := expectsKey_of_role? hrole
    simp only [Value.tokens, takeAll?_cons, take?, hrole, hkey]
    cases hus : text? us with
    | none => simp [textOf?, isStrict, hplace, hus, role?, expecting, Except.toOption, expectsKey]
    | some text =>
      simp [textOf?, takeScalar, isStrict, hplace, hus, role?, expecting, Except.toOption,
        expectsKey, Value.outline]

/-- What is kept of a theme: its shape and its rules. -/
def readTheme? (v : Value) : Option (Shape × Option TransformRules) :=
  v.themeRules?.map fun rules => (v.shape, rules)

/-- Takes in a member of the document. -/
def takeMember? (met : Met) (m : List Nat × Value) : Option Met :=
  if isReadableMember m then
    if m.1 = units Field.theme.name then
      (set? readTheme? met.theme m.2).map fun theme => { met with theme }
    else if m.1 = units Field.attributifyPseudo.name then
      some { met with attributify := met.attributify ++ [m.2.outline] }
    else some met
  else none

theorem takeAll?_documentMember (met : Met) {expect : Expect}
    (hkey : ((inDocument met).expecting expect).expectsKey = true) (m : List Nat × Value) :
    ((inDocument met).expecting expect).takeAll? (tokensOfMember m)
      = (takeMember? met m).map fun met => (inDocument met).expecting .next := by
  have htake : ∀ key, (((inDocument met).expecting expect).takeKey key).toOption
      = (if key = Field.theme.name then
          if met.theme.isSome then none else some Role.theme
        else if key = Field.attributifyPseudo.name then some .attributify
        else some .ignored).map fun role =>
          ((inDocument met).expecting expect).expecting (.colon role) := by
    intro key
    obtain ⟨attributify, theme⟩ := met
    by_cases htheme : key = Field.theme.name
    · cases theme <;> simp [takeKey, inDocument, expecting, htheme, Except.toOption]
    · by_cases hattributify : key = Field.attributifyPseudo.name
      · have hnames : Field.attributifyPseudo.name ≠ Field.theme.name := by decide
        simp [takeKey, inDocument, expecting, hattributify, hnames, Except.toOption]
      · simp [takeKey, inDocument, expecting, htheme, hattributify, Except.toOption]
  have hstrict : ((inDocument met).expecting expect).readsKeyStrictly = true := rfl
  rw [takeAll?_member hkey htake, hstrict, textOf?, if_pos rfl, takeMember?, isReadableMember]
  cases htext : text? m.1 with
  | none => rfl
  | some key =>
    simp only [← eq_iff_of_text? htext, Option.bind_some, Option.isSome_some, Bool.true_and,
      expecting_expecting]
    by_cases htheme : key = Field.theme.name
    · have hvalue := takeAll?_theme
        (r := (inDocument met).expecting (.value .theme)) rfl rfl rfl m.2
      obtain ⟨attributify, theme⟩ := met
      simp only [htheme, ↓reduceIte]
      cases theme with
      -- refused at the key: whether the second theme could be read does not matter
      | some theme => cases m.2.hasReadableKeys <;> rfl
      | none =>
        simp only [Option.isSome_none, Bool.false_eq_true, ↓reduceIte, Option.bind_some, hvalue,
          set?, readTheme?]
        cases m.2.hasReadableKeys with
        | false => rfl
        | true => cases m.2.themeRules? <;> rfl
    · simp only [htheme, ↓reduceIte]
      by_cases hattributify : key = Field.attributifyPseudo.name
      · have hvalue := takeAll?_attributify
          (r := (inDocument met).expecting (.value .attributify)) rfl rfl rfl rfl m.2
        simp only [hattributify, ↓reduceIte, Option.bind_some, hvalue]
        cases m.2.isWithin (maxDepth - 1) <;> rfl
      · have hvalue := takeAll?_ignored
          (r := (inDocument met).expecting (.value .ignored)) m.2 rfl rfl
        have hallows : ((inDocument met).expecting (.value .ignored)).allows (m.2.isWithin ·)
            = m.2.isWithin (maxDepth - 1) := rfl
        simp only [hattributify, ↓reduceIte, Option.bind_some, hvalue, hallows]
        cases m.2.isWithin (maxDepth - 1) <;> rfl

theorem foldlM_takeMember? (members : List (List Nat × Value)) (attributify : List Outline)
    (theme : Option (Shape × Option TransformRules)) :
    members.foldlM takeMember? { attributify, theme } =
      if members.all isReadableMember then
        ((valuesOf Field.theme.name members).foldlM (set? readTheme?) theme).map fun theme =>
          let values := valuesOf Field.attributifyPseudo.name members
          { attributify := attributify ++ values.map Value.outline, theme }
      else none := by
  have hnames : units Field.attributifyPseudo.name ≠ units Field.theme.name := by decide
  induction members generalizing attributify theme with
  | nil => simp [valuesOf]
  | cons m members ih =>
    rw [List.foldlM_cons, List.all_cons, takeMember?]
    cases isReadableMember m with
    | false => rfl
    | true =>
      rw [Bool.true_and, if_pos rfl, valuesOf_cons, valuesOf_cons]
      by_cases htheme : m.1 = units Field.theme.name
      · have hattributify : m.1 ≠ units Field.attributifyPseudo.name := htheme ▸ hnames.symm
        rw [if_pos htheme, if_pos htheme, if_neg hattributify, List.foldlM_cons]
        cases set? readTheme? theme m.2 with
        | none => cases members.all isReadableMember <;> rfl
        | some theme => exact ih attributify theme
      · rw [if_neg htheme, if_neg htheme]
        by_cases hattributify : m.1 = units Field.attributifyPseudo.name
        · rw [if_pos hattributify, if_pos hattributify]
          refine (ih (attributify ++ [m.2.outline]) theme).trans ?_
          simp
        · rw [if_neg hattributify, if_neg hattributify]
          exact ih attributify theme

theorem toOption_settle (vs : List Value) :
    (settle (vs.map Value.outline)).toOption
      = (only? Value.boolean? vs).map fun known => known.getD false := by
  match vs with
  | [] => rfl
  | [v] =>
    cases v with
    | number n =>
      simp only [List.map_cons, List.map_nil, Value.outline]
      cases hn : n.numeral.outline? with
      | none => rfl
      | some found =>
        obtain ⟨value, -, rfl⟩ := Option.map_eq_some_iff.1 hn
        cases value <;> rfl
    | null | boolean | string | array | object => rfl
  | v :: w :: vs =>
    simp only [List.map_cons, only?, Option.map_none]
    cases v.outline <;> rfl

theorem inDocument_close (met : Met) :
    (inDocument met).close.toOption = (settle met.attributify).toOption.map fun attributify =>
      (inDocument met).expecting
        (.ended { attributify, rules := (met.theme.bind fun theme => theme.2).getD [] }) := by
  obtain ⟨attributify, theme⟩ := met
  refine (toOption_bind (settle attributify) _).trans ?_
  cases settle attributify with
  | error fault => rfl
  | ok attributify => cases theme <;> rfl

theorem only?_readTheme? (vs : List Value) :
    (only? readTheme? vs).map (fun theme => theme.bind fun theme => theme.2)
      = (only? Value.themeRules? vs).map Option.join := by
  match vs with
  | [] => rfl
  | [v] => simp only [only?, readTheme?]; cases v.themeRules? <;> rfl
  | v :: w :: vs => rfl

theorem takeAll?_document (v : Value) :
    (({} : Reader).takeAll? v.tokens).bind (fun r => r.finish.toOption)
      = if v.isReadable then v.config? else none := by
  cases v with
  | object members =>
    have hopening : take? {} (.opening .object)
        = some ((inDocument {}).expecting .keyOrEnd) := rfl
    have hreadable : members.all isReadableMember = (Value.object members).isReadable := rfl
    rw [Value.tokens, inContainer, memberTokens_eq, takeAll?_cons, hopening, Option.bind_some,
      takeAll?_members (fun met expect hkey m _ => takeAll?_documentMember met hkey m)
        (fun _ => rfl),
      foldlM_takeMember?, foldlM_set?, hreadable]
    cases (Value.object members).isReadable with
    | false => rfl
    | true =>
      have htheme := only?_readTheme? (valuesOf Field.theme.name members)
      have hsettle := toOption_settle (valuesOf Field.attributifyPseudo.name members)
      simp only [↓reduceIte, List.nil_append, Option.bind_map, inDocument_close, Value.config?,
        Function.comp_def, hsettle]
      -- the reader settles `attributifyPseudo` last, and keeps the shape of the theme as well
      generalize only? readTheme? (valuesOf Field.theme.name members) = theme at htheme ⊢
      generalize only? Value.themeRules? (valuesOf Field.theme.name members) = rules at htheme ⊢
      generalize only? Value.boolean? _ = attributify
      cases theme with
      | none =>
        cases rules with
        | none => cases attributify <;> rfl
        | some rules => cases htheme
      | some theme =>
        cases rules with
        | none => cases htheme
        | some rules =>
          cases attributify with
          | none => rfl
          | some attributify =>
            have hrules : (theme.bind fun theme => theme.2) = rules.join := Option.some.inj htheme
            simp only [Option.bind_eq_bind, Option.bind_some, Option.map_some, ← hrules]
            rfl
  | array elements => rfl
  | null | boolean | number | string =>
    have hrole : ({} : Reader).role? = some .document := rfl
    rw [takeAll?_scalar hrole (fun _ => rfl) rfl]
    rfl

end Config.Reader

namespace Config

open Json

/-- Parsing a text that is written for a value gives the configuration that the value is, if the
value keeps to the limits of the reader. -/
theorem toOption_parse_eq {v : Value} {text : Text} (h : v.IsWrittenAs text) :
    (parse text).toOption = if v.isReadable then v.config? else none :=
  (toOption_parse h).trans (Reader.takeAll?_document v)

/-- The documents that are accepted, and what they are decoded to: the rules stand in the order in
which their plain texts are first given, each with the encoded text given last. -/
theorem parse_written {v : Value} {text : Text} (h : v.IsWrittenAs text) :
    (∀ c, parse text = .ok c ↔ v.isReadable = true ∧ v.config? = some c) ∧
    ∀ pairs : List (Text × Text),
      (TransformRules.ofPairs pairs).map Prod.fst = (pairs.map Prod.fst).eraseDups ∧
      ∀ plain, (TransformRules.ofPairs pairs).lookup plain = pairs.reverse.lookup plain := by
  refine ⟨fun c => ?_, fun pairs =>
    ⟨TransformRules.map_fst_ofPairs pairs, TransformRules.lookup_ofPairs pairs⟩⟩
  have hok : parse text = .ok c ↔ (parse text).toOption = some c :=
    ⟨fun hc => by rw [hc]; rfl, toOption_eq_some⟩
  rw [hok, toOption_parse_eq h]
  cases v.isReadable <;> simp

/-- In `{"theme":[{":":"c","\u003a":"d"}],"x":[1.5,18446744073709551615],"attributifyPseudo":true}` a
plain text is given twice, which makes one rule, and the numbers are passed over. -/
theorem parse_written_theme_array :
    parse ("\x7b\"theme\":[\x7b\":\":\"c\",\"\\u003a\":\"d\"\x7d],".toList
        ++ "\"x\":[1.5,18446744073709551615],\"attributifyPseudo\":true\x7d".toList)
      = .ok { attributify := true, rules := [([':'], "d".toList)] } := by
  let decimal : Number :=
    { negative := false, whole := ['1'], fraction := ['5'], exponent := none
      isWhole := ⟨by decide, List.all_eq_true.1 rfl⟩, noLeadingZero := by decide
      isFraction := List.all_eq_true.1 rfl }
  let largest : Number :=
    { negative := false, whole := "18446744073709551615".toList, fraction := [], exponent := none
      isWhole := ⟨by decide, List.all_eq_true.1 rfl⟩, noLeadingZero := by decide
      isFraction := List.all_eq_true.1 rfl }
  have hlays := Lays.token (.opening .object) <|
    .token (.plain "theme".toList rfl) <| .token .colon <|
    .token (.opening .array) <| .token (.opening .object) <|
    .token (.plain [':'] rfl) <| .token .colon <|
    .token (.plain "c".toList rfl) <| .token .comma <|
    .token (.string (.unit (by decide : hexValue? ['0', '0', '3', 'a'] = some 0x3a) .nil)) <|
    .token .colon <| .token (.plain "d".toList rfl) <|
    .token (.closing .object) <| .token (.closing .array) <| .token .comma <|
    .token (.plain "x".toList rfl) <| .token .colon <|
    .token (.opening .array) <| .token (.number decimal) <| .token .comma <|
    .token (.number largest) <| .token (.closing .array) <| .token .comma <|
    .token (.plain "attributifyPseudo".toList rfl) <| .token .colon <|
    .token .true <| .token (.closing .object) .done
  have hwritten : (Value.object [(units "theme".toList, .array [.object
      [(units [':'], .string (units "c".toList)), (units [':'], .string (units "d".toList))]]),
      (units "x".toList, .array [.number decimal, .number largest]),
      (units "attributifyPseudo".toList, .boolean true)]).IsWrittenAs _ := hlays
  exact ((parse_written hwritten).1 _).2 ⟨by decide, by decide⟩

/-- Members that are passed over have keys all the same: `{"theme":{"\ud800":true}}` sets nothing,
as does `{"\ud800":true}`, and both are refused. -/
theorem parse_surrogate_key :
    ((Value.object [(units "theme".toList, .object [([0xD800], .boolean true)])]).IsWrittenAs
        "\x7b\"theme\":\x7b\"\\ud800\":true\x7d\x7d".toList ∧
      (Value.object [(units "theme".toList, .object [([0xD800], .boolean true)])]).config?
        = some {} ∧
      parse "\x7b\"theme\":\x7b\"\\ud800\":true\x7d\x7d".toList = .error .malformed) ∧
    (Value.object [([0xD800], .boolean true)]).IsWrittenAs
        "\x7b\"\\ud800\":true\x7d".toList ∧
      (Value.object [([0xD800], .boolean true)]).config? = some {} ∧
      parse "\x7b\"\\ud800\":true\x7d".toList = .error .malformed := by
  have hkey : Token.WrittenAs (.string [0xD800]) "\"\\ud800\"".toList :=
    .string (.unit (by decide : hexValue? ['d', '8', '0', '0'] = some 0xD800) .nil)
  have htheme := Lays.token (.opening .object) <|
    .token (.plain "theme".toList rfl) <| .token .colon <| .token (.opening .object) <|
    .token hkey <| .token .colon <| .token .true <|
    .token (.closing .object) <| .token (.closing .object) .done
  have hdocument := Lays.token (.opening .object) <|
    .token hkey <| .token .colon <| .token .true <| .token (.closing .object) .done
  exact ⟨⟨htheme, by decide, rfl⟩, hdocument, by decide, rfl⟩

end Config

end VariantSelector
