import VariantSelector.Proofs.Config.Skipping

/-!
The rules of a theme (`Value.themeRules?`), and that the reader takes in a theme that has them and
no other (`Reader.takeAll?_theme`).
-/

namespace VariantSelector

open Config

/-! ### Rules -/

namespace TransformRules

theorem ofPairs_append_singleton (pairs : List (Text × Text)) (pair : Text × Text) :
    ofPairs (pairs ++ [pair]) = put pair.1 pair.2 (ofPairs pairs) := by
  rw [ofPairs, List.foldl_append]
  rfl

theorem lookup_cons (text : Text) (rule : Text × Text) (rules : TransformRules) :
    List.lookup text (rule :: rules)
      = if text = rule.1 then some rule.2 else rules.lookup text := by
  by_cases h : text = rule.1
  · rw [if_pos h, h]
    exact List.lookup_cons_self
  · have hne : (text == rule.1) = false := beq_eq_false_iff_ne.2 h
    refine List.lookup_cons.trans ?_
    rw [hne, if_neg h]

theorem lookup_put (plain encoded text : Text) (rules : TransformRules) :
    (put plain encoded rules).lookup text
      = if text = plain then some encoded else rules.lookup text := by
  induction rules with
  | nil => rw [put, lookup_cons]
  | cons rule rules ih =>
    rw [put]
    split
    · rename_i h
      rw [lookup_cons, lookup_cons, h]
      split <;> rfl
    · rename_i h
      rw [lookup_cons, lookup_cons, ih]
      by_cases htext : text = rule.1
      · simp [htext, h]
      · simp [htext]

/-- A plain text has the place of the first pair that gives it. -/
theorem map_fst_ofPairs (pairs : List (Text × Text)) :
    (ofPairs pairs).map Prod.fst = (pairs.map Prod.fst).eraseDups := by
  induction pairs using List.reverseRecOn with
  | nil => rfl
  | append_singleton pairs pair ih =>
    rw [ofPairs_append_singleton, map_fst_put, ih, List.map_append, List.eraseDups_append]
    by_cases h : pair.1 ∈ pairs.map Prod.fst <;> simp [h, List.removeAll, List.eraseDups_cons]

/-- A plain text has the encoded text of the last pair that gives it. -/
theorem lookup_ofPairs (pairs : List (Text × Text)) (plain : Text) :
    (ofPairs pairs).lookup plain = pairs.reverse.lookup plain := by
  induction pairs using List.reverseRecOn with
  | nil => rfl
  | append_singleton pairs pair ih =>
    rw [ofPairs_append_singleton, lookup_put, ih, List.reverse_append, List.reverse_singleton,
      List.singleton_append, lookup_cons]

end TransformRules

/-! ### Themes as values -/

namespace Json

/-- The values of the members of this name, in the order of the document. -/
def valuesOf (name : Text) (members : List (List Nat × Value)) : List Value :=
  (members.filter fun m => m.1 = units name).map Prod.snd

/-- What is read from the values of a member that may stand once or be left out. -/
def only? {α : Type} (read : Value → Option α) : List Value → Option (Option α)
  | [] => some none
  | [v] => (read v).map some
  | _ => none

/-- The rule that a member stands for: its value is a string. -/
def pair? (m : List Nat × Value) : Option (Text × Text) :=
  match m.2 with
  | .string us => (text? m.1).bind fun plain => (text? us).map fun encoded => (plain, encoded)
  | _ => none

/-- The rules of an object of strings. -/
def Value.rules? : Value → Option TransformRules
  | .object members => (members.mapM pair?).map TransformRules.ofPairs
  | _ => none

/-- The rules of a theme, if it gives any: an object gives them by name, and an array as its only
element. -/
def Value.themeRules? : Value → Option (Option TransformRules)
  | .object members => only? rules? (valuesOf Field.transformRules.name members)
  | .array elements => only? rules? elements
  | _ => none

def Value.isScalar : Value → Bool
  | .array _ | .object _ => false
  | _ => true

/-- Whether a container is an array or an object. -/
def Value.shape : Value → Shape
  | .array _ => .array
  | _ => .object

/-- Whether the keys of the value, if it is an object, have a text. -/
def Value.hasReadableKeys : Value → Bool
  | .object members => members.all fun m => (text? m.1).isSome
  | _ => true

end Json

namespace Config.Reader

open Json

variable {r : Reader}

/-- Where a container must come, any scalar is refused. -/
theorem takeAll?_scalar {role : Role} (hrole : r.role? = some role)
    (hrefuses : ∀ found, (r.takeScalar role found).toOption = none) {v : Value}
    (hv : v.isScalar = true) : r.takeAll? v.tokens = none := by
  cases v with
  | null | boolean => simp [Value.tokens, take?, hrole, hrefuses]
  | number n =>
    have hnumeral : (r.takeNumeral role n.numeral).toOption = none := by
      unfold takeNumeral
      split
      · split
        · exact hrefuses _
        · rfl
      · exact hrefuses _
    simp [Value.tokens, take?, hrole, hnumeral]
  | string us =>
    have hkey := expectsKey_of_role? hrole
    simp [Value.tokens, take?, hrole, hkey, hrefuses]
  | array | object => cases hv

/-! ### Reading the rules -/

theorem takeAll?_encoded {plain : Text} (hr : r.reading = .nothing)
    (hrole : r.role? = some (.encoded plain)) (v : Value) :
    r.takeAll? v.tokens =
      match v with
      | .string us => (text? us).map fun text =>
        { r with rules := some (TransformRules.put plain text (r.rules.getD [])) }.expecting .next
      | _ => none := by
  cases v with
  | string us =>
    have hkey := expectsKey_of_role? hrole
    cases hus : text? us <;>
      simp [Value.tokens, take?, hrole, hkey, textOf?, isStrict, hus, takeScalar, expecting,
        Except.toOption, ← hr]
  | number n =>
    cases hn : n.numeral.outline? with
    | none =>
      simp [Value.tokens, take?, hrole, takeNumeral, isStrict, hn, Except.toOption]
    | some found =>
      have hfound : ∀ s, found ≠ .string s := by
        rintro s rfl
        obtain ⟨value, -, hvalue⟩ := Option.map_eq_some_iff.1 hn
        cases value <;> cases hvalue
      cases found <;> simp at hfound <;>
        simp [Value.tokens, take?, hrole, takeNumeral, isStrict, hn, takeScalar, Except.toOption]
  | null | boolean | array | object =>
    simp [Value.tokens, inContainer, take?, hrole, takeScalar, openContainer, Except.toOption]

/-- Steps that each add what is read from an item add what is read from all of them. -/
theorem foldlM_map {σ α β : Type} (read : α → Option β) (add : σ → β → σ) (items : List α) (s : σ) :
    items.foldlM (fun s a => (read a).map (add s)) s = (items.mapM read).map (·.foldl add s) := by
  induction items generalizing s with
  | nil => rfl
  | cons a items ih =>
    rw [List.foldlM_cons, List.mapM_cons]
    cases read a with
    | none => rfl
    | some b =>
      refine (ih (add s b)).trans ?_
      cases items.mapM read <;> rfl

/-- The reader among the rules of the theme, with those it has read. -/
def amongRules (r : Reader) (rules : TransformRules) : Reader :=
  { r with place := .rules, rules := some rules }

theorem amongRules_close (hnested : r.nested = []) (hplace : r.place = .theme)
    (rules : TransformRules) :
    (r.amongRules rules).close = .ok ({ r with rules := some rules }.expecting .next) := by
  simp [close, amongRules, hnested, expecting, hplace]

theorem takeAll?_rulesMember (hr : r.reading = .nothing) (hnested : r.nested = [])
    (rules : TransformRules) {expect : Expect}
    (hkey : ((r.amongRules rules).expecting expect).expectsKey = true) (m : List Nat × Value) :
    ((r.amongRules rules).expecting expect).takeAll? (tokensOfMember m)
      = ((pair? m).map fun pair => TransformRules.put pair.1 pair.2 rules).map
        fun rules => (r.amongRules rules).expecting .next := by
  have htake : ∀ key, (((r.amongRules rules).expecting expect).takeKey key).toOption
      = (some (Role.encoded key)).map fun role =>
        ((r.amongRules rules).expecting expect).expecting (.colon role) := by
    intro key
    simp [takeKey, amongRules, expecting, hnested, ← hr, Except.toOption]
  have hstrict : ((r.amongRules rules).expecting expect).readsKeyStrictly = true := by
    simp [readsKeyStrictly, amongRules, hnested]
  rw [takeAll?_member hkey htake, hstrict, textOf?, if_pos rfl]
  obtain ⟨us, v⟩ := m
  cases hplain : text? us with
  | none => cases v <;> simp [pair?, hplain]
  | some plain =>
    have hvalue := takeAll?_encoded
      (r := (r.amongRules rules).expecting (.value (.encoded plain))) hr rfl v
    rw [Option.bind_some, Option.bind_some, expecting_expecting, hvalue]
    cases v with
    | string us' =>
      simp only [pair?, hplain]
      cases text? us' <;> rfl
    | null | boolean | number | array | object => rfl

theorem takeAll?_rules (hr : r.reading = .nothing) (hnested : r.nested = [])
    (hplace : r.place = .theme) (hrole : r.role? = some .rules) (v : Value) :
    r.takeAll? v.tokens
      = v.rules?.map fun rules => { r with rules := some rules }.expecting .next := by
  cases v with
  | object members =>
    have hobject : ∀ rules, (r.amongRules rules).innermost = .object := by
      simp [innermost, amongRules, hnested]
    rw [Value.tokens, inContainer, memberTokens_eq, takeAll?_cons, take?, hrole]
    refine (takeAll?_members (fun rules expect hkey m _ =>
      takeAll?_rulesMember hr hnested rules hkey m) hobject []).trans ?_
    rw [foldlM_map, Value.rules?]
    simp only [amongRules_close hnested hplace]
    cases members.mapM pair? <;> rfl
  | array elements =>
    simp [Value.tokens, Value.rules?, inContainer, take?, hrole, openContainer, Except.toOption]
  | null | boolean | number | string => exact takeAll?_scalar hrole (fun found => rfl) rfl

/-! ### Members that may stand once -/

/-- One more value of a member that may stand once. -/
def set? {α : Type} (read : Value → Option α) (known : Option α) (v : Value) :
    Option (Option α) :=
  if known.isSome then none else (read v).map some

theorem foldlM_set? {α : Type} (read : Value → Option α) (vs : List Value) :
    vs.foldlM (set? read) none = only? read vs := by
  match vs with
  | [] => rfl
  | [v] => cases hv : read v <;> simp [set?, only?, hv]
  | v :: w :: vs => cases hv : read v <;> simp [set?, only?, hv]

theorem valuesOf_cons (name : Text) (m : List Nat × Value) (members : List (List Nat × Value)) :
    valuesOf name (m :: members)
      = if m.1 = units name then m.2 :: valuesOf name members else valuesOf name members := by
  by_cases h : m.1 = units name <;> simp [valuesOf, h]

theorem eq_iff_of_text? {us : List Nat} {key : Text} (h : text? us = some key) (name : Text) :
    key = name ↔ us = units name := by
  rw [← text?_eq_some_iff.1 h]
  constructor
  · rintro rfl
    rfl
  · intro hunits
    have hname : text? (units name) = some name := text?_eq_some_iff.2 rfl
    rw [← hunits, text?_eq_some_iff.2 rfl] at hname
    exact Option.some.inj hname

/-- Steps that check each member, and look closer at those of one name only. -/
theorem foldlM_valuesOf {σ : Type} (name : Text) (check : List Nat × Value → Bool)
    (step : σ → Value → Option σ) (members : List (List Nat × Value)) (s : σ) :
    members.foldlM (fun s m =>
        if check m then if m.1 = units name then step s m.2 else some s else none) s
      = if members.all check then (valuesOf name members).foldlM step s else none := by
  induction members generalizing s with
  | nil => rfl
  | cons m members ih =>
    rw [List.foldlM_cons, List.all_cons]
    cases check m with
    | false => rfl
    | true =>
      rw [Bool.true_and, if_pos rfl, valuesOf_cons]
      by_cases hname : m.1 = units name
      · rw [if_pos hname, if_pos hname, List.foldlM_cons]
        cases step s m.2 with
        | none => cases members.all check <;> rfl
        | some s' => exact ih s'
      · rw [if_neg hname, if_neg hname]
        exact ih s

/-! ### Reading the theme -/

/-- The reader in a theme of that shape, with the rules it has read. -/
def inTheme (r : Reader) (shape : Shape) (rules : Option TransformRules) : Reader :=
  { r with place := .theme, themeShape := shape, rules }

/-- The reader behind a theme of that shape, with the rules of it. -/
def behindTheme (r : Reader) (shape : Shape) (rules : Option TransformRules) : Reader :=
  { r with
    place := .document, theme := some (rules.getD []), themeShape := shape, rules, expect := .next }

theorem inTheme_close (hnested : r.nested = []) (shape : Shape) (rules : Option TransformRules) :
    (r.inTheme shape rules).close = .ok (r.behindTheme shape rules) := by
  simp [close, inTheme, behindTheme, hnested]

theorem inTheme_takeAll?_rules (hr : r.reading = .nothing) (hnested : r.nested = [])
    (shape : Shape) {expect : Expect}
    (hrole : ((r.inTheme shape none).expecting expect).role? = some .rules) (v : Value) :
    ((r.inTheme shape none).expecting expect).takeAll? v.tokens
      = v.rules?.map fun rules => (r.inTheme shape (some rules)).expecting .next :=
  takeAll?_rules (r := (r.inTheme shape none).expecting expect) hr hnested rfl hrole v

theorem takeAll?_themeMember (hr : r.reading = .nothing) (hnested : r.nested = [])
    (rules : Option TransformRules) {expect : Expect}
    (hkey : ((r.inTheme .object rules).expecting expect).expectsKey = true)
    (m : List Nat × Value) :
    ((r.inTheme .object rules).expecting expect).takeAll? (tokensOfMember m)
      = (if (text? m.1).isSome then
          if m.1 = units Field.transformRules.name then set? Value.rules? rules m.2 else some rules
        else none).map fun rules => (r.inTheme .object rules).expecting .next := by
  have htake : ∀ key, (((r.inTheme .object rules).expecting expect).takeKey key).toOption
      = (if key = Field.transformRules.name then
          if rules.isSome then none else some Role.rules
        else some .ignored).map fun role =>
          ((r.inTheme .object rules).expecting expect).expecting (.colon role) := by
    intro key
    by_cases hname : key = Field.transformRules.name <;> cases rules <;>
      simp [takeKey, inTheme, expecting, hnested, hname, ← hr, Except.toOption]
  have hstrict : ((r.inTheme .object rules).expecting expect).readsKeyStrictly = true := by
    simp [readsKeyStrictly, inTheme, hnested]
  rw [takeAll?_member hkey htake, hstrict, textOf?, if_pos rfl]
  cases htext : text? m.1 with
  | none => rfl
  | some key =>
    rw [Option.bind_some, if_pos Option.isSome_some]
    by_cases hname : key = Field.transformRules.name
    · rw [if_pos hname, if_pos ((eq_iff_of_text? htext _).1 hname)]
      cases rules with
      -- refused at the key, so nothing is asked of the value
      | some rules => rfl
      | none =>
        rw [if_neg (by simp), Option.bind_some, expecting_expecting,
          inTheme_takeAll?_rules hr hnested .object rfl, set?, if_neg (by simp), Option.map_map]
        rfl
    · rw [if_neg hname, if_neg fun h => hname ((eq_iff_of_text? htext _).2 h)]
      exact takeAll?_ignored (r := (r.inTheme .object rules).expecting (.value .ignored)) m.2 hr rfl

theorem takeAll?_theme (hr : r.reading = .nothing) (hnested : r.nested = [])
    (hrole : r.role? = some .theme) (v : Value) :
    r.takeAll? v.tokens
      = if v.hasReadableKeys then v.themeRules?.map (r.behindTheme v.shape) else none := by
  cases v with
  | object members =>
    have hobject : ∀ rules, (r.inTheme .object rules).innermost = .object := by
      simp [innermost, inTheme, hnested]
    rw [Value.tokens, inContainer, memberTokens_eq, takeAll?_cons, take?, hrole]
    refine (takeAll?_members (fun rules expect hkey m _ =>
      takeAll?_themeMember hr hnested rules hkey m) hobject none).trans ?_
    have hkeys : (members.all fun m => (text? m.1).isSome)
        = (Value.object members).hasReadableKeys := rfl
    rw [foldlM_valuesOf _ (fun m => (text? m.1).isSome), foldlM_set?, hkeys, Value.themeRules?]
    simp only [inTheme_close hnested]
    cases (Value.object members).hasReadableKeys with
    | false => rfl
    | true => cases only? Value.rules? (valuesOf Field.transformRules.name members) <;> rfl
  | array elements =>
    have hopening : r.take? (.opening .array)
        = some ((r.inTheme .array none).expecting (.valueOrEnd .rules)) := by
      simp only [take?, hrole]
      rfl
    have hinnermost : ∀ rules, (r.inTheme .array rules).innermost = .array := by
      simp [innermost, inTheme, hnested]
    have hclosing : ∀ rules, ((r.inTheme .array rules).expecting .next).take? (.closing .array)
        = some (r.behindTheme .array rules) := by
      simp [take?, mayClose, hinnermost, expecting_close, inTheme_close hnested, Except.toOption]
    -- an array is no loop for the reader: behind its first element only the end may come
    have hcomma : ∀ rules, ((r.inTheme .array rules).expecting .next).take? .comma = none := by
      intro rules
      have hnone : (r.inTheme .array rules).nested = [] := hnested
      simp [take?, separate, hinnermost, hnone, Except.toOption]
    have hrules : ∀ v : Value,
        ((r.inTheme .array none).expecting (.valueOrEnd .rules)).takeAll? v.tokens
          = v.rules?.map fun rules => (r.inTheme .array (some rules)).expecting .next :=
      inTheme_takeAll?_rules hr hnested .array rfl
    rw [Value.tokens, inContainer, elementTokens_eq, takeAll?_cons, hopening, Option.bind_some]
    cases elements with
    | nil =>
      simp [take?, mayClose, expecting_close, inTheme_close hnested, Except.toOption,
        Value.themeRules?, only?, Value.hasReadableKeys, Value.shape]
    | cons v rest =>
      cases rest with
      | nil =>
        cases hv : v.rules? <;>
          simp [hrules, hv, hclosing, Value.themeRules?, only?, Value.hasReadableKeys, Value.shape]
      | cons w rest =>
        cases hv : v.rules? <;>
          simp [List.intercalate_cons_cons, hrules, hv, hcomma, Value.themeRules?, only?]
  | null | boolean | number | string => exact takeAll?_scalar hrole (fun found => rfl) rfl

end Config.Reader

end VariantSelector
