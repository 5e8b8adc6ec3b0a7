import VariantSelector.Proofs.Config.Tokens
import VariantSelector.Proofs.Json.Range

/-!
Values nobody asked for. Beside the members of the document they must be within the limits of a
strict reader; inside a theme nothing is asked of them (`Reader.takeAll?_ignored`).
-/

namespace VariantSelector

namespace Json

mutual

/-- Whether a value is within the limits of a strict reader: its numbers do not overflow
(`isWithin_number`), its surrogates come in pairs, and no more than `depth` of its containers are
open at once. -/
def Value.isWithin : Nat → Value → Bool
  | _, .null => true
  | _, .boolean _ => true
  | _, .number n => n.numeral.outline?.isSome
  | _, .string us => (text? us).isSome
  | 0, .array _ => false
  | depth + 1, .array elements => elementsWithin depth elements
  | 0, .object _ => false
  | depth + 1, .object members => membersWithin depth members

def elementsWithin : Nat → List Value → Bool
  | _, [] => true
  | depth, v :: vs => v.isWithin depth && elementsWithin depth vs

def membersWithin : Nat → List (List Nat × Value) → Bool
  | _, [] => true
  | depth, (key, v) :: ms => (text? key).isSome && v.isWithin depth && membersWithin depth ms

end

/-- A member is within the limits if its key and its value are. -/
def memberWithin (depth : Nat) (m : List Nat × Value) : Bool :=
  (text? m.1).isSome && m.2.isWithin depth

/-- A number is within the limits as an integer of 64 bits, or as a double that is finite. -/
theorem isWithin_number (depth : Nat) (n : Number) :
    (Value.number n).isWithin depth = true ↔
      n.numeral.integer?.isSome = true ∨
        ¬ Numeral.Overflows n.numeral.scientific.1 n.numeral.scientific.2 := by
  rw [Value.isWithin, Option.isSome_iff_ne_none, Option.isSome_iff_ne_none, ne_eq,
    Numeral.outline?_eq_none_iff, not_and_or]

theorem elementsWithin_eq (depth : Nat) (vs : List Value) :
    elementsWithin depth vs = vs.all (·.isWithin depth) := by
  induction vs with
  | nil => rw [elementsWithin, List.all_nil]
  | cons v vs ih => rw [elementsWithin, ih, List.all_cons]

theorem membersWithin_eq (depth : Nat) (ms : List (List Nat × Value)) :
    membersWithin depth ms = ms.all (memberWithin depth) := by
  induction ms with
  | nil => rw [membersWithin, List.all_nil]
  | cons m ms ih => rw [membersWithin, ih, List.all_cons, memberWithin]

theorem isWithin_array (depth : Nat) (elements : List Value) :
    (Value.array elements).isWithin depth
      = (decide (0 < depth) && elements.all (·.isWithin (depth - 1))) := by
  cases depth <;> simp [Value.isWithin, elementsWithin_eq]

theorem isWithin_object (depth : Nat) (members : List (List Nat × Value)) :
    (Value.object members).isWithin depth
      = (decide (0 < depth) && members.all (memberWithin (depth - 1))) := by
  cases depth <;> simp [Value.isWithin, membersWithin_eq]

end Json

namespace Config.Reader

open Json

/-! ### The items of a container -/

/-- The reader with something else to come next. -/
def expecting (r : Reader) (expect : Expect) : Reader := { r with expect }

section

variable (r : Reader) (expect : Expect)

@[simp] theorem expecting_expect : (r.expecting expect).expect = expect := rfl
@[simp] theorem expecting_reading : (r.expecting expect).reading = r.reading := rfl
@[simp] theorem expecting_place : (r.expecting expect).place = r.place := rfl
@[simp] theorem expecting_nested : (r.expecting expect).nested = r.nested := rfl
@[simp] theorem expecting_innermost : (r.expecting expect).innermost = r.innermost := rfl
@[simp] theorem expecting_expecting (expect' : Expect) :
    (r.expecting expect).expecting expect' = r.expecting expect' := rfl

end

/-- The reader takes one step for each item of a container. `start s`, `again s` and `behind s` are
the reader behind the opening bracket, behind a comma and behind an item. -/
theorem takeAll?_items {σ α : Type} (start again behind : σ → Reader) (step : σ → α → Option σ)
    (done : σ → Option Reader) {tokens : α → List Token} {shape : Shape} {items : List α}
    (hitem : ∀ s r, r = start s ∨ r = again s → ∀ a ∈ items,
      r.takeAll? (tokens a) = (step s a).map behind)
    (hcomma : ∀ s, (behind s).take? .comma = some (again s))
    (hstart : ∀ s, (start s).take? (.closing shape) = done s)
    (hbehind : ∀ s, (behind s).take? (.closing shape) = done s) (s : σ) :
    (start s).takeAll? ([.comma].intercalate (items.map tokens) ++ [.closing shape])
      = (items.foldlM step s).bind done := by
  -- the induction starts in front of an item, so it has to hold behind a comma too
  have hcons : ∀ a rest, (a :: rest) ⊆ items → ∀ s r, r = start s ∨ r = again s →
      r.takeAll? ([.comma].intercalate ((a :: rest).map tokens) ++ [.closing shape])
        = ((a :: rest).foldlM step s).bind done := by
    intro a rest
    induction rest generalizing a with
    | nil =>
      intro hsub s r hr
      have ha : a ∈ items := hsub List.mem_cons_self
      simp only [List.map_cons, List.map_nil, List.intercalate_singleton, takeAll?_append,
        hitem s r hr a ha, List.foldlM_cons, List.foldlM_nil]
      cases step s a with
      | none => rfl
      | some s' => simp [hbehind]
    | cons b rest ih =>
      intro hsub s r hr
      have ha : a ∈ items := hsub List.mem_cons_self
      have hrest := ih b fun c hc => hsub (List.mem_cons_of_mem a hc)
      rw [List.map_cons, List.map_cons, List.intercalate_cons_cons, List.append_assoc,
        List.append_assoc, takeAll?_append, hitem s r hr a ha, List.foldlM_cons]
      cases step s a with
      | none => rfl
      | some s' =>
        have := hrest s' (again s') (.inr rfl)
        simpa [hcomma] using this
  cases items with
  | nil => simp [hstart]
  | cons a rest => exact hcons a rest (List.Subset.refl _) s (start s) (.inl rfl)

/-- The value of a member is read for what its key says. -/
theorem takeAll?_member {r : Reader} (hkey : r.expectsKey = true) {roleOf : Text → Option Role}
    (htake : ∀ key, (r.takeKey key).toOption
      = (roleOf key).map fun role => r.expecting (.colon role)) (m : List Nat × Value) :
    r.takeAll? (tokensOfMember m) =
      (textOf? r.readsKeyStrictly m.1).bind fun key =>
        (roleOf key).bind fun role => (r.expecting (.value role)).takeAll? m.2.tokens := by
  simp only [tokensOfMember, takeAll?_cons, take?, hkey, ↓reduceIte, htake, Option.bind_assoc,
    Option.bind_map]
  rfl

theorem expecting_close (r : Reader) (expect : Expect) : (r.expecting expect).close = r.close := rfl

/-- The reader takes one step for each member of an object. -/
theorem takeAll?_members {σ : Type} {reader : σ → Reader}
    {step : σ → List Nat × Value → Option σ} {members : List (List Nat × Value)}
    (hmember : ∀ s expect, ((reader s).expecting expect).expectsKey = true → ∀ m ∈ members,
      ((reader s).expecting expect).takeAll? (tokensOfMember m)
        = (step s m).map fun s => (reader s).expecting .next)
    (hobject : ∀ s, (reader s).innermost = .object) (s : σ) :
    ((reader s).expecting .keyOrEnd).takeAll?
        ([.comma].intercalate (members.map tokensOfMember) ++ [.closing .object])
      = (members.foldlM step s).bind fun s => (reader s).close.toOption := by
  refine takeAll?_items (fun s => (reader s).expecting .keyOrEnd)
    (fun s => (reader s).expecting .key) (fun s => (reader s).expecting .next) step
    (fun s => (reader s).close.toOption) ?_ (fun s => ?_) (fun s => ?_) (fun s => ?_) s
  · rintro s r (rfl | rfl) m hm
    · exact hmember s .keyOrEnd rfl m hm
    · exact hmember s .key rfl m hm
  · simp [take?, separate, hobject, Except.toOption]
    rfl
  · simp [take?, mayClose, expecting_close]
  · simp [take?, mayClose, hobject, expecting_close]

/-- Steps that only check leave a check of all. -/
theorem foldlM_check {α : Type} (check : α → Bool) (items : List α) :
    items.foldlM (fun (_ : Unit) a => if check a then some () else none) ()
      = if items.all check then some () else none := by
  induction items with
  | nil => rfl
  | cons a items ih =>
    rw [List.foldlM_cons, List.all_cons]
    cases check a with
    | true => exact ih
    | false => rfl

/-! ### Values nobody asked for -/

/-- Whether something nobody asked for gets past the reader. In the document it has to be within the
limits, given how many more containers may be opened; elsewhere there are none. -/
def allows (r : Reader) (within : Nat → Bool) : Bool :=
  r.place ≠ .document || within (maxDepth - 1 - r.nested.length)

variable {r : Reader}

theorem expectsKey_of_role? {role : Role} (h : r.role? = some role) : r.expectsKey = false := by
  cases he : r.expect <;> simp [role?, expectsKey, he] at h ⊢

theorem takeScalar_ignored (hr : r.reading = .nothing) (found : Outline) :
    r.takeScalar .ignored found = .ok (r.expecting .next) := by
  cases found <;> simp [takeScalar, expecting, ← hr]

/-- The reader in one more container that nobody asked for. -/
def nest (r : Reader) (shape : Shape) : Reader := { r with nested := shape :: r.nested }

/-- Opens a container nobody asked for, if there may be one more. -/
theorem toOption_openNested (r : Reader) (shape : Shape) :
    (r.openNested shape).toOption =
      if r.place ≠ .document ∨ r.nested.length < maxDepth - 1 then
        some ((r.nest shape).expecting (inside shape .ignored))
      else none := by
  have hfull : (r.place = .document && maxDepth ≤ r.nested.length + 1) = true
      ↔ ¬ (r.place ≠ .document ∨ r.nested.length < maxDepth - 1) := by
    simp only [Bool.and_eq_true, decide_eq_true_eq, not_or, not_not]
    exact and_congr_right fun _ => by rw [maxDepth]; omega
  rw [openNested]
  by_cases h : r.place ≠ .document ∨ r.nested.length < maxDepth - 1
  · rw [if_pos h, if_neg fun hdeep => hfull.1 hdeep h]
    rfl
  · rw [if_neg h, if_pos (hfull.2 h)]
    rfl

/-- One more container is allowed if there is room for it and its items are allowed inside. -/
theorem allows_container {α : Type} (r : Reader) (shape : Shape) (items : List α)
    (within : Nat → α → Bool) :
    r.allows (fun depth => decide (0 < depth) && items.all (within (depth - 1)))
      = (decide (r.place ≠ .document ∨ r.nested.length < maxDepth - 1)
        && items.all fun a => (r.nest shape).allows (within · a)) := by
  by_cases hplace : r.place = .document
  · have hinside : ∀ a, (r.nest shape).allows (within · a)
        = within (maxDepth - 1 - r.nested.length - 1) a := by
      intro a
      have hdepth : maxDepth - 1 - (r.nest shape).nested.length
          = maxDepth - 1 - r.nested.length - 1 := rfl
      rw [allows, hdepth]
      simp [nest, hplace]
    simp only [hinside]
    simp only [allows, hplace, ne_eq, not_true_eq_false, decide_false, Bool.false_or, false_or,
      Nat.sub_pos_iff_lt]
  · simp [allows, nest, hplace]

/-- A container nobody asked for is passed over if there may be one more and each of its items is
passed over. -/
theorem takeAll?_nested {α : Type} {tokens : α → List Token} (within : Nat → α → Bool)
    {items : List α} {shape : Shape} (hrole : r.role? = some .ignored) (again : Expect)
    (hagain : ((r.nest shape).expecting .next).separate = .ok ((r.nest shape).expecting again))
    (hitem : ∀ expect, expect = inside shape .ignored ∨ expect = again → ∀ a ∈ items,
      ((r.nest shape).expecting expect).takeAll? (tokens a)
        = if (r.nest shape).allows (within · a) then some ((r.nest shape).expecting .next)
          else none) :
    r.takeAll? (inContainer shape (items.map tokens))
      = if r.allows (fun depth => decide (0 < depth) && items.all (within (depth - 1))) then
          some (r.expecting .next)
        else none := by
  have hitem' : ∀ (s : Unit) r', r' = (r.nest shape).expecting (inside shape .ignored) ∨
      r' = (r.nest shape).expecting again → ∀ a ∈ items, r'.takeAll? (tokens a)
        = (if (r.nest shape).allows (within · a) then some () else none).map
          fun _ => (r.nest shape).expecting .next := by
    rintro - r' hr' a ha
    have htake : r'.takeAll? (tokens a) = if (r.nest shape).allows (within · a) then
        some ((r.nest shape).expecting .next) else none := by
      rcases hr' with rfl | rfl
      · exact hitem _ (.inl rfl) a ha
      · exact hitem _ (.inr rfl) a ha
    rw [htake]
    cases (r.nest shape).allows (within · a) <;> rfl
  have hcomma : ∀ _ : Unit, ((r.nest shape).expecting .next).take? .comma
      = some ((r.nest shape).expecting again) := by
    simp [take?, hagain, Except.toOption]
  have hstart : ∀ _ : Unit,
      ((r.nest shape).expecting (inside shape .ignored)).take? (.closing shape)
        = some (r.expecting .next) := by
    cases shape <;> intro _ <;> rfl
  have hbehind : ∀ _ : Unit, ((r.nest shape).expecting .next).take? (.closing shape)
      = some (r.expecting .next) := by
    simp [take?, mayClose, innermost, nest, close, expecting, Except.toOption]
  have hitems := takeAll?_items _ _ _
    (fun _ a => if (r.nest shape).allows (within · a) then some () else none) _ hitem' hcomma hstart
    hbehind ()
  rw [inContainer, takeAll?_cons, take?, hrole, Option.bind_some, openContainer,
    toOption_openNested, allows_container r shape]
  by_cases hroom : r.place ≠ .document ∨ r.nested.length < maxDepth - 1
  · rw [if_pos hroom, Option.bind_some, hitems, foldlM_check, decide_eq_true hroom, Bool.true_and]
    cases items.all fun a => (r.nest shape).allows (within · a) <;> rfl
  · rw [if_neg hroom, decide_eq_false hroom]
    rfl

/-- A value nobody asked for leaves the reader as it was, behind the value. -/
theorem takeAll?_ignored (v : Value) (hr : r.reading = .nothing) (hrole : r.role? = some .ignored) :
    r.takeAll? v.tokens
      = if r.allows (v.isWithin ·) then some (r.expecting .next) else none := by
  induction v generalizing r with
  | null | boolean =>
    simp [Value.tokens, take?, hrole, takeScalar_ignored hr, allows, Value.isWithin,
      Except.toOption]
  | number n =>
    by_cases hplace : r.place = .document <;> cases hn : n.numeral.outline? <;>
      simp [Value.tokens, take?, hrole, takeNumeral, takeScalar_ignored hr, isStrict, allows,
        Value.isWithin, hplace, hn, Except.toOption]
  | string us =>
    have hkey := expectsKey_of_role? hrole
    by_cases hplace : r.place = .document <;> cases hus : text? us <;>
      simp [Value.tokens, take?, hrole, hkey, takeScalar_ignored hr, isStrict, allows,
        Value.isWithin, textOf?, hplace, hus, Except.toOption]
  | array elements ih =>
    -- an element is read as the array was, one container further in
    have hitem : ∀ expect, expect = inside .array .ignored ∨ expect = .value .ignored →
        ∀ v ∈ elements, ((r.nest .array).expecting expect).takeAll? v.tokens
          = if (r.nest .array).allows (v.isWithin ·) then some ((r.nest .array).expecting .next)
            else none := by
      rintro expect hexpect v hv
      refine ih v hv hr ?_
      rcases hexpect with rfl | rfl <;> rfl
    rw [Value.tokens, elementTokens_eq,
      takeAll?_nested (fun depth v => v.isWithin depth) hrole _ rfl hitem]
    simp only [isWithin_array]
  | object members ih =>
    -- so is the value of a member, behind a key whose text matters in the document only
    have hitem : ∀ expect, expect = inside .object .ignored ∨ expect = .key →
        ∀ m ∈ members, ((r.nest .object).expecting expect).takeAll? (tokensOfMember m)
          = if (r.nest .object).allows (memberWithin · m) then
              some ((r.nest .object).expecting .next)
            else none := by
      rintro expect hexpect m hm
      have hkey : ((r.nest .object).expecting expect).expectsKey = true := by
        rcases hexpect with rfl | rfl <;> rfl
      have htake : ∀ key, (((r.nest .object).expecting expect).takeKey key).toOption
          = (some Role.ignored).map fun role =>
            ((r.nest .object).expecting expect).expecting (.colon role) := by
        intro key
        simp [takeKey, nest, expecting, ← hr, Except.toOption]
      have hvalue := ih m hm (r := (r.nest .object).expecting (.value .ignored)) hr rfl
      rw [takeAll?_member hkey htake]
      simp only [Option.bind_some, expecting_expecting, hvalue]
      by_cases hplace : r.place = .document <;> cases hus : text? m.1 <;>
        simp [allows, memberWithin, textOf?, readsKeyStrictly, nest, hplace, hus]
    rw [Value.tokens, memberTokens_eq, takeAll?_nested memberWithin hrole _ rfl hitem]
    simp only [isWithin_object]

end Config.Reader

end VariantSelector
