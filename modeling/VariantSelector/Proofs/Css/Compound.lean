import VariantSelector.Proofs.Bracketed.Decoding

/-!
Compound selectors. A scan of selector text keeps track of its place; what stands outside of
parentheses, square brackets, double quotes and escapes is bare, and a text without a combinator or
a comma that is bare is one compound (`IsCompound`). The scan goes through any text: a bracket that
closes nothing is passed over. On text in which brackets and quotes close one another it ends where
it began (`Nested.after_eq`), so what follows such text is bare or not by itself. Decoding makes
nothing bare but spaces, so a payload is one compound where the text is that it stands for
(`isCompound_of_decode?`).
-/

namespace VariantSelector.Css

open Bracketed

/-- The place that a scan of selector text has come to. -/
structure Place where
  quoted : Bool := false
  escaping : Bool := false
  parens : Nat := 0
  brackets : Nat := 0
  deriving DecidableEq, Repr

namespace Place

/-- The place behind a character that is neither escaped nor a backslash nor a double quote nor
inside quotes. -/
def touch (p : Place) : Char → Place
  | '(' => { p with parens := p.parens + 1 }
  | ')' => { p with parens := p.parens - 1 }
  | '[' => { p with brackets := p.brackets + 1 }
  | ']' => { p with brackets := p.brackets - 1 }
  | _ => p

def step (p : Place) (c : Char) : Place :=
  if p.escaping then { p with escaping := false }
  else if c = '\\' then { p with escaping := true }
  else if c = '"' then { p with quoted := !p.quoted }
  else if p.quoted then p
  else p.touch c

/-- The place behind a text. -/
def after (p : Place) (s : Text) : Place := s.foldl step p

/-- Whether a character that stands here is outside of brackets, quotes and escapes. -/
def isBare (p : Place) : Bool := !p.quoted && !p.escaping && p.parens = 0 && p.brackets = 0

/-- The bare characters of a text that stands here. -/
def bare (p : Place) : Text → Text
  | [] => []
  | c :: s => if p.isBare then c :: bare (p.step c) s else bare (p.step c) s

end Place

/-- White space, which is a combinator, the other combinators, and the comma. -/
def endsCompound (c : Char) : Bool := isBlank c || c = '>' || c = '+' || c = '~' || c = ','

/-- No combinator and no comma in the text is bare: it is one compound selector, whatever stands in
its brackets and quotes. -/
def IsCompound (s : Text) : Prop := ∀ c ∈ Place.bare {} s, endsCompound c = false

instance (s : Text) : Decidable (IsCompound s) := List.decidableBAll _ _

/-! ### Places -/

namespace Place

variable {p : Place} {c d : Char} {s t : Text}

theorem after_cons (p : Place) (c : Char) (s : Text) : p.after (c :: s) = (p.step c).after s := rfl

theorem after_append (p : Place) (s t : Text) : p.after (s ++ t) = (p.after s).after t :=
  List.foldl_append

theorem mem_bare_cons :
    c ∈ p.bare (d :: s) ↔ (p.isBare = true ∧ c = d) ∨ c ∈ (p.step d).bare s := by
  rw [bare]
  split
  next h => simp [h]
  next h => simp [h]

theorem mem_of_mem_bare (h : c ∈ p.bare s) : c ∈ s := by
  induction s generalizing p with
  | nil => exact h
  | cons d s ih =>
    rcases mem_bare_cons.1 h with ⟨-, rfl⟩ | h
    · exact List.mem_cons_self
    · exact List.mem_cons_of_mem _ (ih h)

theorem bare_append (p : Place) (s t : Text) :
    p.bare (s ++ t) = p.bare s ++ (p.after s).bare t := by
  induction s generalizing p with
  | nil => rfl
  | cons c s ih =>
    rw [List.cons_append, bare, bare, ih, after_cons]
    split <;> rfl

theorem touch_of_isPlain (p : Place) (hc : Reader.isPlain c = true) : p.touch c = p := by
  unfold touch
  split <;> first | rfl | exact absurd hc (by decide)

theorem step_of_isPlain (hp : p.escaping = false) (hc : Reader.isPlain c = true) :
    p.step c = p := by
  have hbackslash : c ≠ '\\' := by
    rintro rfl
    exact absurd hc (by decide)
  have hquote : c ≠ '"' := by
    rintro rfl
    exact absurd hc (by decide)
  simp [step, hp, hbackslash, hquote, p.touch_of_isPlain hc]

theorem after_of_isPlain (hp : p.escaping = false) (hs : ∀ c ∈ s, Reader.isPlain c = true) :
    p.after s = p := by
  induction s with
  | nil => rfl
  | cons c s ih =>
    rw [List.forall_mem_cons] at hs
    rw [after_cons, step_of_isPlain hp hs.1, ih hs.2]

/-- The place of a reader that heeds every bracket. -/
def ofReader (r : Reader) : Place :=
  ⟨r.quoted, r.escaping, r.pending.count .round, r.pending.count .square⟩

theorem eq_cons_of_pop? {b : Bracket} {pending rest : List Bracket}
    (h : pop? (fun _ => true) b pending = some rest) : pending = b :: rest := by
  cases pending with
  | nil => cases h
  | cons a pending =>
    simp only [pop?, ↓reduceIte, Option.ite_none_right_eq_some, Option.some.injEq] at h
    rw [h.1, h.2]

theorem touch_of_touch? {r : Reader} {rest : List Bracket}
    (h : Reader.touch? (fun _ => true) r.pending c = some rest) :
    (ofReader r).touch c = ofReader { r with pending := rest } := by
  obtain ⟨quoted, escaping, pending⟩ := r
  unfold Reader.touch? at h
  split at h
  · cases h
    simp [ofReader, push, touch]
  · obtain rfl := eq_cons_of_pop? h
    simp [ofReader, touch]
  · cases h
    simp [ofReader, push, touch]
  · obtain rfl := eq_cons_of_pop? h
    simp [ofReader, touch]
  next h₁ h₂ h₃ h₄ =>
    cases h
    unfold touch
    split <;> first | rfl | contradiction

theorem step_of_step? {r r' : Reader} (h : r.step? (fun _ => true) c = some r') :
    (ofReader r).step c = ofReader r' := by
  rcases Reader.step?_cases h with ⟨hescaping, rfl⟩ | ⟨hescaping, rfl, rfl⟩ |
    ⟨hescaping, rfl, rfl⟩ | ⟨hescaping, hbackslash, hquote, hquoted, rfl⟩ |
    ⟨hescaping, hbackslash, hquote, hquoted, rest, hrest, rfl⟩
  · simp [step, ofReader, hescaping]
  · simp [step, ofReader, hescaping]
  · simp [step, ofReader, hescaping]
  · simp [step, ofReader, hescaping, hbackslash, hquote, hquoted]
  · have hstep : (ofReader r).step c = (ofReader r).touch c := by
      simp [step, ofReader, hescaping, hbackslash, hquote, hquoted]
    rw [hstep, touch_of_touch? hrest]

theorem after_of_read? {r r' : Reader} (h : r.read? (fun _ => true) s = some r') :
    (ofReader r).after s = ofReader r' := by
  induction s generalizing r with
  | nil =>
    cases h
    rfl
  | cons c s ih =>
    rw [Reader.read?_cons] at h
    obtain ⟨q, hq, h⟩ := Option.bind_eq_some_iff.1 h
    rw [after_cons, step_of_step? hq, ih h]

theorem isBare_eq_false {r : Reader} (h : r.pending ≠ []) : (ofReader r).isBare = false := by
  obtain ⟨quoted, escaping, pending⟩ := r
  cases pending with
  | nil => exact absurd rfl h
  | cons b outer => cases b <;> simp [isBare, ofReader]

/-- Behind a bracket that stays open nothing is bare. -/
theorem bare_of_read? {r r' : Reader} (h : r.read? (fun _ => true) s = some r')
    (outer : List Bracket) (houter : outer ≠ []) :
    (ofReader { r with pending := r.pending ++ outer }).bare s = [] := by
  induction s generalizing r with
  | nil => rfl
  | cons c s ih =>
    rw [Reader.read?_cons] at h
    obtain ⟨q, hq, h⟩ := Option.bind_eq_some_iff.1 h
    have hstep := step_of_step? ((Reader.carries_append (fun _ => true) outer).step? hq)
    rw [bare, isBare_eq_false (List.append_ne_nil_of_right_ne_nil _ houter),
      if_neg Bool.false_ne_true, hstep, ih h]

/-! ### Spaces for underscores -/

theorem step_space (p : Place) : p.step ' ' = p.step '_' := by
  simp [step, touch]

theorem step_backslash_underscore (p : Place) : (p.step '\\').step '_' = p.step '_' := by
  obtain ⟨quoted, escaping, parens, brackets⟩ := p
  cases escaping <;> simp [step, touch]

/-- Writing spaces for underscores makes nothing else bare. -/
theorem mem_bare_spaceUnderscores (mode : UrlMode) (s : Text) (p : Place)
    (h : c ≠ '_' ∧ c ≠ '\\' ∧ c ≠ ' ') :
    c ∈ p.bare (spaceUnderscores mode s) ↔ c ∈ p.bare s := by
  refine spaceUnderscores_rel (R := fun s t => ∀ p : Place, c ∈ p.bare s ↔ c ∈ p.bare t)
    ?_ ?_ ?_ ?_ mode s p
  · intro p
    rfl
  · intro d s t hrest p
    simp only [mem_bare_cons, hrest]
  · intro s t hrest p
    simp only [mem_bare_cons, hrest, h, step_backslash_underscore, and_false, false_or]
  · intro s t hrest p
    simp only [mem_bare_cons, hrest, h, step_space]

theorem mem_spaceUnderscores (mode : UrlMode) (s : Text) (h : c ≠ '_' ∧ c ≠ '\\') (hc : c ∈ s) :
    c ∈ spaceUnderscores mode s := by
  refine spaceUnderscores_rel (R := fun s t => c ∈ t → c ∈ s) ?_ ?_ ?_ ?_ mode s hc
  · exact id
  · intro d s t hrest hmem
    exact List.mem_cons.2 ((List.mem_cons.1 hmem).imp id hrest)
  · intro s t hrest hmem
    simp only [List.mem_cons, h, false_or] at hmem ⊢
    exact hrest hmem
  · intro s t hrest hmem
    simp only [List.mem_cons, h, false_or] at hmem ⊢
    exact .inr (hrest hmem)

end Place

/-! ### Compounds -/

variable {s t : Text}

theorem Nested.after_eq (h : Nested s) : Place.after {} s = {} := Place.after_of_read? h

/-- Behind text that ends where it began, what is bare is bare by itself. -/
theorem isCompound_append (h : Place.after {} s = {}) :
    IsCompound (s ++ t) ↔ IsCompound s ∧ IsCompound t := by
  unfold IsCompound
  rw [Place.bare_append, h, List.forall_mem_append]

theorem Nested.isCompound_parenthesize (h : Nested s) : IsCompound ('(' :: (s ++ [')'])) := by
  have hinside : Place.bare { parens := 1 } s = [] :=
    Place.bare_of_read? h [.round] (List.cons_ne_nil _ _)
  have hplace : Place.after { parens := 1 } s = { parens := 1 } :=
    Place.after_of_read? (h.read?_eq [.round])
  have hbare : Place.bare {} ('(' :: (s ++ [')'])) = ['('] := by
    show '(' :: Place.bare { parens := 1 } (s ++ [')']) = _
    rw [Place.bare_append, hinside, hplace]
    rfl
  unfold IsCompound
  rw [hbare]
  exact List.forall_mem_singleton.2 rfl

theorem IsCompound.of_imp (hs : IsCompound s)
    (h : ∀ c, endsCompound c = true → c ∈ Place.bare {} t → c ∈ Place.bare {} s) :
    IsCompound t := by
  intro c hc
  rw [Bool.eq_false_iff]
  intro hends
  exact absurd (hends.symm.trans (hs c (h c hends hc))) (by decide)

theorem toLower_of_endsCompound {c : Char} (h : endsCompound c = true) : c.toLower = c := by
  have hc : ¬ (65 ≤ c.toNat ∧ c.toNat ≤ 90) := by
    intro hc
    simp only [endsCompound, isBlank, Bool.or_eq_true, decide_eq_true_eq, Bool.and_eq_true] at h
    rcases h with (((h | rfl) | rfl) | rfl) | rfl
    · omega
    all_goals exact absurd hc (by decide)
  unfold Char.toLower
  split
  next hupper =>
    have : 65 ≤ c.toNat ∧ c.toNat ≤ 90 := hupper
    exact absurd this hc
  next => rfl

theorem endsCompound_of_isHintChar {c : Char} (h : IsHintChar c) : endsCompound c = false := by
  rw [Bool.eq_false_iff]
  intro hc
  have hnone : (':' :: Hint.all.flatMap Hint.name).all (!endsCompound ·) = true := by decide
  have := List.all_eq_true.1 hnone c (h.mem (toLower_of_endsCompound hc))
  rw [hc] at this
  cases this

/-! ### Decoding -/

theorem isCompound_spaceUnderscores {mode : UrlMode}
    (hblank : ∀ c ∈ spaceUnderscores mode s, isBlank c = false) :
    IsCompound (spaceUnderscores mode s) ↔ IsCompound s := by
  have hspace : ' ' ∉ spaceUnderscores mode s := fun h => absurd (hblank ' ' h) (by decide)
  have hspace' : ' ' ∉ s := mt (Place.mem_spaceUnderscores mode s (by decide)) hspace
  have hsame : ∀ c, endsCompound c = true →
      (c ∈ Place.bare {} (spaceUnderscores mode s) ↔ c ∈ Place.bare {} s) := by
    intro c hc
    by_cases hc' : c = ' '
    · subst hc'
      exact iff_of_false (mt Place.mem_of_mem_bare hspace) (mt Place.mem_of_mem_bare hspace')
    · refine Place.mem_bare_spaceUnderscores mode s {} ⟨?_, ?_, hc'⟩ <;>
        · rintro rfl
          exact absurd hc (by decide)
  exact ⟨fun h => h.of_imp fun c hc => (hsame c hc).2, fun h => h.of_imp fun c hc => (hsame c hc).1⟩

/-- A payload that stands for a run of pseudo-classes without white space is one compound iff this
run is; no quotes are put around it. -/
theorem isCompound_of_decode? {payload value : Text} (h : decode? payload = some value)
    (hcolon : value.head? = some ':') (hblank : ∀ c ∈ value, isBlank c = false) :
    (splitHint payload).1 ≠ some .quoted ∧ (IsCompound value ↔ IsCompound payload) := by
  cases hsplit : splitHint payload with
  | mk hint base =>
    obtain ⟨hquoted, hplain⟩ := value_of_decode? hsplit h
    have hhint : hint ≠ some .quoted := by
      intro hhint
      obtain ⟨p, rfl⟩ := hquoted hhint
      exact absurd hcolon (by simp [quote])
    obtain ⟨mode, rfl⟩ := hplain hhint
    have hbase : readCustomProperty base = base := by
      unfold readCustomProperty at hcolon ⊢
      split at hcolon
      next => simp [spaceUnderscores] at hcolon
      next hproperty => rw [if_neg hproperty]
    rw [hbase] at hblank ⊢
    obtain ⟨lead, rfl, hlead⟩ := exists_of_splitHint hsplit
    have hplace : Place.after {} lead = {} :=
      Place.after_of_isPlain rfl fun c hc => (hlead c hc).isPlain
    have hcompound : IsCompound lead := fun c hc =>
      endsCompound_of_isHintChar (hlead c (Place.mem_of_mem_bare hc))
    refine ⟨hhint, ?_⟩
    rw [isCompound_spaceUnderscores hblank, isCompound_append hplace, and_iff_right hcompound]

end VariantSelector.Css
