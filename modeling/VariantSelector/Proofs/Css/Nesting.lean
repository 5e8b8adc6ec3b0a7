import VariantSelector.Proofs.Css.Reading

/-!
Closed text. A reader that skips what stands in double quotes and what a backslash takes along keeps
the brackets that are open on a stack; a text is closed if each bracket is closed by its own and
none is left over (`Closed`). The reader may heed one kind of bracket alone, and then a text is
closed that another reader finds interleaved. What is closed can be put together: behind one
another, into parentheses, behind identifiers.
-/

namespace VariantSelector.Css

/-! ### The reader -/

inductive Bracket
  | round
  | square
  deriving DecidableEq, Repr

/-- The open brackets, the innermost first, behind one more opening bracket. -/
def push (heeds : Bracket → Bool) (b : Bracket) (pending : List Bracket) : List Bracket :=
  if heeds b then b :: pending else pending

/-- The open brackets behind a closing one, which must be that of the innermost. -/
def pop? (heeds : Bracket → Bool) (b : Bracket) (pending : List Bracket) : Option (List Bracket) :=
  if heeds b then
    match pending with
    | [] => none
    | a :: outer => if a = b then some outer else none
  else some pending

/-- A reader on its way: whether it is inside double quotes, whether a backslash is in front, and
the brackets that are open. -/
structure Reader where
  quoted : Bool := false
  escaping : Bool := false
  pending : List Bracket := []
  deriving DecidableEq, Repr

namespace Reader

/-- One character that is neither escaped nor a backslash nor a double quote nor inside quotes. -/
def touch? (heeds : Bracket → Bool) (pending : List Bracket) : Char → Option (List Bracket)
  | '(' => some (push heeds .round pending)
  | ')' => pop? heeds .round pending
  | '[' => some (push heeds .square pending)
  | ']' => pop? heeds .square pending
  | _ => some pending

def step? (heeds : Bracket → Bool) (s : Reader) (c : Char) : Option Reader :=
  if s.escaping then some { s with escaping := false }
  else if c = '\\' then some { s with escaping := true }
  else if c = '"' then some { s with quoted := !s.quoted }
  else if s.quoted then some s
  else (touch? heeds s.pending c).map fun pending => { s with pending }

def read? (heeds : Bracket → Bool) (s : Reader) (p : Text) : Option Reader :=
  p.foldlM (step? heeds) s

end Reader

/-- The brackets in a text that are heeded close one another in nested order; neither a bracket nor
a quote nor an escape is left open. -/
def Closed (heeds : Bracket → Bool) (p : Text) : Prop := Reader.read? heeds {} p = some {}

instance (heeds : Bracket → Bool) (p : Text) : Decidable (Closed heeds p) :=
  inferInstanceAs (Decidable (_ = _))

/-- All brackets in a text close one another in nested order. -/
abbrev Nested (p : Text) : Prop := Closed (fun _ => true) p

theorem pop?_push (heeds : Bracket → Bool) (b : Bracket) (pending : List Bracket) :
    pop? heeds b (push heeds b pending) = some pending := by
  unfold pop? push
  split <;> simp

/-! ### Reading -/

namespace Reader

variable {heeds : Bracket → Bool} {s t : Reader} {p q : Text} {c : Char}

theorem read?_cons : read? heeds s (c :: p) = (step? heeds s c).bind (read? heeds · p) :=
  List.foldlM_cons

theorem read?_append_of_eq_some (h : read? heeds s p = some t) :
    read? heeds s (p ++ q) = read? heeds t q := by
  rw [read?, List.foldlM_append, show p.foldlM (step? heeds) s = some t from h]
  rfl

/-- Characters that mean nothing to the reader. -/
def isPlain (c : Char) : Bool :=
  c ≠ '\\' && c ≠ '"' && c ≠ '(' && c ≠ ')' && c ≠ '[' && c ≠ ']'

theorem isPlain_iff :
    isPlain c = true ↔ c ≠ '\\' ∧ c ≠ '"' ∧ c ≠ '(' ∧ c ≠ ')' ∧ c ≠ '[' ∧ c ≠ ']' := by
  simp [isPlain, and_assoc]

theorem step?_of_isPlain (hs : s.escaping = false) (hc : isPlain c = true) :
    step? heeds s c = some s := by
  obtain ⟨h₁, h₂, h₃, h₄, h₅, h₆⟩ := isPlain_iff.1 hc
  obtain ⟨quoted, escaping, pending⟩ := s
  cases hs
  cases quoted <;> simp [step?, touch?, h₁, h₂]

theorem read?_of_isPlain (hs : s.escaping = false) (hp : ∀ c ∈ p, isPlain c = true) :
    read? heeds s p = some s := by
  induction p with
  | nil => rfl
  | cons c p ih =>
    rw [List.forall_mem_cons] at hp
    rw [read?_cons, step?_of_isPlain hs hp.1, Option.bind_some, ih hp.2]

theorem read?_backslash (hs : s.escaping = false) (c : Char) (p : Text) :
    read? heeds s ('\\' :: c :: p) = read? heeds s p := by
  obtain ⟨quoted, escaping, pending⟩ := s
  cases hs
  rfl

/-- What a step can be. -/
theorem step?_cases (h : step? heeds s c = some t) :
    (s.escaping = true ∧ t = { s with escaping := false }) ∨
    (s.escaping = false ∧ c = '\\' ∧ t = { s with escaping := true }) ∨
    (s.escaping = false ∧ c = '"' ∧ t = { s with quoted := !s.quoted }) ∨
    (s.escaping = false ∧ c ≠ '\\' ∧ c ≠ '"' ∧ s.quoted = true ∧ t = s) ∨
    (s.escaping = false ∧ c ≠ '\\' ∧ c ≠ '"' ∧ s.quoted = false ∧
      ∃ pending, touch? heeds s.pending c = some pending ∧ t = { s with pending }) := by
  obtain ⟨quoted, escaping, pending⟩ := s
  unfold step? at h
  cases escaping with
  | true => exact .inl ⟨rfl, (Option.some.inj h).symm⟩
  | false =>
    rw [if_neg Bool.false_ne_true] at h
    by_cases hbackslash : c = '\\'
    · rw [if_pos hbackslash] at h
      exact .inr (.inl ⟨rfl, hbackslash, (Option.some.inj h).symm⟩)
    · rw [if_neg hbackslash] at h
      by_cases hquote : c = '"'
      · rw [if_pos hquote] at h
        exact .inr (.inr (.inl ⟨rfl, hquote, (Option.some.inj h).symm⟩))
      · rw [if_neg hquote] at h
        cases quoted with
        | true =>
          exact .inr (.inr (.inr (.inl ⟨rfl, hbackslash, hquote, rfl, (Option.some.inj h).symm⟩)))
        | false =>
          obtain ⟨rest, hrest, rfl⟩ := Option.map_eq_some_iff.1 h
          exact .inr (.inr (.inr (.inr ⟨rfl, hbackslash, hquote, rfl, rest, hrest, rfl⟩)))

/-- The next character is escaped behind a backslash and nowhere else. -/
theorem escaping_of_step? (hs : s.escaping = false) (h : step? heeds s c = some t) :
    t.escaping = decide (c = '\\') := by
  rcases step?_cases h with ⟨hescaping, -⟩ | ⟨-, rfl, rfl⟩ | ⟨-, rfl, rfl⟩ |
    ⟨-, hbackslash, -, -, rfl⟩ | ⟨-, hbackslash, -, -, pending, -, rfl⟩
  · rw [hs] at hescaping
    cases hescaping
  · rfl
  · exact hs
  · rw [hs, decide_eq_false hbackslash]
  · rw [decide_eq_false hbackslash]
    exact hs

/-! ### Other brackets on the stack -/

/-- A change to the stack that openings and closings do not notice. -/
structure Carries (heeds heeds' : Bracket → Bool) (f : List Bracket → List Bracket) : Prop where
  push : ∀ b pending, f (push heeds b pending) = Css.push heeds' b (f pending)
  pop? : ∀ b pending rest, Css.pop? heeds b pending = some rest →
    Css.pop? heeds' b (f pending) = some (f rest)

variable {heeds' : Bracket → Bool} {f : List Bracket → List Bracket}

theorem Carries.touch? (h : Carries heeds heeds' f) {pending rest : List Bracket}
    (htouch : touch? heeds pending c = some rest) :
    Reader.touch? heeds' (f pending) c = some (f rest) := by
  unfold Reader.touch? at htouch ⊢
  split at htouch
  · rw [← Option.some.inj htouch, h.push]
  · exact h.pop? _ _ _ htouch
  · rw [← Option.some.inj htouch, h.push]
  · exact h.pop? _ _ _ htouch
  · rw [Option.some.inj htouch]

theorem Carries.step? (h : Carries heeds heeds' f) (hstep : step? heeds s c = some t) :
    Reader.step? heeds' { s with pending := f s.pending } c
      = some { t with pending := f t.pending } := by
  unfold Reader.step?
  rcases step?_cases hstep with ⟨hescaping, rfl⟩ | ⟨hescaping, rfl, rfl⟩ | ⟨hescaping, rfl, rfl⟩ |
    ⟨hescaping, hbackslash, hquote, hquoted, rfl⟩ |
    ⟨hescaping, hbackslash, hquote, hquoted, rest, hrest, rfl⟩
  · simp [hescaping]
  · simp [hescaping]
  · simp [hescaping]
  · simp [hescaping, hbackslash, hquote, hquoted]
  · simp [hescaping, hbackslash, hquote, hquoted, h.touch? hrest]

theorem Carries.read? (h : Carries heeds heeds' f) (hread : read? heeds s p = some t) :
    Reader.read? heeds' { s with pending := f s.pending } p
      = some { t with pending := f t.pending } := by
  induction p generalizing s with
  | nil =>
    cases hread
    rfl
  | cons c p ih =>
    rw [read?_cons] at hread ⊢
    obtain ⟨u, hu, hread⟩ := Option.bind_eq_some_iff.1 hread
    rw [h.step? hu, Option.bind_some, ih hread]

/-- Brackets that are open further out do not matter. -/
theorem carries_append (heeds : Bracket → Bool) (outer : List Bracket) :
    Carries heeds heeds (· ++ outer) where
  push b pending := by
    unfold Css.push
    split <;> rfl
  pop? b pending rest h := by
    by_cases hb : heeds b = true
    · simp only [Css.pop?, hb, ↓reduceIte] at h ⊢
      cases pending with
      | nil => cases h
      | cons a pending =>
        simp only [List.cons_append] at h ⊢
        split at h
        next hab => rw [if_pos hab, Option.some.inj h]
        next => cases h
    · simp only [Css.pop?, hb, Bool.false_eq_true, ↓reduceIte] at h ⊢
      rw [Option.some.inj h]

/-- Some of the brackets close one another where all of them do. -/
theorem carries_filter (heeds : Bracket → Bool) :
    Carries (fun _ => true) heeds (List.filter heeds) where
  push b pending := by simp [Css.push, List.filter_cons]
  pop? b pending rest h := by
    cases pending with
    | nil => cases h
    | cons a pending =>
      simp only [Css.pop?, ↓reduceIte] at h
      split at h
      next hab =>
        cases h
        subst hab
        rw [List.filter_cons]
        exact pop?_push heeds _ _
      next => cases h

end Reader

/-! ### Closed text -/

section Closed

variable {heeds : Bracket → Bool} {p q : Text}

theorem Nested.closed (h : Nested p) (heeds : Bracket → Bool) : Closed heeds p :=
  (Reader.carries_filter heeds).read? h

/-- What is open in front of a closed text is open behind it. -/
theorem Closed.read?_eq (h : Closed heeds p) (pending : List Bracket) :
    Reader.read? heeds { pending } p = some { pending } :=
  (Reader.carries_append heeds pending).read? h

theorem closed_of_isPlain (h : ∀ c ∈ p, Reader.isPlain c = true) : Closed heeds p :=
  Reader.read?_of_isPlain rfl h

theorem Closed.append (hp : Closed heeds p) (hq : Closed heeds q) : Closed heeds (p ++ q) := by
  unfold Closed
  rw [Reader.read?_append_of_eq_some hp]
  exact hq

theorem Closed.parenthesize (h : Closed heeds p) : Closed heeds ('(' :: (p ++ [')'])) := by
  have hopen : Reader.step? heeds {} '(' = some { pending := push heeds .round [] } := rfl
  have hclose : Reader.step? heeds { pending := push heeds .round [] } ')' = some {} := by
    simp [Reader.step?, Reader.touch?, pop?_push]
  unfold Closed
  rw [Reader.read?_cons, hopen, Option.bind_some,
    Reader.read?_append_of_eq_some (h.read?_eq _), Reader.read?_cons, hclose]
  rfl

end Closed

/-! ### Identifiers -/

theorem isPlain_of_isNameChar {c : Char} (h : isNameChar c = true) : Reader.isPlain c = true := by
  by_cases hc : c.toNat < 0x80
  · exact ascii_induction
      (P := fun c => isNameChar c = true → Reader.isPlain c = true) (by decide) hc h
  · have hne : ∀ d : Char, d.toNat < 0x80 → c ≠ d := fun d hd hcd => hc (hcd ▸ hd)
    simp [Reader.isPlain, hne]

/-- A spelling keeps its brackets and quotes behind backslashes. -/
theorem Spells.read?_eq {heeds : Bracket → Bool} {s t : Text} (h : Spells s t) {r : Reader}
    (hr : r.escaping = false) : r.read? heeds t = some r := by
  induction h with
  | nil => rfl
  | name hname _ ih =>
    rw [Reader.read?_cons, Reader.step?_of_isPlain hr (isPlain_of_isNameChar hname),
      Option.bind_some, ih]
  | @codePoint c s t _ _ ih =>
    have hdigits : ∀ d ∈ Nat.toDigits 16 c.toNat, Reader.isPlain d = true := fun d hd =>
      isPlain_of_isNameChar (isNameChar_of_isHexDigit (isHexDigit_of_mem_toDigits hd))
    have hcode : r.read? heeds (escapeCodePoint c) = some r := by
      unfold escapeCodePoint
      cases hd : Nat.toDigits 16 c.toNat with
      | nil => exact absurd hd (Nat.toDigits_ne_nil)
      | cons d ds =>
        rw [hd, List.forall_mem_cons] at hdigits
        rw [List.cons_append, Reader.read?_backslash hr]
        refine Reader.read?_of_isPlain hr (List.forall_mem_append.2 ⟨hdigits.2, ?_⟩)
        exact List.forall_mem_singleton.2 (by decide)
    rw [Reader.read?_append_of_eq_some hcode, ih]
  | backslash _ _ _ _ ih => rw [Reader.read?_backslash hr, ih]

end VariantSelector.Css
