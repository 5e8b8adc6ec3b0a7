import VariantSelector.Bracketed.Payload
import VariantSelector.Proofs.Bracketed.Balance
import VariantSelector.Proofs.Css.Nesting

/-!
What decoding does to brackets. A payload closes its parentheses and its square brackets, counted
apart from each other (`Closes.closed`), and none of the steps of decoding opens or closes one: to
the reader an underscore is like a space with or without its backslash, a hint is plain text, and
quotes keep all that they are put around (`closed_of_decode?`).
-/

namespace VariantSelector

/-! ### Characters behind backslashes -/

/-- The characters that a backslash takes along; `escaping` tells whether one stands in front. -/
def Text.escapedFrom : Bool → Text → Text
  | _, [] => []
  | true, c :: p => c :: escapedFrom false p
  | false, c :: p => escapedFrom (c = '\\') p

/-- The characters that no backslash takes along, backslashes included. -/
def Text.unescapedFrom : Bool → Text → Text
  | _, [] => []
  | true, _ :: p => unescapedFrom false p
  | false, c :: p => c :: unescapedFrom (c = '\\') p

/-- The characters of a text that a backslash takes along. -/
def Text.escaped (p : Text) : Text := escapedFrom false p

/-- The characters of a text that no backslash takes along. -/
def Text.unescaped (p : Text) : Text := unescapedFrom false p

namespace Bracketed

open Css

/-! ### Counting one kind of bracket -/

/-- How many brackets of a kind are open, of `brackets` square ones and `parens` round ones. -/
def openCount (brackets parens : Nat) : Bracket → Nat
  | .round => parens
  | .square => brackets

theorem Closes.read? {b d : Nat} {p : Text} (h : Closes b d p) (hquote : '"' ∉ p.unescaped)
    (k : Bracket) :
    Reader.read? (· = k) { pending := List.replicate (openCount b d k) k } p = some {} := by
  induction h with
  | nil => cases k <;> rfl
  | escape c _ ih =>
    rw [Reader.read?_backslash rfl]
    refine ih ?_
    simpa [Text.unescaped, Text.unescapedFrom] using hquote
  | openParen _ ih =>
    have := ih (by simpa [Text.unescaped, Text.unescapedFrom] using hquote)
    cases k <;> exact this
  | closeParen _ ih =>
    have := ih (by simpa [Text.unescaped, Text.unescapedFrom] using hquote)
    cases k <;> exact this
  | openBracket _ ih =>
    have := ih (by simpa [Text.unescaped, Text.unescapedFrom] using hquote)
    cases k <;> exact this
  | closeBracket _ ih =>
    have := ih (by simpa [Text.unescaped, Text.unescapedFrom] using hquote)
    cases k <;> exact this
  | @plain b d p c hc _ ih =>
    obtain ⟨h₁, h₂, h₃, h₄, h₅⟩ := isDelimiter_eq_false_iff.1 hc
    simp only [Text.unescaped, Text.unescapedFrom, h₁, decide_false, List.mem_cons, not_or]
      at hquote
    have hplain : Reader.isPlain c = true :=
      Reader.isPlain_iff.2 ⟨h₁, Ne.symm hquote.1, h₂, h₃, h₄, h₅⟩
    rw [Reader.read?_cons, Reader.step?_of_isPlain rfl hplain]
    exact ih hquote.2

/-- A balanced payload closes each kind of bracket. -/
theorem Balanced.closed {p : Text} (h : Balanced p) (hquote : '"' ∉ p.unescaped) (k : Bracket) :
    Closed (· = k) p := by
  have := (balanced_iff_closes.1 h).read? hquote k
  cases k <;> exact this

variable {heeds : Bracket → Bool} {s : Reader} {p q : Text}

/-! ### Spaces for underscores -/

theorem read?_cons_congr (c : Char)
    (h : ∀ s : Reader, s.read? heeds p = s.read? heeds q) (s : Reader) :
    s.read? heeds (c :: p) = s.read? heeds (c :: q) := by
  rw [Reader.read?_cons, Reader.read?_cons, show (Reader.read? heeds · p) = _ from funext h]

/-- To the reader, an escaped underscore is an underscore. -/
theorem read?_escapedUnderscore (heeds : Bracket → Bool) (s : Reader) (p : Text) :
    s.read? heeds ('\\' :: '_' :: p) = s.read? heeds ('_' :: p) := by
  obtain ⟨quoted, escaping, pending⟩ := s
  cases quoted <;> cases escaping <;> rfl

theorem read?_space (heeds : Bracket → Bool) (s : Reader) (p : Text) :
    s.read? heeds (' ' :: p) = s.read? heeds ('_' :: p) := by
  obtain ⟨quoted, escaping, pending⟩ := s
  cases quoted <;> cases escaping <;> rfl

/-- A relation that one more character in front keeps, be it the same one on both sides, an
underscore for an escaped one or a space for an underscore, holds between what is written and what
was read. -/
theorem spaceUnderscores_rel {R : Text → Text → Prop} (nil : R [] [])
    (cons : ∀ (c : Char) {p q : Text}, R p q → R (c :: p) (c :: q))
    (escape : ∀ {p q : Text}, R p q → R ('_' :: p) ('\\' :: '_' :: q))
    (space : ∀ {p q : Text}, R p q → R (' ' :: p) ('_' :: q)) (mode : UrlMode) (p : Text) :
    R (spaceUnderscores mode p) p := by
  fun_induction spaceUnderscores mode p with
  | case1 => exact nil
  | case2 mode rest ih => exact cons _ (cons _ (cons _ (cons _ ih)))
  | case3 mode rest ih => exact cons _ ih
  | case4 mode rest ih => exact escape ih
  | case5 mode rest ih =>
    split
    · exact cons _ ih
    · exact space ih
  | case6 mode c rest _ _ _ _ ih => exact cons _ ih

/-- Writing spaces for underscores changes nothing that the reader heeds. -/
theorem read?_spaceUnderscores (heeds : Bracket → Bool) (mode : UrlMode) (p : Text) (s : Reader) :
    s.read? heeds (spaceUnderscores mode p) = s.read? heeds p := by
  refine spaceUnderscores_rel (R := fun p q => ∀ s : Reader, s.read? heeds p = s.read? heeds q)
    ?_ ?_ ?_ ?_ mode p s
  · intro s
    rfl
  · intro c p q h
    exact read?_cons_congr c h
  · intro p q h s
    rw [read?_escapedUnderscore]
    exact read?_cons_congr _ h s
  · intro p q h s
    rw [read?_space]
    exact read?_cons_congr _ h s

theorem mem_escapedFrom_spaceUnderscores (mode : UrlMode) (p : Text) (b : Bool) :
    '&' ∈ (spaceUnderscores mode p).escapedFrom b ↔ '&' ∈ p.escapedFrom b := by
  refine spaceUnderscores_rel
    (R := fun p q => ∀ b : Bool, '&' ∈ p.escapedFrom b ↔ '&' ∈ q.escapedFrom b) ?_ ?_ ?_ ?_ mode p b
  · intro b
    rfl
  · intro c p q h b
    cases b <;> simp [Text.escapedFrom, h]
  · intro p q h b
    cases b <;> simp [Text.escapedFrom, h]
  · intro p q h b
    cases b <;> simp [Text.escapedFrom, h]

/-! ### Hints -/

theorem exists_of_afterAnyCase? {lead p rest : Text} (h : afterAnyCase? lead p = some rest) :
    ∃ written : Text, p = written ++ rest ∧ written.map Char.toLower = lead := by
  fun_induction afterAnyCase? lead p with
  | case1 p =>
    cases h
    exact ⟨[], rfl, rfl⟩
  | case2 => cases h
  | case3 lead d p ih =>
    obtain ⟨written, rfl, hlower⟩ := ih h
    exact ⟨d :: written, rfl, by rw [List.map_cons, hlower]⟩
  | case4 => cases h

/-- A character of a hint, in whatever case, or the colon behind it. -/
def IsHintChar (c : Char) : Prop := c = ':' ∨ c.toLower ∈ Hint.all.flatMap Hint.name

theorem IsHintChar.mem {c : Char} (h : IsHintChar c) (hlower : c.toLower = c) :
    c ∈ ':' :: Hint.all.flatMap Hint.name := by
  rw [IsHintChar, hlower] at h
  exact List.mem_cons.2 h

theorem IsHintChar.isPlain {c : Char} (h : IsHintChar c) : Reader.isPlain c = true := by
  rw [Reader.isPlain_iff]
  refine ⟨?_, ?_, ?_, ?_, ?_, ?_⟩ <;>
  · rintro rfl
    exact absurd (h.mem rfl) (by decide)

/-- A hint is plain text in front of what it is a hint at. -/
theorem exists_of_splitHint {p base : Text} {hint : Option Hint} (h : splitHint p = (hint, base)) :
    ∃ lead : Text, p = lead ++ base ∧ ∀ c ∈ lead, IsHintChar c := by
  unfold splitHint at h
  split at h
  next found base' hfound =>
    cases h
    obtain ⟨hint, hmem, hhint⟩ := List.exists_of_findSome?_eq_some hfound
    obtain ⟨base', hstrip, heq⟩ := Option.map_eq_some_iff.1 hhint
    cases heq
    obtain ⟨rest, hrest, hstrip⟩ := Option.bind_eq_some_iff.1 hstrip
    split at hstrip
    next =>
      cases hstrip
      obtain ⟨written, rfl, hlower⟩ := exists_of_afterAnyCase? hrest
      have hcolon : ∀ c ∈ [':'], IsHintChar c := List.forall_mem_singleton.2 (.inl rfl)
      refine ⟨written ++ [':'], by simp, List.forall_mem_append.2 ⟨fun c hc => ?_, hcolon⟩⟩
      refine .inr (List.mem_flatMap.2 ⟨found, hmem, ?_⟩)
      rw [← hlower]
      exact List.mem_map_of_mem hc
    next => cases hstrip
  next =>
    cases h
    exact ⟨[], rfl, by simp⟩

/-! ### Decoding -/

theorem closed_of_isPlain_append {lead : Text}
    (hlead : ∀ c ∈ lead, Reader.isPlain c = true)
    (h : Closed heeds (lead ++ p)) : Closed heeds p := by
  unfold Closed at h
  rwa [Reader.read?_append_of_eq_some (Reader.read?_of_isPlain rfl hlead)] at h

theorem closed_readCustomProperty (h : Closed heeds p) : Closed heeds (readCustomProperty p) := by
  unfold readCustomProperty
  split
  · have hvar : Closed heeds "var".toList := closed_of_isPlain (List.all_eq_true.1 (by decide))
    exact hvar.append h.parenthesize
  · exact h

/-- What is written between quotes. -/
def escapeQuotes (p : Text) : Text :=
  p.flatMap fun c => if c = '"' || c = '\\' then ['\\', c] else [c]

theorem quote_eq (p : Text) : quote p = '"' :: (escapeQuotes p ++ ['"']) := rfl

theorem escapeQuotes_cons_of_pos {c : Char} (hc : c = '"' ∨ c = '\\') (p : Text) :
    escapeQuotes (c :: p) = '\\' :: c :: escapeQuotes p := by
  simp [escapeQuotes, hc]

theorem escapeQuotes_cons_of_neg {c : Char} (hc : ¬ (c = '"' ∨ c = '\\')) (p : Text) :
    escapeQuotes (c :: p) = c :: escapeQuotes p := by
  simp [escapeQuotes, hc]

/-- Inside quotes, with a backslash in front of each quote and backslash, all text is skipped. -/
theorem closed_quote (heeds : Bracket → Bool) (p : Text) : Closed heeds (quote p) := by
  have hinside : ∀ rest : Text, Reader.read? heeds { quoted := true } (escapeQuotes p ++ rest)
      = Reader.read? heeds { quoted := true } rest := by
    intro rest
    induction p with
    | nil => rfl
    | cons c p ih =>
      by_cases hc : c = '"' ∨ c = '\\'
      · rw [escapeQuotes_cons_of_pos hc, List.cons_append, List.cons_append,
          Reader.read?_backslash rfl, ih]
      · have hstep : Reader.step? heeds { quoted := true } c = some { quoted := true } := by
          simp [Reader.step?, not_or.1 hc]
        rw [escapeQuotes_cons_of_neg hc, List.cons_append, Reader.read?_cons, hstep,
          Option.bind_some, ih]
  unfold Closed
  rw [quote_eq, Reader.read?_cons]
  exact hinside ['"']

/-- A payload is quoted if its hint says so; else its base is used, through `var(...)` where it is a
custom property, and with spaces in it. -/
theorem value_of_decode? {payload value base : Text} {hint : Option Hint}
    (hsplit : splitHint payload = (hint, base)) (h : decode? payload = some value) :
    (hint = some .quoted → ∃ p, value = quote p) ∧
    (hint ≠ some .quoted → ∃ mode, value = spaceUnderscores mode (readCustomProperty base)) := by
  simp only [decode?, hsplit] at h
  split at h
  · cases h
  · split at h
    · cases h
      exact ⟨fun h => (nomatch h), fun _ => ⟨.plain, rfl⟩⟩
    · cases h
      exact ⟨fun _ => ⟨_, rfl⟩, fun h => absurd rfl h⟩
    next hquoted =>
      cases h
      exact ⟨fun h => absurd h hquoted, fun _ => ⟨.outside, rfl⟩⟩

/-- What a payload stands for is closed where the payload is, and always if it is quoted. -/
theorem closed_of_decode? {payload value : Text} (h : decode? payload = some value)
    (hclosed : (splitHint payload).1 ≠ some .quoted → Closed heeds payload) :
    Closed heeds value := by
  cases hsplit : splitHint payload with
  | mk hint base =>
    obtain ⟨hquoted, hplain⟩ := value_of_decode? hsplit h
    rw [hsplit] at hclosed
    by_cases hhint : hint = some .quoted
    · obtain ⟨p, rfl⟩ := hquoted hhint
      exact closed_quote heeds p
    · obtain ⟨mode, rfl⟩ := hplain hhint
      obtain ⟨lead, rfl, hlead⟩ := exists_of_splitHint hsplit
      have hbase := closed_readCustomProperty
        (closed_of_isPlain_append (fun c hc => (hlead c hc).isPlain) (hclosed hhint))
      unfold Closed
      rw [read?_spaceUnderscores]
      exact hbase

theorem escapedFrom_of_isPlain_append {lead : Text} (h : ∀ c ∈ lead, Reader.isPlain c = true)
    (p : Text) : (lead ++ p).escapedFrom false = p.escapedFrom false := by
  induction lead with
  | nil => rfl
  | cons c lead ih =>
    rw [List.forall_mem_cons] at h
    have hc : c ≠ '\\' := by
      rintro rfl
      exact absurd h.1 (by decide)
    rw [List.cons_append, Text.escapedFrom, decide_eq_false hc, ih h.2]

theorem mem_escapedFrom_append_paren (p : Text) (b : Bool) :
    '&' ∈ (p ++ [')']).escapedFrom b ↔ '&' ∈ p.escapedFrom b := by
  induction p generalizing b with
  | nil => cases b <;> decide
  | cons c p ih => cases b <;> simp [Text.escapedFrom, ih]

theorem mem_escaped_readCustomProperty (p : Text) :
    '&' ∈ (readCustomProperty p).escaped ↔ '&' ∈ p.escaped := by
  unfold readCustomProperty
  split
  · exact mem_escapedFrom_append_paren p false
  · rfl

theorem not_mem_escaped_quote (p : Text) : '&' ∉ (quote p).escaped := by
  have hinside : '&' ∉ Text.escapedFrom false (escapeQuotes p ++ ['"']) := by
    induction p with
    | nil => decide
    | cons c p ih =>
      by_cases hc : c = '"' ∨ c = '\\'
      · have hne : '&' ≠ c := by
          rintro rfl
          exact absurd hc (by decide)
        rw [escapeQuotes_cons_of_pos hc]
        simpa [Text.escapedFrom, hne] using ih
      · rw [escapeQuotes_cons_of_neg hc]
        simpa [Text.escapedFrom, not_or.1 hc] using ih
  exact hinside

/-- Decoding puts no `&` behind a backslash. -/
theorem mem_escaped_of_decode? {payload value : Text} (h : decode? payload = some value)
    (hmem : '&' ∈ value.escaped) :
    (splitHint payload).1 ≠ some .quoted ∧ '&' ∈ payload.escaped := by
  cases hsplit : splitHint payload with
  | mk hint base =>
    obtain ⟨hquoted, hplain⟩ := value_of_decode? hsplit h
    by_cases hhint : hint = some .quoted
    · obtain ⟨p, rfl⟩ := hquoted hhint
      exact absurd hmem (not_mem_escaped_quote p)
    · obtain ⟨mode, rfl⟩ := hplain hhint
      obtain ⟨lead, rfl, hlead⟩ := exists_of_splitHint hsplit
      have hbase := (mem_escapedFrom_spaceUnderscores mode _ false).1 hmem
      refine ⟨hhint, ?_⟩
      rw [Text.escaped, escapedFrom_of_isPlain_append fun c hc => (hlead c hc).isPlain]
      exact (mem_escaped_readCustomProperty base).1 hbase

end Bracketed

end VariantSelector
