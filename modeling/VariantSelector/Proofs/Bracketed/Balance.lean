import VariantSelector.Bracketed.Group
import VariantSelector.Proofs.Text.Cut

/-!
Balanced payloads. `Closes` says of a text alone, without looking for its end, that it closes what
is open in front of it; the scan for the end of a group finds exactly such texts, whatever follows
the group (`closeGroup_eq_some_iff`). A token can therefore be cut up around a group in one way
only (`extract?_eq_some_iff`), and cutting up is the inverse of writing.
-/

namespace VariantSelector.Bracketed

/-- Characters that the scan for the end of a group heeds. -/
def isDelimiter (c : Char) : Bool := c = '\\' || c = '(' || c = ')' || c = '[' || c = ']'

theorem isDelimiter_eq_false_iff {c : Char} :
    isDelimiter c = false ↔ c ≠ '\\' ∧ c ≠ '(' ∧ c ≠ ')' ∧ c ≠ '[' ∧ c ≠ ']' := by
  simp [isDelimiter, and_assoc]

/-- The text closes the `brackets` brackets and `parens` parentheses that are open in front of it
and all that it opens, and nothing else. -/
inductive Closes : Nat → Nat → Text → Prop
  | nil : Closes 0 0 []
  | escape {b d : Nat} {p : Text} (c : Char) : Closes b d p → Closes b d ('\\' :: c :: p)
  | openParen {b d : Nat} {p : Text} : Closes b (d + 1) p → Closes b d ('(' :: p)
  | closeParen {b d : Nat} {p : Text} : Closes b d p → Closes b (d + 1) (')' :: p)
  | openBracket {b d : Nat} {p : Text} : Closes (b + 1) d p → Closes b d ('[' :: p)
  | closeBracket {b d : Nat} {p : Text} : Closes b d p → Closes (b + 1) d (']' :: p)
  | plain {b d : Nat} {p : Text} {c : Char} (h : isDelimiter c = false) :
      Closes b d p → Closes b d (c :: p)

/-- A payload is balanced if the brackets around it make a group that ends with them. -/
def Balanced (p : Text) : Prop := groupSize? ('[' :: (p ++ [']'])) = some (p.byteSize + 2)

/-! ### The scan -/

/-- A scan that puts a piece in front of the payload it finds. -/
theorem exists_of_map_eq_some (piece : Text) {p r : Text} {found : Option (Text × Text)}
    (h : found.map (fun (q, r) => (piece ++ q, r)) = some (p, r)) :
    ∃ q, found = some (q, r) ∧ p = piece ++ q := by
  obtain ⟨⟨q, r'⟩, hq, heq⟩ := Option.map_eq_some_iff.1 h
  cases heq
  exact ⟨q, hq, rfl⟩

theorem closes_of_closeGroup {b d : Nat} {s p r : Text} (h : closeGroup b d s = some (p, r)) :
    Closes b d p ∧ s = p ++ ']' :: r := by
  fun_induction closeGroup b d s generalizing p r with
  | case1 | case3 | case5 | case9 => simp at h
  | case2 b d c rest ih =>
    obtain ⟨q, hq, rfl⟩ := exists_of_map_eq_some ['\\', c] h
    obtain ⟨hc, rfl⟩ := ih hq
    exact ⟨.escape c hc, rfl⟩
  | case4 b d rest _ ih =>
    obtain ⟨q, hq, rfl⟩ := exists_of_map_eq_some ['('] h
    obtain ⟨hc, rfl⟩ := ih hq
    exact ⟨.openParen hc, rfl⟩
  | case6 b rest d _ ih =>
    obtain ⟨q, hq, rfl⟩ := exists_of_map_eq_some [')'] h
    obtain ⟨hc, rfl⟩ := ih hq
    exact ⟨.closeParen hc, rfl⟩
  | case7 b d rest _ ih =>
    obtain ⟨q, hq, rfl⟩ := exists_of_map_eq_some ['['] h
    obtain ⟨hc, rfl⟩ := ih hq
    exact ⟨.openBracket hc, rfl⟩
  | case8 rest =>
    cases h
    exact ⟨.nil, rfl⟩
  | case10 d rest b _ ih =>
    obtain ⟨q, hq, rfl⟩ := exists_of_map_eq_some [']'] h
    obtain ⟨hc, rfl⟩ := ih hq
    exact ⟨.closeBracket hc, rfl⟩
  | case11 b d c rest _ h₁ h₂ h₃ h₄ h₅ ih =>
    obtain ⟨q, hq, rfl⟩ := exists_of_map_eq_some [c] h
    obtain ⟨hc, rfl⟩ := ih hq
    exact ⟨.plain (isDelimiter_eq_false_iff.2 ⟨h₁, h₂, h₃, h₄, h₅⟩) hc, rfl⟩

theorem Closes.closeGroup {b d : Nat} {p : Text} (h : Closes b d p) (r : Text) :
    closeGroup b d (p ++ ']' :: r) = some (p, r) := by
  induction h with
  | nil => simp [Bracketed.closeGroup]
  | escape c _ ih => simp [Bracketed.closeGroup, ih]
  | openParen _ ih => simp [Bracketed.closeGroup, ih]
  | closeParen _ ih => simp [Bracketed.closeGroup, ih]
  | openBracket _ ih => simp [Bracketed.closeGroup, ih]
  | closeBracket _ ih => simp [Bracketed.closeGroup, ih]
  | plain hc _ ih =>
    obtain ⟨h₁, h₂, h₃, h₄, h₅⟩ := isDelimiter_eq_false_iff.1 hc
    simp [Bracketed.closeGroup, ih, h₁]

theorem closeGroup_eq_some_iff {b d : Nat} {s p r : Text} :
    closeGroup b d s = some (p, r) ↔ Closes b d p ∧ s = p ++ ']' :: r := by
  constructor
  · exact closes_of_closeGroup
  · rintro ⟨h, rfl⟩
    exact h.closeGroup r

/-! ### Groups -/

theorem splitGroup?_eq_some_iff_closes {s p r : Text} :
    splitGroup? s = some (p, r) ↔ Closes 0 0 p ∧ s = '[' :: (p ++ ']' :: r) := by
  unfold splitGroup?
  split
  next s => rw [closeGroup_eq_some_iff, List.cons_inj_right]
  next hne =>
    constructor
    · intro h
      cases h
    · rintro ⟨-, rfl⟩
      exact absurd rfl (hne _)

theorem balanced_iff_closes {p : Text} : Balanced p ↔ Closes 0 0 p := by
  unfold Balanced groupSize?
  constructor
  · intro h
    obtain ⟨⟨q, r⟩, hq, hsize⟩ := Option.map_eq_some_iff.1 h
    obtain ⟨hclose, heq⟩ := splitGroup?_eq_some_iff_closes.1 hq
    simp only [List.cons.injEq, true_and] at heq
    -- the group that is found is as long as the payload, so nothing is left behind it
    have hlen := congrArg Text.byteSize heq
    simp only [Text.byteSize_append, Text.byteSize_cons, Text.byteSize_nil] at hlen
    have hr : r = [] := by
      by_contra hr
      have := Text.byteSize_pos hr
      simp only at hsize
      omega
    rw [hr] at heq
    rwa [List.append_cancel_right heq]
  · intro h
    rw [splitGroup?_eq_some_iff_closes.2 ⟨h, rfl⟩]
    rfl

/-- A group is split off a text where a balanced payload stands between brackets. -/
theorem splitGroup?_eq_some_iff {s p r : Text} :
    splitGroup? s = some (p, r) ↔ Balanced p ∧ s = '[' :: (p ++ ']' :: r) := by
  rw [splitGroup?_eq_some_iff_closes, balanced_iff_closes]

/-! ### Tokens around a group -/

/-- What makes the parts of a token parts of it. -/
structure Extract.Fits (x : Extract) : Prop where
  balanced : Balanced x.payload
  nonblank : x.payload.isBlank = false
  label : ∀ c ∈ x.label, isSeparator c = false
  separator : isSeparator x.separator = true

theorem extract?_eq_some_iff {lead token : Text} {x : Extract} :
    extract? lead token = some x ↔ x.Fits ∧ token = x.taken lead ++ x.residual := by
  constructor
  · intro h
    obtain ⟨group, hgroup, h⟩ := Option.bind_eq_some_iff.1 h
    obtain ⟨⟨payload, rest⟩, hsplit, hrest⟩ := Option.bind_eq_some_iff.1 h
    obtain ⟨hbal, hin⟩ := splitGroup?_eq_some_iff.1 hsplit
    have htoken := Text.eq_append_of_after? hgroup
    by_cases hblank : payload.isBlank = true
    · simp [hblank] at hrest
    · simp only [hblank, Bool.false_eq_true, ↓reduceIte] at hrest
      have hcut := List.takeWhile_append_dropWhile (p := (!isSeparator ·)) (l := rest)
      have hlabel : ∀ c ∈ rest.takeWhile (!isSeparator ·), isSeparator c = false := by
        intro c hc
        simpa using List.mem_takeWhile_imp hc
      generalize rest.takeWhile (!isSeparator ·) = label at hrest hcut hlabel
      cases hdrop : rest.dropWhile (!isSeparator ·) with
      | nil => simp [hdrop] at hrest
      | cons c residual =>
        simp only [hdrop, Option.some.injEq] at hrest
        subst hrest
        have hsep : isSeparator c = true := by
          have := List.head?_dropWhile_not (!isSeparator ·) rest
          simpa [hdrop] using this
        refine ⟨⟨hbal, by simpa using hblank, hlabel, hsep⟩, ?_⟩
        rw [htoken, hin, ← hcut, hdrop]
        simp [Extract.taken]
  · rintro ⟨⟨hbal, hblank, hlabel, hsep⟩, rfl⟩
    have hl : ∀ c ∈ x.label, (!isSeparator c) = true := by simpa using hlabel
    have hs : (!isSeparator x.separator) = false := by simpa using hsep
    have hsplit : splitGroup? ('[' :: (x.payload ++ ']' :: (x.label ++ x.separator :: x.residual)))
        = some (x.payload, x.label ++ x.separator :: x.residual) :=
      splitGroup?_eq_some_iff.2 ⟨hbal, rfl⟩
    simp only [extract?, Extract.taken, List.append_assoc, List.cons_append, List.nil_append,
      Text.after?_append, Option.bind_eq_bind, Option.bind_some, hsplit, hblank,
      Text.takeWhile_append_cons hl hs, Text.dropWhile_append_cons hl hs, Bool.false_eq_true,
      ↓reduceIte]

/-- The token that has these parts behind `lead`. -/
def Extract.written (lead : Text) (x : Extract) : Text :=
  lead ++ '[' :: (x.payload ++ ']' :: (x.label ++ x.separator :: x.residual))

theorem Extract.written_eq (lead : Text) (x : Extract) :
    x.written lead = x.taken lead ++ x.residual := by
  simp [written, taken]

theorem Extract.consumed_written (lead : Text) (x : Extract) :
    x.consumed (x.written lead) = (x.taken lead).byteSize := by
  rw [consumed, written_eq, Text.byteSize_append, Nat.add_sub_cancel_right]

/-- Cutting up a token is the inverse of writing one. Parts that fit are found again, whatever they
hold and whatever follows them, and the bytes in front of the residual are those of the text that
was read; what is found are parts that fit, of which the token consists; and nothing is found in a
token only if it does not consist of such parts. -/
theorem extract?_inverse_written (lead : Text) :
    (∀ x : Extract, x.Fits →
      extract? lead (x.written lead) = some x ∧
      x.consumed (x.written lead) + x.residual.byteSize = (x.written lead).byteSize ∧
      (x.written lead).cut? (x.consumed (x.written lead)) = some (x.taken lead, x.residual)) ∧
    (∀ (token : Text) (x : Extract), extract? lead token = some x →
      x.Fits ∧ token = x.written lead) ∧
    (∀ token : Text, extract? lead token = none ↔
      ¬ ∃ x : Extract, x.Fits ∧ token = x.written lead) := by
  have hiff : ∀ (token : Text) (x : Extract),
      extract? lead token = some x ↔ x.Fits ∧ token = x.written lead := by
    intro token x
    rw [extract?_eq_some_iff, x.written_eq]
  refine ⟨?_, ?_, ?_⟩
  · intro x hx
    refine ⟨(hiff _ x).2 ⟨hx, rfl⟩, ?_, ?_⟩
    · rw [x.consumed_written, x.written_eq, Text.byteSize_append]
    · rw [x.consumed_written, Text.cut?_eq_some_iff]
      exact ⟨x.written_eq lead, rfl⟩
  · intro token x hx
    exact (hiff token x).1 hx
  · intro token
    simp only [← hiff, Option.eq_none_iff_forall_ne_some, not_exists, ne_eq]

/-- The group holds an escaped bracket, a nested group and both separators, and the residual looks
like a group again. A group of white space is not read. -/
theorem extract?_inverse_written_nested :
    let x : Extract := ⟨"\\]:[a-(é)]".toList, "/b".toList, '-', "[c]:d".toList⟩
    x.Fits ∧ x.written "group-".toList = "group-[\\]:[a-(é)]]/b-[c]:d".toList ∧
      extract? "group-".toList (x.written "group-".toList) = some x ∧
      x.consumed (x.written "group-".toList) = 22 ∧
      (x.written "group-".toList).byteSize = 27 ∧
      extract? "group-".toList "group-[ \u3000]/b:d".toList = none := by
  intro x
  have hfits : x.Fits :=
    ⟨by unfold Balanced; decide, by decide, by simp [x, isSeparator], by decide⟩
  exact ⟨hfits, by decide, ((extract?_inverse_written _).1 x hfits).1, by decide, by decide,
    by decide⟩

end VariantSelector.Bracketed
