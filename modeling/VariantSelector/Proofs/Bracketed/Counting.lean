import VariantSelector.Proofs.Bracketed.Scans

/-!
Groups told by counting. What may stand in a group is said of a text as a whole: no backslash at its
end waits for a character, and of either kind of bracket never more are closed than were opened, and
in the end as many (`IsPayload`). The scan finds such a text between brackets and no other
(`splitGroup?_eq_some_iff_isPayload`). It counts with natural numbers and looks before it lowers
one; a loop that lowers its counter of brackets without a look finds the same, and the counter never
falls below zero (`countedScan_follows`).
-/

namespace VariantSelector

/-- Whether a text ends with a backslash that waits for a character to take along. -/
def Text.endsInEscape : Text → Bool
  | [] => false
  | ['\\'] => true
  | '\\' :: _ :: p => endsInEscape p
  | _ :: p => endsInEscape p

@[simp] theorem Text.unescaped_nil : unescaped [] = [] := rfl

theorem Text.unescaped_cons {c : Char} (hc : c ≠ '\\') (p : Text) :
    unescaped (c :: p) = c :: p.unescaped := by
  simp [unescaped, unescapedFrom, hc]

theorem Text.unescaped_escape (c : Char) (p : Text) :
    unescaped ('\\' :: c :: p) = '\\' :: p.unescaped := rfl

namespace Bracketed

/-! ### Counting brackets -/

/-- Behind `depth` brackets of a kind that are open, a text never closes more than are open, and in
the end all are closed. Brackets that a backslash takes along do not count. -/
structure Matched (opener closer : Char) (depth : Nat) (p : Text) : Prop where
  never : ∀ q ∈ p.inits,
    (Text.unescaped q).count closer ≤ depth + (Text.unescaped q).count opener
  settled : depth + p.unescaped.count opener = p.unescaped.count closer

/-- What may stand between the brackets of a group. -/
structure IsPayload (p : Text) : Prop where
  complete : p.endsInEscape = false
  brackets : Matched '[' ']' 0 p
  parens : Matched '(' ')' 0 p

theorem matched_iff {opener closer : Char} {depth : Nat} {p : Text} :
    Matched opener closer depth p ↔
      (∀ q ∈ p.inits,
          (Text.unescaped q).count closer ≤ depth + (Text.unescaped q).count opener) ∧
        depth + p.unescaped.count opener = p.unescaped.count closer :=
  ⟨fun h => ⟨h.never, h.settled⟩, fun h => ⟨h.1, h.2⟩⟩

section Matched

variable {opener closer c : Char} {depth : Nat} {p : Text}

theorem matched_nil : Matched opener closer depth [] ↔ depth = 0 := by
  simp [matched_iff]

theorem matched_escape (hopener : opener ≠ '\\') (hcloser : closer ≠ '\\') :
    Matched opener closer depth ('\\' :: c :: p) ↔ Matched opener closer depth p := by
  have hbackslash : Text.unescaped ['\\'] = ['\\'] := rfl
  simp only [matched_iff, forall_mem_inits_cons, Text.unescaped_escape, hbackslash,
    List.count_cons_of_ne hopener.symm, List.count_cons_of_ne hcloser.symm]
  simp

theorem matched_opener (hopener : opener ≠ '\\') (hne : opener ≠ closer) :
    Matched opener closer depth (opener :: p) ↔ Matched opener closer (depth + 1) p := by
  simp only [matched_iff, forall_mem_inits_cons, Text.unescaped_cons hopener,
    List.count_cons_self, List.count_cons_of_ne hne, Nat.add_right_comm depth 1, ← Nat.add_assoc]
  simp

theorem matched_closer (hcloser : closer ≠ '\\') (hne : opener ≠ closer) :
    Matched opener closer (depth + 1) (closer :: p) ↔ Matched opener closer depth p := by
  simp only [matched_iff, forall_mem_inits_cons, Text.unescaped_cons hcloser,
    List.count_cons_self, List.count_cons_of_ne hne.symm, Nat.add_right_comm depth 1,
    Nat.add_le_add_iff_right, Nat.add_right_cancel_iff]
  simp

theorem not_matched_closer (hcloser : closer ≠ '\\') (hne : opener ≠ closer) :
    ¬ Matched opener closer 0 (closer :: p) := by
  intro h
  have := h.never [closer] (by simp)
  rw [Text.unescaped_cons hcloser, List.count_cons_self, List.count_cons_of_ne hne.symm] at this
  simp at this

theorem matched_plain (hbackslash : c ≠ '\\') (hopener : c ≠ opener) (hcloser : c ≠ closer) :
    Matched opener closer depth (c :: p) ↔ Matched opener closer depth p := by
  simp only [matched_iff, forall_mem_inits_cons, Text.unescaped_cons hbackslash,
    List.count_cons_of_ne hopener, List.count_cons_of_ne hcloser]
  simp

end Matched

/-! ### Payloads -/

theorem Text.endsInEscape_cons {c : Char} (hc : c ≠ '\\') (p : Text) :
    Text.endsInEscape (c :: p) = p.endsInEscape := by
  rw [Text.endsInEscape] <;> simp [hc]

theorem Closes.matched {b d : Nat} {p : Text} (h : Closes b d p) :
    p.endsInEscape = false ∧ Matched '[' ']' b p ∧ Matched '(' ')' d p := by
  induction h with
  | nil => exact ⟨rfl, matched_nil.2 rfl, matched_nil.2 rfl⟩
  | escape c _ ih =>
    rwa [Text.endsInEscape, matched_escape (by decide) (by decide),
      matched_escape (by decide) (by decide)]
  | openParen _ ih =>
    rwa [Text.endsInEscape_cons (by decide), matched_opener (by decide) (by decide),
      matched_plain (by decide) (by decide) (by decide)]
  | closeParen _ ih =>
    rwa [Text.endsInEscape_cons (by decide), matched_closer (by decide) (by decide),
      matched_plain (by decide) (by decide) (by decide)]
  | openBracket _ ih =>
    rwa [Text.endsInEscape_cons (by decide), matched_opener (by decide) (by decide),
      matched_plain (by decide) (by decide) (by decide)]
  | closeBracket _ ih =>
    rwa [Text.endsInEscape_cons (by decide), matched_closer (by decide) (by decide),
      matched_plain (by decide) (by decide) (by decide)]
  | plain hc _ ih =>
    obtain ⟨hbackslash, h₁, h₂, h₃, h₄⟩ := isDelimiter_eq_false_iff.1 hc
    rwa [Text.endsInEscape_cons hbackslash, matched_plain hbackslash h₃ h₄,
      matched_plain hbackslash h₁ h₂]

theorem closes_of_matched {b d : Nat} {p : Text} (hp : p.endsInEscape = false)
    (hb : Matched '[' ']' b p) (hd : Matched '(' ')' d p) : Closes b d p := by
  fun_induction Text.endsInEscape p generalizing b d with
  | case1 =>
    rw [matched_nil] at hb hd
    rw [hb, hd]
    exact .nil
  | case2 => cases hp
  | case3 c p ih =>
    rw [matched_escape (by decide) (by decide)] at hb hd
    exact .escape c (ih hp hb hd)
  | case4 c p hlast hpair ih =>
    have hbackslash : c ≠ '\\' := by
      rintro rfl
      cases p with
      | nil => exact hlast rfl rfl
      | cons x p => exact hpair x p rfl rfl
    by_cases hopenParen : c = '('
    · subst hopenParen
      rw [matched_plain (by decide) (by decide) (by decide)] at hb
      rw [matched_opener (by decide) (by decide)] at hd
      exact .openParen (ih hp hb hd)
    by_cases hcloseParen : c = ')'
    · subst hcloseParen
      rw [matched_plain (by decide) (by decide) (by decide)] at hb
      cases d with
      | zero => exact absurd hd (not_matched_closer (by decide) (by decide))
      | succ d =>
        rw [matched_closer (by decide) (by decide)] at hd
        exact .closeParen (ih hp hb hd)
    by_cases hopenBracket : c = '['
    · subst hopenBracket
      rw [matched_plain (by decide) (by decide) (by decide)] at hd
      rw [matched_opener (by decide) (by decide)] at hb
      exact .openBracket (ih hp hb hd)
    by_cases hcloseBracket : c = ']'
    · subst hcloseBracket
      rw [matched_plain (by decide) (by decide) (by decide)] at hd
      cases b with
      | zero => exact absurd hb (not_matched_closer (by decide) (by decide))
      | succ b =>
        rw [matched_closer (by decide) (by decide)] at hb
        exact .closeBracket (ih hp hb hd)
    rw [matched_plain hbackslash hopenBracket hcloseBracket] at hb
    rw [matched_plain hbackslash hopenParen hcloseParen] at hd
    exact .plain (isDelimiter_eq_false_iff.2
      ⟨hbackslash, hopenParen, hcloseParen, hopenBracket, hcloseBracket⟩) (ih hp hb hd)

/-- The scan closes exactly the payloads. -/
theorem closes_iff_isPayload {p : Text} : Closes 0 0 p ↔ IsPayload p := by
  constructor
  · intro h
    obtain ⟨hcomplete, hbrackets, hparens⟩ := h.matched
    exact ⟨hcomplete, hbrackets, hparens⟩
  · intro h
    exact closes_of_matched h.complete h.brackets h.parens

theorem splitGroup?_eq_some_iff_isPayload {s p rest : Text} :
    splitGroup? s = some (p, rest) ↔ IsPayload p ∧ s = '[' :: (p ++ ']' :: rest) := by
  rw [splitGroup?_eq_some_iff_closes, closes_iff_isPayload]

/-! ### Counters that may fall below zero -/

/-- The scan as a loop over an input of which `offset` bytes have been read. Its counters are
integers and include the first bracket; nothing but the loop itself keeps them from falling below
zero. Gives the values that the counter of brackets takes, and the bytes up to the end of the
group. -/
def countedScan (offset : Nat) (brackets parens : Int) : Text → List Int × Option Nat
  | [] => ([], none)
  | ['\\'] => ([], none)
  | '\\' :: c :: rest => countedScan (offset + 1 + c.utf8Size) brackets parens rest
  | c :: rest =>
    if c = '(' then countedScan (offset + 1) brackets (parens + 1) rest
    else if c = ')' then
      if parens = 0 then ([], none) else countedScan (offset + 1) brackets (parens - 1) rest
    else if c = '[' then
      let found := countedScan (offset + 1) (brackets + 1) parens rest
      ((brackets + 1) :: found.1, found.2)
    else if c = ']' then
      if brackets - 1 = 0 then ([brackets - 1], if parens = 0 then some (offset + 1) else none)
      else
        let found := countedScan (offset + 1) (brackets - 1) parens rest
        ((brackets - 1) :: found.1, found.2)
    else countedScan (offset + c.utf8Size) brackets parens rest

/-- A run of the loop that begins behind `offset` bytes comes to the size of the group that the scan
finds there, and its counter of brackets does not fall below zero. -/
structure Follows (run : List Int × Option Nat) (offset : Nat) (found : Option (Text × Text)) :
    Prop where
  size : run.2 = found.map fun group => offset + group.1.byteSize + 1
  nonneg : ∀ n ∈ run.1, 0 ≤ n

theorem Follows.cons_piece {run : List Int × Option Nat} {offset : Nat}
    {found : Option (Text × Text)} (piece : Text)
    (h : Follows run (offset + piece.byteSize) found) :
    Follows run offset (found.map fun (p, r) => (piece ++ p, r)) := by
  refine ⟨?_, h.nonneg⟩
  rw [h.size, Option.map_map]
  congr 1
  funext group
  simp only [Function.comp_apply, Text.byteSize_append]
  omega

theorem Follows.note {run : List Int × Option Nat} {offset : Nat} {found : Option (Text × Text)}
    {n : Int} (hn : 0 ≤ n) (h : Follows run offset found) :
    Follows (n :: run.1, run.2) offset found where
  size := h.size
  nonneg := List.forall_mem_cons.2 ⟨hn, h.nonneg⟩

theorem Follows.none (offset : Nat) : Follows ([], none) offset none where
  size := rfl
  nonneg := by simp

/-- Inside a group the loop finds what the scan finds. Its counter is one above the scan's, which
does not count the first bracket, so it cannot fall below zero before the group ends. -/
theorem countedScan_follows (offset b d : Nat) (s : Text) :
    Follows (countedScan offset (b + 1) d s) offset (closeGroup b d s) := by
  fun_induction closeGroup b d s generalizing offset with
  | case1 b d => exact .none offset
  | case2 b d c rest ih =>
    refine .cons_piece ['\\', c] ?_
    have hsize : offset + Text.byteSize ['\\', c] = offset + 1 + c.utf8Size := by
      rw [Nat.add_assoc]
      rfl
    rw [hsize]
    exact ih (offset + 1 + c.utf8Size)
  | case3 b d rest hne =>
    cases rest with
    | nil => exact .none offset
    | cons c rest => exact absurd rfl (hne c rest rfl)
  | case4 b d rest _ ih => exact .cons_piece ['('] (ih (offset + 1))
  | case5 b rest => exact .none offset
  | case6 b rest d _ ih =>
    have hrun : countedScan offset (b + 1) (d.succ : Nat) (')' :: rest)
        = countedScan (offset + 1) (b + 1) d rest := by
      have hopen : (d : Int) + 1 ≠ 0 := by omega
      simp [countedScan, hopen]
    rw [hrun]
    exact .cons_piece [')'] (ih (offset + 1))
  | case7 b d rest _ ih => exact .cons_piece ['['] (.note (by omega) (ih (offset + 1)))
  | case8 rest =>
    have hrun : countedScan offset ((0 : Nat) + 1) (0 : Nat) (']' :: rest)
        = ([0], some (offset + 1)) := by simp [countedScan]
    rw [hrun]
    exact ⟨rfl, by simp⟩
  | case9 rest d =>
    have hrun : countedScan offset ((0 : Nat) + 1) (d.succ : Nat) (']' :: rest)
        = ([0], none) := by
      have hopen : (d : Int) + 1 ≠ 0 := by omega
      simp [countedScan, hopen]
    rw [hrun]
    exact ⟨rfl, by simp⟩
  | case10 d rest b _ ih =>
    have hrun : countedScan offset ((b.succ : Nat) + 1) d (']' :: rest)
        = ((b.succ : Int) :: (countedScan (offset + 1) (b + 1) d rest).1,
          (countedScan (offset + 1) (b + 1) d rest).2) := by
      have hopen : (b : Int) + 1 ≠ 0 := by omega
      simp [countedScan, hopen]
    rw [hrun]
    exact .cons_piece [']'] (.note (by omega) (ih (offset + 1)))
  | case11 b d c rest hescape hbackslash h₁ h₂ h₃ h₄ ih =>
    have hrun : countedScan offset (b + 1) d (c :: rest)
        = countedScan (offset + c.utf8Size) (b + 1) d rest := by
      rw [countedScan, if_neg h₁, if_neg h₂, if_neg h₃, if_neg h₄]
      · exact fun h _ => hbackslash h
      · exact hescape
    rw [hrun]
    exact .cons_piece [c] (ih (offset + c.utf8Size))

/-! ### The size of a group -/

theorem groupSize?_eq_some_iff {s : Text} {n : Nat} :
    groupSize? s = some n ↔
      ∃ p rest, IsPayload p ∧ s = '[' :: (p ++ ']' :: rest) ∧ p.byteSize + 2 = n := by
  simp only [groupSize?, Option.map_eq_some_iff, Prod.exists, splitGroup?_eq_some_iff_isPayload,
    and_assoc]

theorem byteSize_group (p : Text) : Text.byteSize ('[' :: (p ++ [']'])) = p.byteSize + 2 := by
  have hopen : '['.utf8Size = 1 := rfl
  have hclose : Text.byteSize [']'] = 1 := rfl
  rw [Text.byteSize_cons, Text.byteSize_append, hopen, hclose]
  omega

/-- A text has a group of `n` bytes at its front exactly where these bytes are a payload between
brackets. The payload is the only one there, and what follows the group has no say. The loop comes
to the same size with a counter of brackets that never falls below zero, and the group can be cut
behind its first bracket and on either side of its last. -/
theorem groupSize?_iff_isPayload (input : Text) :
    (∀ n, groupSize? input = some n ↔
      ∃ p rest, IsPayload p ∧ input.cut? n = some ('[' :: (p ++ [']']), rest)) ∧
    (∀ p q rest rest', IsPayload p → IsPayload q → input = '[' :: (p ++ ']' :: rest) →
      input = '[' :: (q ++ ']' :: rest') → p = q) ∧
    (∀ p, IsPayload p → ∀ rest, groupSize? ('[' :: (p ++ ']' :: rest)) = some (p.byteSize + 2)) ∧
    (∀ s, input = '[' :: s →
      (countedScan 0 0 0 input).2 = groupSize? input ∧
        ∀ n ∈ (countedScan 0 0 0 input).1, 0 ≤ n) ∧
    (∀ n, groupSize? input = some n → ∃ p rest,
      input.cut? 1 = some (['['], p ++ ']' :: rest) ∧
        input.cut? (n - 1) = some ('[' :: p, ']' :: rest) ∧
          input.cut? n = some ('[' :: (p ++ [']']), rest)) := by
  refine ⟨?_, ?_, ?_, ?_, ?_⟩
  · intro n
    simp only [groupSize?_eq_some_iff, Text.cut?_eq_some_iff, byteSize_group, List.cons_append,
      List.append_assoc, List.nil_append]
  · intro p q rest rest' hp hq hinput hinput'
    have hsplit := splitGroup?_eq_some_iff_isPayload.2 ⟨hp, hinput⟩
    rw [splitGroup?_eq_some_iff_isPayload.2 ⟨hq, hinput'⟩] at hsplit
    cases hsplit
    rfl
  · intro p hp rest
    exact groupSize?_eq_some_iff.2 ⟨p, rest, hp, rfl, rfl⟩
  · rintro s rfl
    -- behind the first bracket the counter is one, and the loop goes on as the scan does
    have hloop : Follows (countedScan 1 1 0 s) 1 (closeGroup 0 0 s) := countedScan_follows 1 0 0 s
    have hfirst : countedScan 0 0 0 ('[' :: s)
        = (1 :: (countedScan 1 1 0 s).1, (countedScan 1 1 0 s).2) := rfl
    rw [hfirst]
    refine ⟨hloop.size.trans ?_, (hloop.note (by decide)).nonneg⟩
    rw [groupSize?, splitGroup?]
    congr 1
    funext ⟨p, rest⟩
    simp only
    omega
  · intro n hn
    obtain ⟨p, rest, -, rfl, rfl⟩ := groupSize?_eq_some_iff.1 hn
    have hinside : Text.byteSize ('[' :: p) = p.byteSize + 2 - 1 := Nat.add_comm 1 p.byteSize
    simp only [Text.cut?_eq_some_iff, byteSize_group]
    exact ⟨p, rest, ⟨rfl, rfl⟩, ⟨rfl, hinside⟩, by simp, rfl⟩

end Bracketed

end VariantSelector
