import Mathlib.Computability.RegularExpressions
import VariantSelector.Text.Basic

/-!
Patterns as regular expressions. Of the usual syntax a pattern may use groups, bars, question marks
and characters that stand for themselves; a pattern that uses more of it has no expression here. It
is read from left to right, with a frame for each group that is open.

What a pattern matches is said part by part: a text is an item, a sequence of items or a choice
between sequences, each for a language, and a choice has an expression whose language is its own
(`IsChoice.exists_expression?`).
-/

namespace VariantSelector.Pattern

/-- Characters that stand for themselves. -/
def isLiteral (c : Char) : Bool := !"()|?*+.^$[]\x7b\x7d\\".toList.contains c

/-- A group that is being read. -/
structure Frame where
  /-- The alternatives in front of the last bar. -/
  alternatives : RegularExpression Char := 0
  /-- The items of the alternative behind it, the last one first. -/
  items : List (RegularExpression Char) := []

namespace Frame

/-- One item behind the other, where the last one comes first. -/
def sequence (items : List (RegularExpression Char)) : RegularExpression Char :=
  items.foldr (fun item front => front * item) 1

def whole (f : Frame) : RegularExpression Char := f.alternatives + sequence f.items

def push (f : Frame) (item : RegularExpression Char) : Frame :=
  { f with items := item :: f.items }

end Frame

/-- Reads one character in the innermost group. -/
def step? (groups : Frame × List Frame) (c : Char) : Option (Frame × List Frame) :=
  match c, groups with
  | '(', (frame, outer) => some ({}, frame :: outer)
  | ')', (frame, parent :: outer) => some (parent.push frame.whole, outer)
  | ')', (_, []) => none
  | '|', (frame, outer) => some ({ alternatives := frame.whole }, outer)
  | '?', (⟨alternatives, item :: items⟩, outer) =>
    some (⟨alternatives, (1 + item) :: items⟩, outer)
  | '?', (⟨_, []⟩, _) => none
  | c, (frame, outer) => if isLiteral c then some (frame.push (.char c), outer) else none

/-- The regular expression that a pattern writes. -/
def expression? (pattern : Text) : Option (RegularExpression Char) := do
  let (frame, outer) ← pattern.foldlM step? ({}, [])
  if outer.isEmpty then some frame.whole else none

theorem step?_of_isLiteral {c : Char} (h : isLiteral c = true) (frame : Frame)
    (outer : List Frame) : step? (frame, outer) c = some (frame.push (.char c), outer) := by
  unfold step?
  split <;> first | exact absurd h (by decide) | skip
  next heq =>
    obtain ⟨rfl, rfl⟩ := Prod.mk.inj heq
    rw [if_pos h]

theorem Frame.matches'_sequence_append (xs ys : List (RegularExpression Char)) :
    (sequence (xs ++ ys)).matches' = (sequence ys).matches' * (sequence xs).matches' := by
  induction xs with
  | nil => exact (mul_one _).symm
  | cons x xs ih =>
    change (sequence (xs ++ ys)).matches' * x.matches' = _
    rw [ih, mul_assoc]
    rfl

/-! ### Items, sequences and choices -/

/-- Wherever this text stands it is one item, which matches the words of `L`. -/
def IsItem (p : Text) (L : Language Char) : Prop :=
  ∃ e : RegularExpression Char, e.matches' = L ∧
    ∀ frame outer, p.foldlM step? (frame, outer) = some (frame.push e, outer)

/-- Wherever this text stands it is some items, which match the words of `L` together. -/
def IsSequence (p : Text) (L : Language Char) : Prop :=
  ∃ items, (Frame.sequence items).matches' = L ∧
    ∀ frame outer, p.foldlM step? (frame, outer)
      = some ({ frame with items := items ++ frame.items }, outer)

/-- At the start of an alternative this text adds alternatives that match the words of `L`. -/
def IsChoice (p : Text) (L : Language Char) : Prop :=
  ∀ e : RegularExpression Char, ∃ frame : Frame, frame.whole.matches' = e.matches' + L ∧
    ∀ outer, p.foldlM step? ({ alternatives := e }, outer) = some (frame, outer)

variable {p q : Text} {L M : Language Char}

theorem isItem_of_isLiteral {c : Char} (h : isLiteral c = true) : IsItem [c] {[c]} := by
  refine ⟨.char c, rfl, fun frame outer => ?_⟩
  rw [List.foldlM_cons, step?_of_isLiteral h]
  rfl

theorem IsChoice.isItem (h : IsChoice p L) : IsItem ('(' :: (p ++ [')'])) L := by
  obtain ⟨frame, hframe, hread⟩ := h 0
  refine ⟨frame.whole, hframe.trans (zero_add L), fun parent outer => ?_⟩
  change (p ++ [')']).foldlM step? ({}, parent :: outer) = _
  rw [List.foldlM_append, hread]
  rfl

theorem IsItem.optional (h : IsItem p L) : IsItem (p ++ ['?']) (1 + L) := by
  obtain ⟨e, rfl, hread⟩ := h
  refine ⟨1 + e, rfl, fun frame outer => ?_⟩
  rw [List.foldlM_append, hread]
  rfl

theorem IsItem.isSequence (h : IsItem p L) : IsSequence p L := by
  obtain ⟨e, rfl, hread⟩ := h
  exact ⟨[e], one_mul _, hread⟩

theorem IsSequence.append (hp : IsSequence p L) (hq : IsSequence q M) :
    IsSequence (p ++ q) (L * M) := by
  obtain ⟨xs, rfl, hxs⟩ := hp
  obtain ⟨ys, rfl, hys⟩ := hq
  refine ⟨ys ++ xs, Frame.matches'_sequence_append ys xs, fun frame outer => ?_⟩
  rw [List.foldlM_append, hxs, Option.bind_eq_bind, Option.bind_some, hys, List.append_assoc]

/-- A text of characters that stand for themselves matches itself. -/
theorem isSequence_of_isLiteral {s : Text} (h : s.all isLiteral = true) : IsSequence s {s} := by
  induction s with
  | nil => exact ⟨[], rfl, fun _ _ => rfl⟩
  | cons c s ih =>
    rw [List.all_cons, Bool.and_eq_true] at h
    have hs := (isItem_of_isLiteral h.1).isSequence.append (ih h.2)
    have hword : ({[c]} : Language Char) * {s} = {c :: s} := Set.image2_singleton
    rwa [hword] at hs

theorem IsSequence.isChoice (h : IsSequence p L) : IsChoice p L := by
  obtain ⟨items, rfl, hread⟩ := h
  intro e
  refine ⟨⟨e, items⟩, rfl, fun outer => ?_⟩
  rw [hread, List.append_nil]

theorem IsSequence.bar (hp : IsSequence p L) (hq : IsChoice q M) :
    IsChoice (p ++ '|' :: q) (L + M) := by
  intro e
  obtain ⟨frame, hframe, hread⟩ := hp.isChoice e
  obtain ⟨last, hlast, hq⟩ := hq frame.whole
  refine ⟨last, by rw [hlast, hframe, add_assoc], fun outer => ?_⟩
  rw [List.foldlM_append, hread, Option.bind_eq_bind, Option.bind_some, List.foldlM_cons]
  exact hq outer

/-- The language of some words. -/
def anyOf (words : List Text) : Language Char := {w | w ∈ words}

@[simp] theorem mem_anyOf {words : List Text} {w : Text} : w ∈ anyOf words ↔ w ∈ words := Iff.rfl

theorem anyOf_singleton (w : Text) : anyOf [w] = {w} := by
  ext u
  exact List.mem_singleton

theorem anyOf_cons (w : Text) (words : List Text) : anyOf (w :: words) = {w} + anyOf words := by
  ext u
  exact List.mem_cons

/-- Texts with bars between them match these texts. -/
theorem isChoice_intercalate {words : List Text} (hne : words ≠ [])
    (h : words.all (·.all isLiteral) = true) :
    IsChoice (['|'].intercalate words) (anyOf words) := by
  induction words with
  | nil => exact absurd rfl hne
  | cons w words ih =>
    rw [List.all_cons, Bool.and_eq_true] at h
    have hw := isSequence_of_isLiteral h.1
    cases words with
    | nil =>
      rw [anyOf_singleton]
      simpa using hw.isChoice
    | cons v words =>
      rw [anyOf_cons]
      simpa [List.intercalate] using hw.bar (ih (List.cons_ne_nil v words) h.2)

theorem anyOf_mul_singleton (words : List Text) (s : Text) :
    anyOf words * {s} = anyOf (words.map (· ++ s)) := by
  ext t
  rw [Language.mem_mul, mem_anyOf, List.mem_map]
  constructor
  · rintro ⟨w, hw, _, rfl, rfl⟩
    exact ⟨w, hw, rfl⟩
  · rintro ⟨w, hw, rfl⟩
    exact ⟨w, hw, s, rfl, rfl⟩

theorem IsItem.append_literal {words : List Text} {c : Char} (h : IsItem p (anyOf words))
    (hc : isLiteral c = true) : IsSequence (p ++ [c]) (anyOf (words.map (· ++ [c]))) := by
  rw [← anyOf_mul_singleton]
  exact h.isSequence.append (isItem_of_isLiteral hc).isSequence

theorem IsChoice.exists_expression? (h : IsChoice p L) :
    ∃ e, expression? p = some e ∧ e.matches' = L := by
  obtain ⟨frame, hframe, hread⟩ := h 0
  refine ⟨frame.whole, ?_, hframe.trans (zero_add L)⟩
  rw [expression?, hread]
  rfl

/-- A question mark belongs to the group in front of it, which holds two alternatives. -/
example : expression? "(a|b)?c".toList
    = some (0 + 1 * (1 + (0 + 1 * .char 'a' + 1 * .char 'b')) * .char 'c') := rfl

end VariantSelector.Pattern
