import VariantSelector.Proofs.Resolution.Rendering

/-!
The slots of a rule. A match puts at most one piece into each slot, and what comes of it depends on
the slot alone (`Rule.Slot`). A list of matches therefore leaves in a slot what its pieces for that
slot leave there, one after another, whatever stands between them (`Rule.Slot.get_foldl_apply`). So
lists that bring the same pieces to the three slots that are rendered give the same selector, in
whatever way the pieces are interleaved (`Rule.foldl_apply_slots`).
-/

namespace VariantSelector

/-- The segment that a change puts in front. -/
def Change.segment? : Change → Option Segment
  | .prependRelation segment => some segment
  | _ => none

/-- What a hint sets the rank to, where it sets it: to a number, or to none. -/
def SortHint.rank? : SortHint → Option (Option Nat)
  | .unchanged => none
  | .rank n => some (some n)
  | .unranked => some none

namespace Rule

/-- A slot of a rule: the piece that a match puts into it, if any, and what the slot then holds. -/
structure Slot (σ α : Type) where
  get : Rule → σ
  piece? : Match → Option α
  put : σ → α → σ
  get_apply : ∀ (m : Match) (rule : Rule),
    get (m.apply rule) = (piece? m).elim (get rule) (put (get rule))

namespace Slot

/-- The slot holds what the pieces for it have made of it. -/
theorem get_foldl_apply {σ α : Type} (slot : Slot σ α) (ms : List Match) (rule : Rule) :
    slot.get (ms.foldl (fun rule m => m.apply rule) rule)
      = (ms.filterMap slot.piece?).foldl slot.put (slot.get rule) := by
  induction ms generalizing rule with
  | nil => rfl
  | cons m ms ih =>
    rw [List.foldl_cons, ih, slot.get_apply, List.filterMap_cons]
    cases slot.piece? m <;> rfl

/-! ### The five slots -/

def chain : Slot Chain Segment where
  get := Rule.chain
  piece? m := m.change.segment?
  put := Chain.prepend
  get_apply m rule := by
    obtain ⟨_, _, _, _, change, _, _⟩ := m
    cases change <;> rfl

def selector : Slot Text Text where
  get := Rule.selector
  piece? m := m.change.selectorText?
  put := (· ++ ·)
  get_apply m rule := by
    obtain ⟨_, _, _, _, change, _, _⟩ := m
    cases change <;> rfl

def pseudo : Slot Text Text where
  get := Rule.pseudo
  piece? m := m.change.pseudoText?
  put := (· ++ ·)
  get_apply m rule := by
    obtain ⟨_, _, _, _, change, _, _⟩ := m
    cases change <;> rfl

def sort : Slot (Option Nat) (Option Nat) where
  get := Rule.sort
  piece? m := m.sort.rank?
  put _ rank := rank
  get_apply m rule := by
    obtain ⟨_, _, _, _, change, sort, _⟩ := m
    cases change <;> cases sort <;> rfl

def noMerge : Slot Bool Bool where
  get := Rule.noMerge
  piece? m := some m.noMerge
  put := (· || ·)
  get_apply m rule := by
    obtain ⟨_, _, _, _, change, _, _⟩ := m
    cases change <;> rfl

end Slot

/-! ### What the pieces of a slot make of it -/

theorem foldl_append_eq (texts : List Text) (start : Text) :
    texts.foldl (· ++ ·) start = start ++ texts.flatten := by
  have h : texts.foldl (· ++ id ·) start = start ++ (texts.map id).flatten :=
    List.foldl_append_eq_append
  rwa [List.map_id] at h

theorem foldl_last_eq (ranks : List (Option Nat)) (start : Option Nat) :
    ranks.foldl (fun _ rank => rank) start = ranks.getLast?.getD start := by
  induction ranks generalizing start with
  | nil => rfl
  | cons rank ranks ih => rw [List.foldl_cons, ih, List.getLast?_cons, Option.getD_some]

theorem foldl_or_eq (flags : List Bool) (start : Bool) :
    flags.foldl (· || ·) start = (start || flags.any id) := by
  induction flags generalizing start with
  | nil => simp
  | cons flag flags ih => rw [List.foldl_cons, ih, List.any_cons, Bool.or_assoc, id]

/-! ### Lists of matches -/

section FoldlApply

variable (rule : Rule) (ms : List Match)

theorem chain_foldl_apply :
    (ms.foldl (fun rule m => m.apply rule) rule).chain
      = (ms.filterMap (·.change.segment?)).foldl Chain.prepend rule.chain :=
  Slot.chain.get_foldl_apply ms rule

theorem selector_foldl_apply :
    (ms.foldl (fun rule m => m.apply rule) rule).selector
      = rule.selector ++ (ms.filterMap (·.change.selectorText?)).flatten :=
  (Slot.selector.get_foldl_apply ms rule).trans (foldl_append_eq _ _)

theorem pseudo_foldl_apply :
    (ms.foldl (fun rule m => m.apply rule) rule).pseudo
      = rule.pseudo ++ (ms.filterMap (·.change.pseudoText?)).flatten :=
  (Slot.pseudo.get_foldl_apply ms rule).trans (foldl_append_eq _ _)

theorem sort_foldl_apply :
    (ms.foldl (fun rule m => m.apply rule) rule).sort
      = (ms.filterMap (·.sort.rank?)).getLast?.getD rule.sort :=
  (Slot.sort.get_foldl_apply ms rule).trans (foldl_last_eq _ _)

theorem noMerge_foldl_apply :
    (ms.foldl (fun rule m => m.apply rule) rule).noMerge
      = (rule.noMerge || ms.any Match.noMerge) := by
  have hflags : (ms.filterMap Slot.noMerge.piece?).any id = ms.any Match.noMerge :=
    List.any_filterMap
  rw [← hflags]
  exact (Slot.noMerge.get_foldl_apply ms rule).trans (foldl_or_eq _ _)

theorem render_foldl_apply :
    (ms.foldl (fun rule m => m.apply rule) rule).render
      = ((ms.filterMap (·.change.segment?)).foldl Chain.prepend rule.chain).render ++
        (rule.selector ++ (ms.filterMap (·.change.selectorText?)).flatten ++
          (rule.pseudo ++ (ms.filterMap (·.change.pseudoText?)).flatten)) := by
  rw [Rule.render, chain_foldl_apply, selector_foldl_apply, pseudo_foldl_apply]

end FoldlApply

/-- Behind a list of matches the subject has their pseudo-classes behind it, in order, and the slot
for pseudo-elements their pseudo-elements; their relations have been put in front one by one; the
rank is the one that the last hint with a say in it sets; and the rule is kept from merging if it
was or one of them says so. What is rendered are the relations, the subject and, always last, the
pseudo-elements, so any list with the same relations, the same pseudo-classes and the same
pseudo-elements, each kind in the same order, renders the same selector. -/
theorem foldl_apply_slots (rule : Rule) (ms : List Match) :
    let final := ms.foldl (fun rule m => m.apply rule) rule
    let relations := ms.filterMap (·.change.segment?)
    let classes := ms.filterMap (·.change.selectorText?)
    let elements := ms.filterMap (·.change.pseudoText?)
    final.selector = rule.selector ++ classes.flatten ∧
    final.pseudo = rule.pseudo ++ elements.flatten ∧
    final.chain = relations.foldl Chain.prepend rule.chain ∧
    final.sort = (ms.filterMap (·.sort.rank?)).getLast?.getD rule.sort ∧
    final.noMerge = (rule.noMerge || ms.any Match.noMerge) ∧
    final.render = (relations.foldl Chain.prepend rule.chain).render ++
      (rule.selector ++ classes.flatten ++ (rule.pseudo ++ elements.flatten)) ∧
    ∀ ms' : List Match, ms'.filterMap (·.change.segment?) = relations →
      ms'.filterMap (·.change.selectorText?) = classes →
      ms'.filterMap (·.change.pseudoText?) = elements →
        (ms'.foldl (fun rule m => m.apply rule) rule).render = final.render := by
  intro final relations classes elements
  refine ⟨selector_foldl_apply rule ms, pseudo_foldl_apply rule ms, chain_foldl_apply rule ms,
    sort_foldl_apply rule ms, noMerge_foldl_apply rule ms, render_foldl_apply rule ms, ?_⟩
  intro ms' hrelations hclasses helements
  rw [render_foldl_apply rule ms', hrelations, hclasses, helements]
  exact (render_foldl_apply rule ms).symm

/-- A pseudo-element in front of two relations that join, or behind them. -/
theorem foldl_apply_slots_interleaved :
    let ms := (Context.resolve {} "before:group-hover:not-focus:group-focus:x".toList).variants
    let ms' := (Context.resolve {} "group-hover:group-focus:before:not-focus:x".toList).variants
    let rule : Rule := { selector := ".x".toList }
    ms'.filterMap (·.change.segment?) = ms.filterMap (·.change.segment?) ∧
    ms'.filterMap (·.change.selectorText?) = ms.filterMap (·.change.selectorText?) ∧
    ms'.filterMap (·.change.pseudoText?) = ms.filterMap (·.change.pseudoText?) ∧
    ms'.map (·.change) ≠ ms.map (·.change) ∧
    (ms'.foldl (fun rule m => m.apply rule) rule).render
      = (ms.foldl (fun rule m => m.apply rule) rule).render ∧
    (ms.foldl (fun rule m => m.apply rule) rule).render
      = ".group:focus:hover .x:not(:focus)::before".toList := by
  intro ms ms' rule
  have hpieces : ms'.filterMap (·.change.segment?) = ms.filterMap (·.change.segment?) ∧
      ms'.filterMap (·.change.selectorText?) = ms.filterMap (·.change.selectorText?) ∧
      ms'.filterMap (·.change.pseudoText?) = ms.filterMap (·.change.pseudoText?) ∧
      ms'.map (·.change) ≠ ms.map (·.change) := by decide +kernel
  obtain ⟨hrelations, hclasses, helements, hne⟩ := hpieces
  obtain ⟨-, -, -, -, -, -, hsame⟩ := foldl_apply_slots rule ms
  exact ⟨hrelations, hclasses, helements, hne, hsame ms' hrelations hclasses helements,
    by decide +kernel⟩

end Rule

end VariantSelector
