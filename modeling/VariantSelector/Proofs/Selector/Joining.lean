import VariantSelector.Selector.Segment

/-!
When two neighbouring segments are told as one, said of the segments alone (`Segment.Joins`). The
outer one takes over the compound of the inner one. What has been joined joins its own neighbours
exactly as the segments it was made of did: inwards as the inner one (`Segment.Joins.extend_left`),
outwards as the outer one (`Segment.joins_extend_right`).
-/

namespace VariantSelector

/-- A compound that begins with a colon and has more than that colon. -/
def IsPseudoRun (compound : Text) : Prop := compound.head? = some ':' ∧ 1 < compound.byteSize

theorem IsPseudoRun.append {s : Text} (h : IsPseudoRun s) (t : Text) : IsPseudoRun (s ++ t) := by
  obtain ⟨hhead, hsize⟩ := h
  refine ⟨by rw [List.head?_append, hhead]; rfl, ?_⟩
  rw [Text.byteSize_append]
  omega

theorem isJoinable_iff {s : Text} : isJoinable s = true ↔ IsPseudoRun s := by
  unfold IsPseudoRun
  constructor
  · intro h
    unfold isJoinable at h
    split at h
    next c t =>
      refine ⟨rfl, ?_⟩
      have := c.utf8Size_pos
      simp only [Text.byteSize_cons, show (':' : Char).utf8Size = 1 from rfl]
      omega
    next => cases h
  · rintro ⟨hhead, hsize⟩
    obtain ⟨t, rfl⟩ := List.head?_eq_some_iff.1 hhead
    cases t with
    | nil => exact absurd hsize (by decide)
    | cons c t => rfl

namespace Segment

/-- Both segments are scoped to the same marker without a label and have the same combinator, both
compounds are runs of pseudo-classes, and the outer compound has no white space. -/
inductive Joins : Segment → Segment → Prop
  | intro {base outer inner : Text} {combinator : Combinator} (houter : IsPseudoRun outer)
      (hinner : IsPseudoRun inner) (hblank : ∀ c ∈ outer, isBlank c = false) :
      Joins ⟨.scoped base outer false, combinator⟩ ⟨.scoped base inner false, combinator⟩

theorem joins_scoped_iff {base compound base' compound' : Text} {labeled labeled' : Bool}
    {combinator combinator' : Combinator} :
    Joins ⟨.scoped base compound labeled, combinator⟩
        ⟨.scoped base' compound' labeled', combinator'⟩
      ↔ (labeled = false ∧ labeled' = false ∧ base = base') ∧ combinator = combinator' ∧
        IsPseudoRun compound ∧ IsPseudoRun compound' ∧ ∀ c ∈ compound, isBlank c = false := by
  constructor
  · intro h
    cases h with
    | intro houter hinner hblank => exact ⟨⟨rfl, rfl, rfl⟩, rfl, houter, hinner, hblank⟩
  · rintro ⟨⟨rfl, rfl, rfl⟩, rfl, houter, hinner, hblank⟩
    exact .intro houter hinner hblank

theorem not_joins_literal {text : Text} {k : Combinator} (s : Segment) :
    ¬ Joins ⟨.literal text, k⟩ s ∧ ¬ Joins s ⟨.literal text, k⟩ := by
  constructor <;> rintro ⟨⟩

/-- What a segment says about its marker. -/
def compound (s : Segment) : Text :=
  match s.ancestor with
  | .scoped _ compound _ => compound
  | .literal _ => []

/-- The segment with more behind its compound. -/
def extend (s : Segment) (more : Text) : Segment :=
  match s.ancestor with
  | .scoped base compound labeled => ⟨.scoped base (compound ++ more) labeled, s.combinator⟩
  | .literal _ => s

@[simp] theorem extend_nil (s : Segment) : s.extend [] = s := by
  obtain ⟨ancestor, combinator⟩ := s
  cases ancestor <;> simp [extend]

@[simp] theorem extend_extend (s : Segment) (t u : Text) :
    (s.extend t).extend u = s.extend (t ++ u) := by
  obtain ⟨ancestor, combinator⟩ := s
  cases ancestor <;> simp [extend]

/-! ### Absorbing a neighbour -/

theorem absorb?_of_joins {outer inner : Segment} (h : outer.Joins inner) :
    outer.absorb? inner = some (outer.extend inner.compound) := by
  cases h with
  | intro houter hinner hblank =>
    simpa [absorb?, extend, compound, isJoinable_iff, houter, hinner] using hblank

theorem joins_of_absorb? {outer inner joined : Segment} (h : outer.absorb? inner = some joined) :
    outer.Joins inner := by
  obtain ⟨ancestor, combinator⟩ := outer
  obtain ⟨innerAncestor, innerCombinator⟩ := inner
  simp only [absorb?] at h
  split at h
  next base compound innerBase innerCompound =>
    split at h
    next hcond =>
      obtain ⟨rfl, rfl, houter, hinner, hblank⟩ := hcond
      exact .intro (isJoinable_iff.1 houter) (isJoinable_iff.1 hinner) (by simpa using hblank)
    next => cases h
  next => cases h

/-- A neighbour is absorbed iff the two join, and the outer one is extended by its compound. -/
theorem absorb?_eq_some_iff {outer inner joined : Segment} :
    outer.absorb? inner = some joined ↔
      outer.Joins inner ∧ joined = outer.extend inner.compound := by
  constructor
  · intro h
    have hjoins := joins_of_absorb? h
    rw [absorb?_of_joins hjoins] at h
    exact ⟨hjoins, (Option.some.inj h).symm⟩
  · rintro ⟨h, rfl⟩
    exact absorb?_of_joins h

theorem absorb?_eq_none_iff {outer inner : Segment} :
    outer.absorb? inner = none ↔ ¬ outer.Joins inner := by
  rw [Option.eq_none_iff_forall_ne_some]
  constructor
  · intro h hjoins
    exact h _ (absorb?_of_joins hjoins)
  · intro h joined hjoined
    exact h (joins_of_absorb? hjoined)

instance (outer inner : Segment) : Decidable (outer.Joins inner) :=
  match h : outer.absorb? inner with
  | some _ => isTrue (joins_of_absorb? h)
  | none => isFalse (absorb?_eq_none_iff.1 h)

/-! ### Neighbours of what has been joined -/

variable {outer inner s : Segment}

theorem Joins.isPseudoRun_compound (h : outer.Joins inner) : IsPseudoRun outer.compound := by
  cases h with
  | intro houter _ _ => exact houter

theorem Joins.compound_extend_right (h : outer.Joins inner) (more : Text) :
    (inner.extend more).compound = inner.compound ++ more := by
  cases h
  rfl

/-- Inwards, a joined segment joins what its inner part joins: the outer compound brings in no
white space. -/
theorem Joins.extend_left (h : outer.Joins inner) :
    (outer.extend inner.compound).Joins s ↔ inner.Joins s := by
  cases h with
  | intro houter hinner hblank =>
    simp only [extend, compound]
    constructor
    · intro h
      cases h with
      | intro _ hs hall => exact .intro hinner hs fun c hc => hall c (List.mem_append_right _ hc)
    · intro h
      cases h with
      | intro _ hs hall =>
        refine .intro (houter.append _) hs ?_
        intro c hc
        rcases List.mem_append.1 hc with hc | hc
        · exact hblank c hc
        · exact hall c hc

/-- Outwards, what extends a run of pseudo-classes does not matter. -/
theorem joins_extend_right (h : IsPseudoRun inner.compound) (more : Text) :
    outer.Joins (inner.extend more) ↔ outer.Joins inner := by
  obtain ⟨⟨base, compound, labeled⟩ | ⟨text⟩, combinator⟩ := inner
  · simp only [extend]
    constructor
    · intro hjoins
      cases hjoins with
      | intro houter _ hblank => exact .intro houter h hblank
    · intro hjoins
      cases hjoins with
      | intro houter _ hblank => exact .intro houter (IsPseudoRun.append h more) hblank
  · rfl

end Segment

end VariantSelector
