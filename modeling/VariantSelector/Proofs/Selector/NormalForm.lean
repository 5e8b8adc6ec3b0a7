import Mathlib.Data.List.SplitBy
import Mathlib.Logic.Relation
import VariantSelector.Selector.Chain
import VariantSelector.Proofs.Selector.Joining

/-!
What a chain holds after any run of steps. `Chain.normalize` looks at the two outermost segments
only. That is enough: a segment that has been joined joins what lies behind it exactly as its inner
part did, so no pair further in can become joinable (`Chain.Normal.prepend`). The chain is the list
of the segments that were put in front, each maximal run of joining neighbours told as one
(`Chain.ofSegments_runs`), and the order in which pairs are joined does not matter
(`Chain.Collapses.ofSegments_eq`).
-/

namespace VariantSelector

/-- The segment that says what a run of segments says: the outermost one with the compounds of the
others behind its own. -/
def Segment.fuse : List Segment → Option Segment
  | [] => none
  | s :: run => some (s.extend (run.flatMap Segment.compound))

namespace Chain

inductive Step
  | prepend (s : Segment)
  | normalize
  deriving DecidableEq, Repr

def Step.apply (c : Chain) : Step → Chain
  | .prepend s => c.prepend s
  | .normalize => c.normalize

def Step.segment? : Step → Option Segment
  | .prepend s => some s
  | .normalize => none

/-- The chain after some steps, first step first. -/
def run (steps : List Step) : Chain := steps.foldl Step.apply {}

/-- The segments that the steps put in front, last one first. -/
def prepended (steps : List Step) : List Segment := (steps.filterMap Step.segment?).reverse

/-- The chain of segments put in front one after another, the last of the list first. -/
def ofSegments (l : List Segment) : Chain := l.foldr (fun s c => c.prepend s) {}

@[simp] theorem ofSegments_nil : ofSegments [] = {} := rfl

@[simp] theorem ofSegments_cons (s : Segment) (l : List Segment) :
    ofSegments (s :: l) = (ofSegments l).prepend s := rfl

/-- No two neighbours can be joined. -/
def Normal (l : List Segment) : Prop := l.IsChain fun outer inner => outer.absorb? inner = none

/-- One pair of joinable neighbours, anywhere, is told as one. -/
inductive Collapses : List Segment → List Segment → Prop
  | here {outer inner joined : Segment} {rest : List Segment}
      (h : outer.absorb? inner = some joined) : Collapses (outer :: inner :: rest) (joined :: rest)
  | there {s : Segment} {l l' : List Segment} (h : Collapses l l') : Collapses (s :: l) (s :: l')

/-! ### Putting one segment in front -/

section Prepend

variable {outer inner : Segment} {l : List Segment}

@[simp] theorem prepend_empty (s : Segment) : prepend {} s = ⟨[s]⟩ := rfl

theorem prepend_of_joins (h : outer.Joins inner) :
    prepend ⟨inner :: l⟩ outer = ⟨outer.extend inner.compound :: l⟩ := by
  simp [prepend, normalize, Segment.absorb?_of_joins h]

theorem prepend_of_not_joins (h : ¬ outer.Joins inner) :
    prepend ⟨inner :: l⟩ outer = ⟨outer :: inner :: l⟩ := by
  simp [prepend, normalize, Segment.absorb?_eq_none_iff.2 h]

/-- Two segments that join may be joined before they are put in front. -/
theorem prepend_prepend_of_joins (h : outer.Joins inner) (c : Chain) :
    (c.prepend inner).prepend outer = c.prepend (outer.extend inner.compound) := by
  obtain ⟨l⟩ := c
  cases l with
  | nil => exact prepend_of_joins h
  | cons s l =>
    by_cases hs : inner.Joins s
    · -- all three become one, from whichever side
      have hright : outer.Joins (inner.extend s.compound) :=
        (Segment.joins_extend_right hs.isPseudoRun_compound _).2 h
      rw [prepend_of_joins hs, prepend_of_joins hright, h.compound_extend_right,
        prepend_of_joins (h.extend_left.2 hs), Segment.extend_extend]
    · rw [prepend_of_not_joins hs, prepend_of_joins h,
        prepend_of_not_joins (mt h.extend_left.1 hs)]

end Prepend

/-! ### Normal lists -/

theorem Normal.tail {s : Segment} {l : List Segment} (h : Normal (s :: l)) : Normal l :=
  List.IsChain.tail h

theorem Normal.not_joins {s t : Segment} {l : List Segment} (h : Normal (s :: t :: l)) :
    ¬ s.Joins t :=
  Segment.absorb?_eq_none_iff.1 (List.isChain_cons_cons.1 h).1

theorem normal_cons_cons {s t : Segment} {l : List Segment} (hst : ¬ s.Joins t)
    (h : Normal (t :: l)) : Normal (s :: t :: l) :=
  List.isChain_cons_cons.2 ⟨Segment.absorb?_eq_none_iff.2 hst, h⟩

/-- The step that makes looking at the outermost pair enough. -/
theorem Normal.prepend {c : Chain} (h : Normal c.segments) (s : Segment) :
    Normal (c.prepend s).segments := by
  obtain ⟨l⟩ := c
  cases l with
  | nil => exact List.isChain_singleton s
  | cons t l =>
    by_cases hst : s.Joins t
    · rw [prepend_of_joins hst]
      cases l with
      | nil => exact List.isChain_singleton _
      | cons u l =>
        -- the joined segment meets the third one as its inner part did
        exact normal_cons_cons (mt hst.extend_left.1 h.not_joins) h.tail
    · rw [prepend_of_not_joins hst]
      exact normal_cons_cons hst h

theorem normal_ofSegments (l : List Segment) : Normal (ofSegments l).segments := by
  induction l with
  | nil => exact List.isChain_nil
  | cons s l ih => exact ih.prepend s

theorem Normal.normalize_eq {c : Chain} (h : Normal c.segments) : c.normalize = c := by
  obtain ⟨l⟩ := c
  match l, h with
  | [], _ => rfl
  | [_], _ => rfl
  | s :: t :: l, h => exact prepend_of_not_joins h.not_joins

theorem Normal.ofSegments_eq {l : List Segment} (h : Normal l) : ofSegments l = ⟨l⟩ := by
  induction l with
  | nil => rfl
  | cons s l ih =>
    rw [ofSegments_cons, ih h.tail]
    cases l with
    | nil => rfl
    | cons t l => exact prepend_of_not_joins h.not_joins

/-! ### The run of a list of steps -/

/-- Only what is put in front counts: normalizing in between changes nothing. -/
theorem run_eq_ofSegments (steps : List Step) : run steps = ofSegments (prepended steps) := by
  -- the last step is the outermost one
  induction steps using List.reverseRecOn with
  | nil => rfl
  | append_singleton steps step ih =>
    have happly : run (steps ++ [step]) = step.apply (run steps) := by
      simp [run]
    rw [happly, ih]
    cases step with
    | prepend s => simp [prepended, Step.segment?, Step.apply]
    | normalize =>
      rw [show prepended (steps ++ [.normalize]) = prepended steps by
        simp [prepended, Step.segment?]]
      exact (normal_ofSegments _).normalize_eq

/-! ### Maximal runs -/

section Runs

variable {α : Type} {r : α → α → Bool} {a b : α} {l g : List α} {gs : List (List α)}

theorem splitBy_cons_eq (r : α → α → Bool) (a : α) (l : List α) :
    ∃ g gs, (a :: l).splitBy r = (a :: g) :: gs := by
  cases h : (a :: l).splitBy r with
  | nil => exact absurd (List.splitBy_eq_nil.1 h) (List.cons_ne_nil a l)
  | cons run runs =>
    cases run with
    | nil => exact absurd (h ▸ List.mem_cons_self) (List.nil_notMem_splitBy r (a :: l))
    | cons b g =>
      have hflat := List.flatten_splitBy r (a :: l)
      rw [h] at hflat
      obtain ⟨rfl, -⟩ := List.cons.inj hflat
      exact ⟨g, runs, rfl⟩

theorem splitBy_cons_of_related (h : (b :: l).splitBy r = (b :: g) :: gs) (hab : r a b = true) :
    (a :: b :: l).splitBy r = (a :: b :: g) :: gs := by
  obtain ⟨hflat, hnil, hruns, hborders⟩ := List.splitBy_eq_iff.1 h
  refine List.splitBy_eq_iff.2 ⟨by rw [hflat]; rfl, by simpa using hnil, ?_, ?_⟩
  · intro m hm
    rcases List.mem_cons.1 hm with rfl | hm
    · exact List.isChain_cons_cons.2 ⟨hab, hruns _ List.mem_cons_self⟩
    · exact hruns m (List.mem_cons_of_mem _ hm)
  · cases gs with
    | nil => exact List.isChain_singleton _
    | cons g' gs =>
      obtain ⟨⟨_, hb, hborder⟩, hborders⟩ := List.isChain_cons_cons.1 hborders
      exact List.isChain_cons_cons.2 ⟨⟨List.cons_ne_nil _ _, hb, by simpa using hborder⟩, hborders⟩

end Runs

/-- A segment is extended only by what it joins, so its outer neighbour sees it as it was. -/
theorem joins_extend_run {s t : Segment} {g : List Segment} (h : (t :: g).IsChain Segment.Joins) :
    s.Joins (t.extend (g.flatMap Segment.compound)) ↔ s.Joins t := by
  cases g with
  | nil => rw [List.flatMap_nil, Segment.extend_nil]
  | cons v g =>
    have htv := (List.isChain_cons_cons.1 h).1
    exact Segment.joins_extend_right htv.isPseudoRun_compound _

theorem ofSegments_runs (l : List Segment) :
    (ofSegments l).segments.map some =
      (l.splitBy fun outer inner => decide (outer.Joins inner)).map Segment.fuse := by
  set r : Segment → Segment → Bool := fun outer inner => decide (outer.Joins inner) with hr
  induction l with
  | nil => rfl
  | cons s l ih =>
    cases l with
    | nil => simp [List.splitBy, List.splitBy.loop, Segment.fuse]
    | cons t l =>
      obtain ⟨g, gs, hgs⟩ := splitBy_cons_eq r t l
      rw [hgs] at ih
      obtain ⟨u, us, hsegments, hu, hus⟩ := List.map_eq_cons_iff.1 ih
      obtain rfl : u = t.extend (g.flatMap Segment.compound) := Option.some.inj hu
      have hchain : ofSegments (t :: l) = ⟨t.extend (g.flatMap Segment.compound) :: us⟩ := by
        rw [← hsegments]
      have hrun : (t :: g).IsChain Segment.Joins :=
        (List.isChain_of_mem_splitBy (hgs ▸ List.mem_cons_self)).imp fun _ _ => of_decide_eq_true
      have hjoins : s.Joins (t.extend (g.flatMap Segment.compound)) ↔ s.Joins t :=
        joins_extend_run hrun
      rw [ofSegments_cons, hchain]
      by_cases hst : s.Joins t
      · rw [splitBy_cons_of_related hgs (decide_eq_true hst), prepend_of_joins (hjoins.2 hst),
          hst.compound_extend_right]
        simp [Segment.fuse, hus]
      · have hsplit : (s :: t :: l).splitBy r = [s] :: (t :: g) :: gs := by
          rw [← hgs]
          exact List.splitBy_append_cons (l := [s]) l (by simpa [hr] using hst)
        rw [hsplit, prepend_of_not_joins (mt hjoins.1 hst)]
        simp [Segment.fuse, hus]

-- a marker with a label stays apart from one without
example :
    (run [.prepend ⟨.scoped ".group".toList ":hover".toList false, .descendant⟩, .normalize,
      .prepend ⟨.scoped ".group".toList ":focus".toList false, .descendant⟩,
      .prepend ⟨.scoped ".group".toList ":active".toList true, .descendant⟩]).render
      = ".group:active .group:focus:hover ".toList := by decide

/-! ### Collapsing pairs in any order -/

open Relation (ReflTransGen)

theorem normal_iff_not_collapses {l : List Segment} : Normal l ↔ ∀ l', ¬ Collapses l l' := by
  constructor
  · intro h l' hcollapses
    induction hcollapses with
    | here hjoined => exact h.not_joins (Segment.joins_of_absorb? hjoined)
    | there _ ih => exact ih h.tail
  · intro h
    induction l with
    | nil => exact List.isChain_nil
    | cons s l ih =>
      have hl := ih fun l' hl' => h _ hl'.there
      cases l with
      | nil => exact List.isChain_singleton s
      | cons t l =>
        refine normal_cons_cons ?_ hl
        intro hst
        exact h _ (.here (Segment.absorb?_of_joins hst))

theorem Collapses.length_eq {l l' : List Segment} (h : Collapses l l') :
    l.length = l'.length + 1 := by
  induction h with
  | here => rfl
  | there _ ih => rw [List.length_cons, ih, List.length_cons]

theorem wellFounded_collapses : WellFounded (fun l' l => Collapses l l') := by
  refine Subrelation.wf ?_ (measure (List.length (α := Segment))).wf
  intro l' l h
  have hlength := h.length_eq
  show l'.length < l.length
  omega

/-- Collapsing a pair does not change the chain that the segments make. -/
theorem Collapses.ofSegments_eq {l l' : List Segment} (h : Collapses l l') :
    ofSegments l = ofSegments l' := by
  induction h with
  | here hjoined =>
    obtain ⟨hjoins, rfl⟩ := Segment.absorb?_eq_some_iff.1 hjoined
    exact prepend_prepend_of_joins hjoins _
  | there _ ih => rw [ofSegments_cons, ofSegments_cons, ih]

theorem ofSegments_eq_of_reflTransGen {l l' : List Segment} (h : ReflTransGen Collapses l l') :
    ofSegments l = ofSegments l' := by
  induction h with
  | refl => rfl
  | tail _ hstep ih => rw [ih, hstep.ofSegments_eq]

theorem reflTransGen_prepend (c : Chain) (s : Segment) :
    ReflTransGen Collapses (s :: c.segments) (c.prepend s).segments := by
  obtain ⟨l⟩ := c
  cases l with
  | nil => exact .refl
  | cons t l =>
    by_cases hst : s.Joins t
    · rw [prepend_of_joins hst]
      exact .single (.here (Segment.absorb?_of_joins hst))
    · rw [prepend_of_not_joins hst]

theorem reflTransGen_ofSegments (l : List Segment) :
    ReflTransGen Collapses l (ofSegments l).segments := by
  induction l with
  | nil => exact .refl
  | cons s l ih =>
    have hinner : ReflTransGen Collapses (s :: l) (s :: (ofSegments l).segments) :=
      ih.lift (List.cons s) fun _ _ h => h.there
    exact hinner.trans (reflTransGen_prepend _ s)

/-! ### The normal form -/

/-- After any run of steps: no two neighbours can be joined, at any depth; every maximal run of
joining neighbours among the segments put in front has become one segment, and there is nothing
else; and collapsing pairs of those segments, in whatever order, ends, and ends in this chain. -/
theorem run_normal_form (steps : List Step) :
    (Normal (run steps).segments ∧ (run steps).normalize = run steps) ∧
    (run steps).segments.map some =
      ((prepended steps).splitBy fun outer inner => decide (outer.Joins inner)).map Segment.fuse ∧
    (Acc (fun l' l => Collapses l l') (prepended steps) ∧
      ∀ l, ReflTransGen Collapses (prepended steps) l →
        ReflTransGen Collapses l (run steps).segments ∧
        ((∀ l', ¬ Collapses l l') → l = (run steps).segments)) := by
  have hrun := run_eq_ofSegments steps
  have hnormal : Normal (run steps).segments := by
    rw [hrun]
    exact normal_ofSegments _
  refine ⟨⟨hnormal, hnormal.normalize_eq⟩, ?_, wellFounded_collapses.apply _, ?_⟩
  · rw [hrun]
    exact ofSegments_runs _
  · intro l hl
    have hsame : run steps = ofSegments l := by
      rw [hrun]
      exact ofSegments_eq_of_reflTransGen hl
    constructor
    · rw [hsame]
      exact reflTransGen_ofSegments l
    · intro hend
      rw [hsame, (normal_iff_not_collapses.2 hend).ofSegments_eq]

end Chain

end VariantSelector
