import Mathlib.Data.List.Infix
import VariantSelector.Proofs.Bracketed.Decoding
import VariantSelector.Proofs.Text.Cut

/-!
Decoding read off position by position. The decoder goes through a payload once, with a flag for
`url(...)`, and consumes one, two or four characters at a step; what it writes for a character
nevertheless depends on nothing but what stands before and behind that character (`piece`,
`spaceUnderscores_eq_byPosition`). With the hint and the brackets told in the same way, this gives
the whole decoder without its pass (`decode?_eq_byPosition`).
-/

namespace VariantSelector.Bracketed

/-! ### Hints -/

/-- A payload that begins with this hint, in whatever case, and a colon in front of `base`. -/
def Hint.Leads (h : Hint) (payload base : Text) : Prop :=
  ∃ written : Text, payload = written ++ ':' :: base ∧ written.map Char.toLower = h.name

/-- How a payload splits: into a hint and a base or, where no hint leads it, not at all. -/
inductive Splits (payload : Text) : Option Hint → Text → Prop
  | hinted {h : Hint} {base : Text} (hlead : h.Leads payload base) : Splits payload (some h) base
  | bare (hbare : ∀ h base, ¬ Hint.Leads h payload base) : Splits payload none payload

theorem afterAnyCase?_append_of_map_toLower {lead written : Text} (rest : Text)
    (h : written.map Char.toLower = lead) : afterAnyCase? lead (written ++ rest) = some rest := by
  subst h
  induction written with
  | nil => rfl
  | cons d written ih => simpa [afterAnyCase?] using ih

theorem Hint.strip?_eq_some_iff {h : Hint} {payload base : Text} :
    h.strip? payload = some base ↔ h.Leads payload base := by
  constructor
  · intro hstrip
    obtain ⟨rest, hrest, hcolon⟩ := Option.bind_eq_some_iff.1 hstrip
    split at hcolon
    next =>
      cases hcolon
      exact exists_of_afterAnyCase? hrest
    next => cases hcolon
  · rintro ⟨written, rfl, hlower⟩
    simp [Hint.strip?, afterAnyCase?_append_of_map_toLower _ hlower]

theorem Hint.name_injective : Function.Injective Hint.name := by
  intro h h' hname
  cases h <;> cases h' <;> first | rfl | exact absurd hname (by decide)

/-- A payload has at most one hint in front, since no hint has a colon in its name. -/
theorem Hint.Leads.unique {h h' : Hint} {payload base base' : Text} (hlead : h.Leads payload base)
    (hlead' : h'.Leads payload base') : h' = h ∧ base' = base := by
  obtain ⟨written, rfl, hlower⟩ := hlead
  obtain ⟨written', heq, hlower'⟩ := hlead'
  have hcolon : ∀ {g : Hint} {w : Text}, w.map Char.toLower = g.name →
      ∀ c ∈ w, decide (c ≠ ':') = true := by
    rintro g w hw c hc
    rw [decide_eq_true_iff]
    rintro rfl
    have : ':' ∈ g.name := hw ▸ List.mem_map_of_mem hc
    cases g <;> exact absurd this (by decide)
  have hwritten := congrArg (List.takeWhile (· ≠ ':')) heq
  rw [Text.takeWhile_append_cons (hcolon hlower) (by simp),
    Text.takeWhile_append_cons (hcolon hlower') (by simp)] at hwritten
  subst hwritten
  exact ⟨Hint.name_injective (hlower'.symm.trans hlower), by simpa using heq.symm⟩

theorem splits_splitHint (payload : Text) :
    Splits payload (splitHint payload).1 (splitHint payload).2 := by
  unfold splitHint
  split
  next h base hfound =>
    obtain ⟨g, -, hg⟩ := List.exists_of_findSome?_eq_some hfound
    obtain ⟨rest, hstrip, heq⟩ := Option.map_eq_some_iff.1 hg
    cases heq
    exact .hinted (Hint.strip?_eq_some_iff.1 hstrip)
  next hnone =>
    refine .bare fun h base hlead => ?_
    have hmem : h ∈ Hint.all := by cases h <;> decide
    have := List.findSome?_eq_none_iff.1 hnone h hmem
    rw [Hint.strip?_eq_some_iff.2 hlead] at this
    cases this

/-- Every payload splits in one way, which the decoder finds. -/
theorem splits_iff {payload base : Text} {hint : Option Hint} :
    Splits payload hint base ↔ splitHint payload = (hint, base) := by
  constructor
  · intro h
    have hfound := splits_splitHint payload
    generalize splitHint payload = found at hfound
    obtain ⟨hint', base'⟩ := found
    cases h with
    | hinted hlead =>
      cases hfound with
      | hinted hlead' =>
        obtain ⟨rfl, rfl⟩ := hlead.unique hlead'
        rfl
      | bare hbare => exact absurd hlead (hbare _ _)
    | bare hbare =>
      cases hfound with
      | hinted hlead' => exact absurd hlead' (hbare _ _)
      | bare => rfl
  · intro h
    have hfound := splits_splitHint payload
    rwa [h] at hfound

/-! ### Square brackets -/

/-- No square bracket is closed before it is opened, and none is left open. Escaped ones count. -/
def BracketsMatch (s : Text) : Prop :=
  (∀ p ∈ s.inits, p.count ']' ≤ p.count '[') ∧ s.count '[' = s.count ']'

instance (s : Text) : Decidable (BracketsMatch s) :=
  inferInstanceAs (Decidable (_ ∧ _))

theorem forall_mem_inits_cons {P : Text → Prop} {c : Char} {s : Text} :
    (∀ p ∈ (c :: s).inits, P p) ↔ P [] ∧ ∀ p ∈ s.inits, P (c :: p) := by
  rw [List.inits_cons, List.forall_mem_cons, List.forall_mem_map]

/-- Behind `depth` open brackets. -/
theorem bracketsClose_iff (depth : Nat) (s : Text) :
    bracketsClose depth s = true ↔
      (∀ p ∈ s.inits, p.count ']' ≤ depth + p.count '[') ∧
        depth + s.count '[' = s.count ']' := by
  fun_induction bracketsClose depth s with
  | case1 depth => simp
  | case2 depth rest ih =>
    rw [ih, forall_mem_inits_cons]
    simp [Nat.add_right_comm, Nat.add_assoc]
  | case3 rest =>
    rw [forall_mem_inits_cons]
    refine ⟨fun h => absurd h Bool.false_ne_true, fun ⟨⟨_, hrest⟩, _⟩ => ?_⟩
    have := hrest [] (by simp)
    simp at this
  | case4 rest depth ih =>
    rw [ih, forall_mem_inits_cons]
    simp [Nat.add_right_comm]
  | case5 depth c rest hopen hclose ih =>
    have h₁ : c ≠ '[' := fun h => hopen h
    have h₂ : c ≠ ']' := fun h => hclose h
    rw [ih, forall_mem_inits_cons]
    simp [h₁, h₂]

theorem bracketsClose_zero_iff {s : Text} : bracketsClose 0 s = true ↔ BracketsMatch s := by
  simp only [bracketsClose_iff, Nat.zero_add, BracketsMatch]

/-! ### One character by its position -/

/-- A `url(` stands in this text with no parenthesis closed since. -/
def OpensUrl (before : Text) : Prop :=
  ∃ tail ∈ before.tails, "url(".toList <+: tail ∧ ')' ∉ tail

instance (before : Text) : Decidable (OpensUrl before) :=
  inferInstanceAs (Decidable (∃ tail ∈ _, _))

/-- What is written for a character, given what stands before and behind it. `keeps` tells whether
the underscores of a `url(...)` are kept. -/
def piece (keeps : Bool) (before : Text) (c : Char) (behind : Text) : Text :=
  if c = '\\' ∧ behind.head? = some '_' then []
  else if c = '_' then
    if before.getLast? = some '\\' ∨ (keeps = true ∧ OpensUrl before) then ['_'] else [' ']
  else [c]

/-- Each character of a text, treated by its position alone. -/
def byPosition (keeps : Bool) (s : Text) : Text :=
  s.zipIdx.flatMap fun (c, i) => piece keeps (s.take i) c (s.drop (i + 1))

/-- The same, going through a text of which `before` has been read. -/
def pieces (keeps : Bool) : Text → Text → Text
  | _, [] => []
  | before, c :: behind => piece keeps before c behind ++ pieces keeps (before ++ [c]) behind

theorem pieces_eq_flatMap (keeps : Bool) (before s : Text) :
    pieces keeps before s =
      s.zipIdx.flatMap fun (c, i) => piece keeps (before ++ s.take i) c (s.drop (i + 1)) := by
  induction s generalizing before with
  | nil => rfl
  | cons c s ih =>
    rw [pieces, ih, List.zipIdx_cons', List.flatMap_cons, List.flatMap_map]
    simp

theorem byPosition_eq_pieces (keeps : Bool) (s : Text) :
    byPosition keeps s = pieces keeps [] s := by
  rw [pieces_eq_flatMap]
  rfl

theorem piece_of_ne {c : Char} (keeps : Bool) (before behind : Text) (hunderscore : c ≠ '_')
    (hbackslash : c = '\\' → behind.head? ≠ some '_') : piece keeps before c behind = [c] := by
  rw [piece, if_neg fun h => hbackslash h.1 h.2, if_neg hunderscore]

/-! ### The flag for `url(...)` -/

theorem opensUrl_iff {before : Text} :
    OpensUrl before ↔ ∃ tail, tail <:+ before ∧ "url(".toList <+: tail ∧ ')' ∉ tail := by
  simp only [OpensUrl, List.mem_tails]

theorem opensUrl_append_url (before : Text) : OpensUrl (before ++ "url(".toList) :=
  opensUrl_iff.2 ⟨_, List.suffix_append _ _, List.prefix_rfl, by decide⟩

theorem not_opensUrl_concat_paren (before : Text) : ¬ OpensUrl (before ++ [')']) := by
  rw [opensUrl_iff]
  rintro ⟨tail, htail, hurl, hparen⟩
  obtain rfl | ⟨tail, rfl, -⟩ := List.suffix_concat_iff.1 htail
  · exact absurd hurl (by decide)
  · exact hparen (by simp)

/-- A character changes nothing unless it closes a parenthesis or completes a `url(`. -/
theorem opensUrl_concat_iff {before : Text} {c : Char} (hparen : c ≠ ')')
    (hurl : c = '(' → ¬ "url".toList <:+ before) : OpensUrl (before ++ [c]) ↔ OpensUrl before := by
  rw [opensUrl_iff, opensUrl_iff]
  constructor
  · rintro ⟨tail, htail, hlead, hclosed⟩
    obtain rfl | ⟨tail, rfl, hsuffix⟩ := List.suffix_concat_iff.1 htail
    · exact absurd hlead (by decide)
    · obtain heq | hlead := List.prefix_concat_iff.1 hlead
      · change "url".toList ++ ['('] = _ at heq
        obtain ⟨rfl, hc⟩ := List.append_inj' heq rfl
        exact absurd hsuffix (hurl (List.singleton_inj.1 hc).symm)
      · exact ⟨tail, hsuffix, hlead, fun h => hclosed (by simp [h])⟩
  · rintro ⟨tail, ⟨start, rfl⟩, hlead, hclosed⟩
    refine ⟨tail ++ [c], ⟨start, by simp⟩, hlead.trans (List.prefix_append _ _), ?_⟩
    simp [hclosed, Ne.symm hparen]

/-- A `url(` that begins in the first text and ends in the second one. -/
def Straddles (before behind : Text) : Prop :=
  ∃ x y : Text, x ≠ [] ∧ y ≠ [] ∧ x ++ y = "url(".toList ∧ x <:+ before ∧ y <+: behind

/-- Behind a character of no `url(`, or the last one of it, nothing straddles. -/
theorem not_straddles_concat {c : Char} (hc : c ∉ "url".toList) (before behind : Text) :
    ¬ Straddles (before ++ [c]) behind := by
  rintro ⟨x, y, hx, hy, hxy, hsuffix, -⟩
  obtain rfl | ⟨x, rfl, -⟩ := List.suffix_concat_iff.1 hsuffix
  · exact hx rfl
  · obtain rfl | ⟨y, d, rfl⟩ := List.eq_nil_or_concat' y
    · exact hy rfl
    · rw [← List.append_assoc] at hxy
      change _ = "url".toList ++ ['('] at hxy
      obtain ⟨hurl, -⟩ := List.append_inj' hxy rfl
      exact hc (hurl ▸ by simp)

theorem Straddles.of_concat {before behind : Text} {c : Char}
    (h : Straddles (before ++ [c]) behind) :
    Straddles before (c :: behind) ∨ "url(".toList <+: c :: behind := by
  obtain ⟨x, y, hx, hy, hxy, hconcat, hprefix⟩ := h
  obtain rfl | ⟨x, rfl, hsuffix⟩ := List.suffix_concat_iff.1 hconcat
  · exact absurd rfl hx
  · rw [List.append_assoc, List.singleton_append] at hxy
    have hprefix := (List.prefix_cons_inj c).2 hprefix
    by_cases hnil : x = []
    · subst hnil
      exact .inr (hxy ▸ hprefix)
    · exact .inl ⟨x, c :: y, hnil, by simp, hxy, hsuffix, hprefix⟩

/-! ### The pass -/

/-- What the decoder knows between two steps: its flag tells whether a `url(` is open, and neither
an escaped underscore nor a `url(` is cut in two by the place it stands at. -/
structure Tracks (keeps : Bool) (mode : UrlMode) (before behind : Text) : Prop where
  keeps_iff : keeps = true ↔ mode ≠ .plain
  inside_iff : mode = .inside ↔ keeps = true ∧ OpensUrl before
  unescaped : behind.head? = some '_' → before.getLast? ≠ some '\\'
  aligned : ¬ Straddles before behind

namespace Tracks

variable {keeps : Bool} {mode : UrlMode} {before behind : Text}

theorem start (keeps : Bool) (s : Text) :
    Tracks keeps (if keeps then .outside else .plain) [] s where
  keeps_iff := by cases keeps <;> decide
  inside_iff := by cases keeps <;> simp [show ¬ OpensUrl [] by decide]
  unescaped := by simp
  aligned := by
    rintro ⟨x, -, hx, -, -, hsuffix, -⟩
    exact hx (List.suffix_nil.1 hsuffix)

/-- Behind `url(`. -/
theorem enter (h : Tracks keeps mode before ("url(".toList ++ behind)) :
    Tracks keeps mode.enter (before ++ "url(".toList) behind where
  keeps_iff := by rw [h.keeps_iff]; cases mode <;> decide
  inside_iff := by
    have := h.keeps_iff
    simp only [opensUrl_append_url, and_true, this]
    cases mode <;> decide
  unescaped := by simp
  aligned := by
    have := not_straddles_concat (c := '(') (by decide) (before ++ "url".toList) behind
    rwa [List.append_assoc] at this

/-- Behind a closing parenthesis. -/
theorem leave (h : Tracks keeps mode before (')' :: behind)) :
    Tracks keeps mode.leave (before ++ [')']) behind where
  keeps_iff := by rw [h.keeps_iff]; cases mode <;> decide
  inside_iff := by
    simp only [not_opensUrl_concat_paren, and_false, iff_false]
    cases mode <;> decide
  unescaped := by simp
  aligned := not_straddles_concat (by decide) _ _

/-- Behind an escaped underscore. -/
theorem escaped (h : Tracks keeps mode before ('\\' :: '_' :: behind)) :
    Tracks keeps mode (before ++ ['\\'] ++ ['_']) behind where
  keeps_iff := h.keeps_iff
  inside_iff := by
    rw [opensUrl_concat_iff (by decide) (by simp), opensUrl_concat_iff (by decide) (by simp)]
    exact h.inside_iff
  unescaped := by simp
  aligned := not_straddles_concat (by decide) _ _

/-- Behind any other character. -/
theorem other {c : Char} (h : Tracks keeps mode before (c :: behind)) (hparen : c ≠ ')')
    (hurl : ¬ "url(".toList <+: c :: behind) (hescape : c = '\\' → behind.head? ≠ some '_') :
    Tracks keeps mode (before ++ [c]) behind where
  keeps_iff := h.keeps_iff
  inside_iff := by
    rw [opensUrl_concat_iff hparen]
    · exact h.inside_iff
    · -- the last character of a `url(` is never read by itself
      rintro rfl hsuffix
      exact h.aligned ⟨_, ['('], by decide, by decide, rfl, hsuffix, by simp⟩
  unescaped := by
    intro hhead hlast
    rw [List.getLast?_concat, Option.some_inj] at hlast
    exact hescape hlast hhead
  aligned := fun hstraddles => hstraddles.of_concat.elim h.aligned hurl

end Tracks

/-- The pass writes the pieces of what it has not read yet. -/
theorem spaceUnderscores_eq_pieces {keeps : Bool} {mode : UrlMode} {before behind : Text}
    (h : Tracks keeps mode before behind) :
    spaceUnderscores mode behind = pieces keeps before behind := by
  fun_induction spaceUnderscores mode behind generalizing before with
  | case1 => rfl
  | case2 mode behind ih =>
    have hrest := ih h.enter
    simp [pieces, piece, hrest]
  | case3 mode behind ih =>
    rw [pieces, piece_of_ne _ _ _ (by decide) (by simp), ih h.leave]
    rfl
  | case4 mode behind ih =>
    rw [pieces, pieces, ih h.escaped]
    simp [piece]
  | case5 mode behind ih =>
    -- a backslash in front of it would have taken it along
    have hlast := h.unescaped rfl
    rw [pieces, ih (h.other (by decide) (by simp) (by simp))]
    simp only [h.inside_iff, piece, hlast, false_or]
    split <;> rfl
  | case6 mode c behind hurl hparen hescape hunderscore ih =>
    have hopens : ¬ "url(".toList <+: c :: behind := by
      rintro ⟨rest, hrest⟩
      obtain ⟨hc, hbehind⟩ := List.cons.inj hrest
      exact hurl rest hc.symm hbehind.symm
    have hescapes : c = '\\' → behind.head? ≠ some '_' := by
      intro hc hhead
      obtain ⟨rest, rfl⟩ := List.head?_eq_some_iff.1 hhead
      exact hescape rest hc rfl
    rw [pieces, ih (h.other hparen hopens hescapes), piece_of_ne _ _ _ hunderscore hescapes]
    rfl

/-- The pass over a whole text treats each character by its position. -/
theorem spaceUnderscores_eq_byPosition (keeps : Bool) (s : Text) :
    spaceUnderscores (if keeps then .outside else .plain) s = byPosition keeps s := by
  rw [byPosition_eq_pieces]
  exact spaceUnderscores_eq_pieces (.start keeps s)

example : byPosition true "url(a_b)\\_c_d".toList = "url(a_b)_c d".toList := by decide

/-! ### The decoder -/

/-- Whether a base stands for nothing. -/
def IsVoid (base : Text) : Prop :=
  base = [] ∨ base = "=\"\"".toList ∨ ¬ BracketsMatch base

instance (base : Text) : Decidable (IsVoid base) :=
  inferInstanceAs (Decidable (_ ∨ _ ∨ ¬ BracketsMatch base))

theorem isVoid_iff (base : Text) :
    (base.isEmpty || base = "=\"\"".toList || !bracketsClose 0 base) = true ↔ IsVoid base := by
  simp only [IsVoid, ← bracketsClose_zero_iff, Bool.or_eq_true, List.isEmpty_iff, decide_eq_true_eq,
    Bool.not_eq_true', Bool.not_eq_true, or_assoc]

theorem readCustomProperty_eq (base : Text) :
    readCustomProperty base =
      if "--".toList <+: base then "var(".toList ++ base ++ ")".toList else base := by
  simp only [readCustomProperty, List.isPrefixOf_iff_prefix, List.append_assoc]
  rfl

/-- The decoder told without its pass. A payload is the base behind its one hint, or all of it. It
stands for nothing exactly if the base does; else each character of the base, put into `var(...)` if
it begins with `--`, is treated by its position, where a `url(...)` keeps its underscores unless the
hint is `string` or `quoted`, and the result is quoted under the latter. -/
theorem decode?_eq_byPosition (payload : Text) :
    ∃ hint base, (∀ hint' base', Splits payload hint' base' ↔ hint' = hint ∧ base' = base) ∧
      decode? payload =
        if IsVoid base then none
        else
          let whole :=
            if "--".toList <+: base then "var(".toList ++ base ++ ")".toList else base
          let decoded := byPosition (hint ≠ some .string ∧ hint ≠ some .quoted) whole
          some (if hint = some .quoted then quote decoded else decoded) := by
  obtain ⟨hint, base, hsplit⟩ : ∃ hint base, splitHint payload = (hint, base) := ⟨_, _, rfl⟩
  refine ⟨hint, base, fun hint' base' => ?_, ?_⟩
  · rw [splits_iff, hsplit, Prod.mk.injEq]
    exact and_congr eq_comm eq_comm
  · simp only [decode?, hsplit, isVoid_iff, ← readCustomProperty_eq]
    split
    · rfl
    · split
      next => simp [← spaceUnderscores_eq_byPosition]
      next => simp [← spaceUnderscores_eq_byPosition]
      next hstring hquoted =>
        have hkeeps : decide (hint ≠ some .string ∧ hint ≠ some .quoted) = true :=
          decide_eq_true ⟨hstring, hquoted⟩
        rw [hkeeps, ← spaceUnderscores_eq_byPosition, if_neg hquoted]
        rfl

end VariantSelector.Bracketed
