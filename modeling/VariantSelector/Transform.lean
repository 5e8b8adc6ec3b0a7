import VariantSelector.Text.Basic

/-!
Transform rules undo an earlier pass that wrote class names for a target with fewer characters, for
instance `:` as `-c-`. A rule pairs a plain text with the text that was written for it.
-/

namespace VariantSelector

/-- Rules as pairs of plain and encoded text, in the order in which the plain texts were first
given; a plain text occurs once. -/
abbrev TransformRules := List (Text × Text)

namespace TransformRules

/-- Sets the encoded text of `plain`, at its place if it has one and at the end otherwise. -/
def put (plain encoded : Text) : TransformRules → TransformRules
  | [] => [(plain, encoded)]
  | rule :: rules =>
    if rule.1 = plain then (plain, encoded) :: rules else rule :: put plain encoded rules

/-- The rules of a list of pairs: a repeated plain text keeps its first place and takes its
last encoded text. -/
def ofPairs (pairs : List (Text × Text)) : TransformRules :=
  pairs.foldl (fun rules pair => put pair.1 pair.2 rules) []

/-- Undoes the encoding, rule by rule. A rule without encoded text does nothing. -/
def restore (rules : TransformRules) (token : Text) : Text :=
  rules.foldl (fun text rule => Text.replaceAll rule.2 rule.1 text) token

@[simp] theorem restore_nil (token : Text) : restore [] token = token := rfl

theorem map_fst_put (plain encoded : Text) (rules : TransformRules) :
    (put plain encoded rules).map Prod.fst =
      if plain ∈ rules.map Prod.fst then rules.map Prod.fst
      else rules.map Prod.fst ++ [plain] := by
  induction rules with
  | nil => simp [put]
  | cons rule rules ih =>
    by_cases h : rule.1 = plain
    · simp [put, h]
    · simp only [put, h, ↓reduceIte, List.map_cons, ih, List.mem_cons, Ne.symm h, false_or]
      split <;> simp

end TransformRules

end VariantSelector
