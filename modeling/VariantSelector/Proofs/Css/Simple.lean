import VariantSelector.Proofs.Css.Selector

/-!
Reading one simple selector off the front of a text (Selectors, class and attribute selectors): a
class, or an attribute with a test of its value or none. What stands behind it is left over, and a
text is a simple selector by itself if nothing is. Of attribute selectors, those with a namespace,
with a case flag or with a string over several lines are not read.
-/

namespace VariantSelector.Css

/-! ### The reader -/

/-- How an attribute is compared to a value: `=`, `~=`, `|=`, `^=`, `$=` and `*=`. -/
inductive Comparison
  | equals
  | hasWord
  | hasLanguage
  | begins
  | ends
  | contains
  deriving DecidableEq, Repr

def Comparison.read? : Text → Option (Comparison × Text)
  | '=' :: s => some (.equals, s)
  | '~' :: '=' :: s => some (.hasWord, s)
  | '|' :: '=' :: s => some (.hasLanguage, s)
  | '^' :: '=' :: s => some (.begins, s)
  | '$' :: '=' :: s => some (.ends, s)
  | '*' :: '=' :: s => some (.contains, s)
  | _ => none

inductive SimpleSelector
  | ofClass (name : Text)
  | ofAttribute (name : Text) (test : Option (Comparison × Text))
  deriving DecidableEq, Repr

def skipSpaces (s : Text) : Text := s.dropWhile isSpace

/-- Reads an identifier, where one begins. -/
def readName? (s : Text) : Option (Text × Text) :=
  if startsIdentifier s then some (readIdentifier s) else none

/-- Reads up to the quote that closes a string, of which the opening one has been read. -/
def readString? (closing : Char) : Text → Option (Text × Text)
  | [] => none
  | c :: s =>
    if c = closing then some ([], s)
    else if isNewline c then none
    else if c = '\\' then
      match _h : readEscape? s with
      | none => none
      | some (d, rest) => (readString? closing rest).map fun (t, r) => (d :: t, r)
    else (readString? closing s).map fun (t, r) => (c :: t, r)
termination_by s => s.length
decreasing_by
  · exact Nat.lt_succ_of_le (length_le_of_readEscape? _h)
  · exact Nat.lt_succ_self _

/-- Reads a value, in quotes or bare. -/
def readValue? : Text → Option (Text × Text)
  | '"' :: s => readString? '"' s
  | '\x27' :: s => readString? '\x27' s
  | s => readName? s

/-- Reads a comparison, its value and the closing bracket. -/
def readComparison? (s : Text) : Option ((Comparison × Text) × Text) := do
  let (comparison, s) ← Comparison.read? s
  let (value, s) ← readValue? (skipSpaces s)
  match skipSpaces s with
  | ']' :: rest => some ((comparison, value), rest)
  | _ => none

/-- Reads what follows the name of an attribute: the closing bracket, or a comparison up to it. -/
def readTest? : Text → Option (Option (Comparison × Text) × Text)
  | ']' :: rest => some (none, rest)
  | s => (readComparison? s).map fun (test, rest) => (some test, rest)

/-- Reads an attribute selector, of which the opening bracket has been read. -/
def readAttribute? (s : Text) : Option (SimpleSelector × Text) := do
  let (name, s) ← readName? (skipSpaces s)
  let (test, rest) ← readTest? (skipSpaces s)
  some (.ofAttribute name test, rest)

/-- Reads a class or an attribute selector. -/
def readSimple? : Text → Option (SimpleSelector × Text)
  | '.' :: s => (readName? s).map fun (name, rest) => (.ofClass name, rest)
  | '[' :: s => readAttribute? s
  | _ => none

/-- The whole text is this simple selector. -/
def SimpleSelector.StandsAlone (sel : SimpleSelector) (s : Text) : Prop :=
  readSimple? s = some (sel, [])

theorem SimpleSelector.standsAlone_iff {sel sel' : SimpleSelector} {s rest : Text}
    (h : readSimple? s = some (sel', rest)) : sel.StandsAlone s ↔ sel = sel' ∧ rest = [] := by
  rw [StandsAlone, h, Option.some_inj, Prod.mk.injEq]
  exact and_congr_left' eq_comm

/-! ### What is read of classes and of attributes without value -/

theorem ReadsName.readName? {s name rest : Text} (h : ReadsName s name rest) :
    readName? s = some (name, rest) := by
  rw [Css.readName?, if_pos h.starts, h.reads]

theorem ReadsName.readSimple?_class {s name rest : Text} (h : ReadsName s name rest) :
    readSimple? ('.' :: s) = some (.ofClass name, rest) := by
  rw [readSimple?, h.readName?, Option.map_some]

theorem not_isSpace_of_isNameChar {c : Char} (h : isNameChar c = true) : isSpace c = false := by
  refine Bool.eq_false_iff.2 fun hc => ?_
  simp only [isSpace, isNewline, Bool.or_eq_true, decide_eq_true_eq] at hc
  rcases hc with (rfl | rfl) | (rfl | rfl) | rfl <;> exact absurd h (by decide)

theorem skipSpaces_append_of_isPlainName {name : Text} (h : isPlainName name = true) (s : Text) :
    skipSpaces (name ++ s) = name ++ s := by
  cases name with
  | nil => cases h
  | cons c name =>
    simp only [isPlainName, Bool.and_eq_true] at h
    rw [skipSpaces, List.cons_append, List.dropWhile_cons_of_neg]
    simp [not_isSpace_of_isNameChar h.1.1.1]

theorem readTest?_emptyString (rest : Text) :
    readTest? ('=' :: '"' :: '"' :: ']' :: rest) = some (some (.equals, []), rest) := by
  have hvalue : readValue? (skipSpaces ('"' :: '"' :: ']' :: rest)) = some ([], ']' :: rest) := by
    change readString? '"' ('"' :: ']' :: rest) = _
    rw [readString?, if_pos rfl]
  have hcomparison :
      readComparison? ('=' :: '"' :: '"' :: ']' :: rest) = some ((.equals, []), rest) := by
    change (readValue? (skipSpaces ('"' :: '"' :: ']' :: rest))).bind _ = _
    rw [hvalue]
    rfl
  change (readComparison? ('=' :: '"' :: '"' :: ']' :: rest)).map _ = _
  rw [hcomparison]
  rfl

/-- An attribute that is compared to the empty string. -/
theorem readSimple?_attribute {name : Text} (h : isPlainName name = true) (rest : Text) :
    readSimple? ('[' :: (name ++ '=' :: '"' :: '"' :: ']' :: rest))
      = some (.ofAttribute name (some (.equals, [])), rest) := by
  have hname : ReadsName (name ++ '=' :: '"' :: '"' :: ']' :: rest) name
      ('=' :: '"' :: '"' :: ']' :: rest) := by
    refine readsName_of_isPlainName h (readIdentifier_of_stop fun c hc => ?_)
    cases hc
    decide
  have hspaces : skipSpaces ('=' :: '"' :: '"' :: ']' :: rest) = '=' :: '"' :: '"' :: ']' :: rest :=
    rfl
  simp only [readSimple?, readAttribute?, skipSpaces_append_of_isPlainName h, hname.readName?,
    Option.bind_eq_bind, Option.bind_some, hspaces, readTest?_emptyString]

end VariantSelector.Css
