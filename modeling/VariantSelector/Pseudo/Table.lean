import VariantSelector.Text.Basic

/-!
Key tables. A row ties the word an author writes in a token (`hover`, `even-of-type`) to the
selector text it stands for. The order of the rows is the canonical order of pseudo-classes, so a
row's position is its rank.
-/

namespace VariantSelector.Pseudo

/-- The two kinds of table, which differ in what may follow a key. -/
inductive TableKind
  | primary
  | colonOnly
  deriving DecidableEq, Repr

/-- Whether a key of this kind of table may be followed by `c`. -/
def TableKind.accepts : TableKind → Char → Bool
  | .primary, c => c = ':' || c = '-'
  | .colonOnly, c => c = ':'

/-- A row of a key table. -/
structure Entry where
  key : Text
  fragment : Text
  deriving DecidableEq, Repr

/-- The row of a key that is a pseudo-class of the same name. -/
def Entry.same (key : String) : Entry := ⟨key.toList, ':' :: key.toList⟩

/-- The row of a key that stands for other selector text. -/
def Entry.spelled (key fragment : String) : Entry := ⟨key.toList, fragment.toList⟩

/-- Pseudo-elements are the fragments that begin with two colons. -/
def Entry.isElement (e : Entry) : Bool := "::".toList.isPrefixOf e.fragment

/-- A key table: no key has two rows, so a key has one rank. -/
structure Table where
  kind : TableKind
  entries : List Entry
  keys_nodup : (entries.map Entry.key).Nodup := by decide

/-- A row together with the table it is in and its position there. -/
structure Lookup where
  entry : Entry
  table : TableKind
  rank : Nat
  deriving DecidableEq, Repr

/-- The rows of a table with their positions. -/
def Table.lookups (t : Table) : List Lookup :=
  t.entries.zipIdx.map fun (entry, rank) => ⟨entry, t.kind, rank⟩

/-- The row of `key`. -/
def Table.get? (t : Table) (key : Text) : Option Lookup :=
  t.lookups.find? (·.entry.key = key)

/-- The rows that may be used: all of them, or those that are no pseudo-elements. -/
def Entry.admitted (classesOnly : Bool) (e : Entry) : Bool := !(classesOnly && e.isElement)

/-- The admitted keys, joined by `|`. -/
def Table.alternation (t : Table) (classesOnly : Bool) : Text :=
  ['|'].intercalate ((t.entries.filter (Entry.admitted classesOnly)).map Entry.key)

/-! ### Keys at the start of a token -/

/-- Characters of a label: ASCII letters, digits and `_`. -/
def isWordChar (c : Char) : Bool := c.isAlphanum || c = '_'

/-- Splits off a leading label, a slash and at least one word character; the label is empty where
there is none. -/
def splitLabel : Text → Text × Text
  | '/' :: s =>
    let name := s.takeWhile isWordChar
    if name.isEmpty then ([], '/' :: s) else ('/' :: name, s.dropWhile isWordChar)
  | s => ([], s)

theorem splitLabel_append (s : Text) : (splitLabel s).1 ++ (splitLabel s).2 = s := by
  unfold splitLabel
  split
  · simp only
    split
    · rfl
    · simp
  · rfl

/-- A key read at the start of a token: its row, the label behind it, the boundary that ended it,
and the text that follows. -/
structure KeyMatch where
  lookup : Lookup
  label : Text
  boundary : Char
  rest : Text
  deriving DecidableEq, Repr

/-- The text that was read: key, label and boundary. -/
def KeyMatch.taken (m : KeyMatch) : Text := m.lookup.entry.key ++ (m.label ++ [m.boundary])

/-- Reads this row's key at the start of `input`, with a label behind it if `labels` allows one. -/
def Lookup.read? (l : Lookup) (labels : Bool) (input : Text) : Option KeyMatch := do
  let afterKey ← Text.after? l.entry.key input
  let (label, rest) := if labels then splitLabel afterKey else ([], afterKey)
  match rest with
  | [] => none
  | boundary :: rest => if l.table.accepts boundary then some ⟨l, label, boundary, rest⟩ else none

/-- The match with the longest key; of equally long ones the last. -/
def longest : List KeyMatch → Option KeyMatch
  | [] => none
  | m :: ms =>
    match longest ms with
    | none => some m
    | some best =>
      if best.lookup.entry.key.length < m.lookup.entry.key.length then some m else some best

/-- The admitted rows whose key can be read at the start of `input`. -/
def Table.candidates (t : Table) (classesOnly labels : Bool) (input : Text) : List KeyMatch :=
  (t.lookups.filter fun l => l.entry.admitted classesOnly).filterMap (·.read? labels input)

/-- Reads the longest admitted key at the start of `input`. -/
def Table.matchKey? (t : Table) (classesOnly labels : Bool) (input : Text) : Option KeyMatch :=
  longest (t.candidates classesOnly labels input)

/-! ### What a read key says about the input -/

theorem Lookup.taken_append_rest {l : Lookup} {labels : Bool} {input : Text} {m : KeyMatch}
    (h : l.read? labels input = some m) : m.taken ++ m.rest = input := by
  unfold Lookup.read? at h
  obtain ⟨afterKey, hk, h⟩ := Option.bind_eq_some_iff.1 h
  have hin := Text.eq_append_of_after? hk
  cases labels with
  | false =>
    cases afterKey with
    | nil => simp at h
    | cons b rest =>
      by_cases hb : l.table.accepts b <;> simp [hb] at h
      subst h
      simp [KeyMatch.taken, hin]
  | true =>
    have happ := splitLabel_append afterKey
    cases hs : (splitLabel afterKey).2 with
    | nil => simp [hs] at h
    | cons b rest =>
      by_cases hb : l.table.accepts b <;> simp [hs, hb] at h
      subst h
      rw [hs] at happ
      simp only [KeyMatch.taken, List.append_assoc, List.singleton_append, happ, hin]

theorem mem_of_longest {ms : List KeyMatch} {m : KeyMatch} (h : longest ms = some m) : m ∈ ms := by
  induction ms generalizing m with
  | nil => simp [longest] at h
  | cons k ks ih =>
    simp only [longest] at h
    cases hk : longest ks with
    | none => simp_all
    | some best =>
      simp only [hk] at h
      split at h <;> simp_all

end VariantSelector.Pseudo
