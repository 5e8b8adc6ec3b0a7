import VariantSelector.Pseudo.Registry
import VariantSelector.Proofs.Text.Cut
import Mathlib.Data.List.Nodup

/-!
Reading keys, said without the search: a key is read off the front of an input where, after an
optional label, a boundary follows that its table accepts. The search finds a key iff there is one
to read, and finds the longest (`Registry.matchKey?_eq_some_iff`). A key with a colon behind it is
always the longest (`Registry.exists_matchKey?_of_readsRow`).
-/

namespace VariantSelector.Pseudo

/-- A label: a slash and at least one word character. -/
def IsLabel (s : Text) : Prop :=
  ∃ name : Text, s = '/' :: name ∧ name ≠ [] ∧ ∀ c ∈ name, isWordChar c = true

/-! ### Characters that end a key -/

theorem TableKind.eq_of_accepts {k : TableKind} {c : Char} (h : k.accepts c = true) :
    c = ':' ∨ c = '-' := by
  cases k with
  | primary => simpa [accepts] using h
  | colonOnly => exact .inl (by simpa [accepts] using h)

@[simp] theorem TableKind.accepts_colon (k : TableKind) : k.accepts ':' = true := by
  cases k <;> rfl

theorem TableKind.not_isWordChar_of_accepts {k : TableKind} {c : Char} (h : k.accepts c = true) :
    isWordChar c = false := by
  rcases eq_of_accepts h with rfl | rfl <;> rfl

/-! ### Labels -/

theorem label_of_splitLabel (s : Text) : (splitLabel s).1 = [] ∨ IsLabel (splitLabel s).1 := by
  unfold splitLabel
  split
  next s =>
    by_cases hn : (s.takeWhile isWordChar).isEmpty = true
    · simp [hn]
    · right
      simp only [hn, Bool.false_eq_true, ↓reduceIte]
      refine ⟨s.takeWhile isWordChar, rfl, by simpa using hn, ?_⟩
      intro c hc
      exact List.mem_takeWhile_imp hc
  next => exact .inl rfl

theorem splitLabel_of_isLabel {label rest : Text} {b : Char} (h : IsLabel label)
    (hb : isWordChar b = false) : splitLabel (label ++ b :: rest) = (label, b :: rest) := by
  obtain ⟨name, rfl, hne, hw⟩ := h
  simp [splitLabel, Text.takeWhile_append_cons hw hb, Text.dropWhile_append_cons hw hb, hne]

theorem splitLabel_of_ne_slash {b : Char} (hb : b ≠ '/') (rest : Text) :
    splitLabel (b :: rest) = ([], b :: rest) := by
  unfold splitLabel
  split
  next heq => exact absurd (List.cons.inj heq).1 hb
  next => rfl

/-! ### One row -/

/-- What it is for a row to be read at the start of an input: the input is the key, a label if
labels are allowed, a boundary the table accepts, and the rest. -/
structure KeyMatch.Reads (m : KeyMatch) (labels : Bool) (input : Text) : Prop where
  label : m.label = [] ∨ labels = true ∧ IsLabel m.label
  boundary : m.lookup.table.accepts m.boundary = true
  input_eq : input = m.taken ++ m.rest

theorem Lookup.read?_eq_some_iff {l : Lookup} {labels : Bool} {input : Text} {m : KeyMatch} :
    l.read? labels input = some m ↔ m.lookup = l ∧ m.Reads labels input := by
  constructor
  · intro h
    have hin := taken_append_rest h
    obtain ⟨afterKey, -, h⟩ := Option.bind_eq_some_iff.1 h
    have hl : (if labels then splitLabel afterKey else ([], afterKey)).1 = [] ∨ labels = true ∧
        IsLabel (if labels then splitLabel afterKey else ([], afterKey)).1 := by
      cases labels with
      | false => exact .inl rfl
      | true => simpa using label_of_splitLabel afterKey
    generalize (if labels then splitLabel afterKey else ([], afterKey)) = split at h hl
    obtain ⟨label, rest⟩ := split
    cases rest with
    | nil => simp at h
    | cons b rest =>
      by_cases hb : l.table.accepts b = true
      · simp only [hb, ↓reduceIte, Option.some.injEq] at h
        subst h
        exact ⟨rfl, hl, hb, hin.symm⟩
      · simp [hb] at h
  · rintro ⟨rfl, hlabel, hb, rfl⟩
    have hsplit : (if labels then splitLabel (m.label ++ m.boundary :: m.rest)
        else ([], m.label ++ m.boundary :: m.rest)) = (m.label, m.boundary :: m.rest) := by
      have hslash : m.boundary ≠ '/' := by
        rcases TableKind.eq_of_accepts hb with h | h <;> rw [h] <;> decide
      rcases hlabel with h0 | ⟨rfl, h1⟩
      · cases labels with
        | false => simp [h0]
        | true => simpa [h0] using splitLabel_of_ne_slash hslash m.rest
      · exact splitLabel_of_isLabel h1 (TableKind.not_isWordChar_of_accepts hb)
    simp only [read?, KeyMatch.taken, List.append_assoc, List.singleton_append,
      Text.after?_append, Option.bind_eq_bind, Option.bind_some, hsplit, hb, ↓reduceIte]

/-! ### The longest of several -/

theorem longest_eq_none_iff {ms : List KeyMatch} : longest ms = none ↔ ms = [] := by
  cases ms with
  | nil => simp [longest]
  | cons m ms =>
    simp only [longest, reduceCtorEq, iff_false]
    split
    · simp
    · split <;> simp

theorem length_le_of_longest {ms : List KeyMatch} {best : KeyMatch} (h : longest ms = some best) :
    ∀ m ∈ ms, m.lookup.entry.key.length ≤ best.lookup.entry.key.length := by
  induction ms generalizing best with
  | nil => simp
  | cons k ks ih =>
    intro m hm
    simp only [longest] at h
    cases hk : longest ks with
    | none =>
      rw [hk] at h
      rw [longest_eq_none_iff.1 hk] at hm
      cases h
      exact Nat.le_of_eq (by rw [List.mem_singleton.1 hm])
    | some other =>
      simp only [hk] at h
      have hle := ih hk
      rcases List.mem_cons.1 hm with rfl | hm
      · split at h <;> cases h <;> omega
      · have := hle m hm
        split at h <;> cases h <;> omega

theorem Entry.admitted_iff {e : Entry} {classesOnly : Bool} :
    e.admitted classesOnly = true ↔ (classesOnly = true → e.isElement = false) := by
  cases classesOnly <;> simp [admitted]

/-! ### The registry -/

/-- A row of a table stands at the place that is its rank. -/
theorem Table.mem_lookups_iff {t : Table} {l : Lookup} :
    l ∈ t.lookups ↔ t.kind = l.table ∧ t.entries[l.rank]? = some l.entry := by
  simp only [lookups, List.mem_map, Prod.exists, List.mem_zipIdx_iff_getElem?]
  constructor
  · rintro ⟨entry, rank, hentry, rfl⟩
    exact ⟨rfl, hentry⟩
  · rintro ⟨hkind, hentry⟩
    exact ⟨l.entry, l.rank, hentry, by rw [hkind]⟩

theorem Table.table_of_mem_lookups {t : Table} {l : Lookup} (h : l ∈ t.lookups) :
    l.table = t.kind :=
  (mem_lookups_iff.1 h).1.symm

namespace Registry

def lookups : List Lookup := tables.flatMap Table.lookups

theorem lookups_eq : lookups = primary.lookups ++ colonOnly.lookups := by
  simp [lookups, tables]

theorem isWordChar_or_dash_of_mem_key :
    ∀ l ∈ lookups, ∀ c ∈ l.entry.key, isWordChar c = true ∨ c = '-' := by
  have hall : lookups.all (fun l => l.entry.key.all fun c => isWordChar c || c == '-') = true := by
    decide
  intro l hl c hc
  simpa using List.all_eq_true.1 (List.all_eq_true.1 hall l hl) c hc

theorem keys_nodup : (lookups.map (·.entry.key)).Nodup := by decide

theorem dash_notMem_of_mem_colonOnly : ∀ l ∈ colonOnly.lookups, '-' ∉ l.entry.key := by decide

theorem eq_of_key_eq {l k : Lookup} (hl : l ∈ lookups) (hk : k ∈ lookups)
    (h : l.entry.key = k.entry.key) : l = k :=
  List.inj_on_of_nodup_map keys_nodup hl hk h

end Registry

/-- What it is for the registry to read a key: some admitted row of it is read. -/
structure KeyMatch.ReadsRow (m : KeyMatch) (classesOnly labels : Bool) (input : Text) : Prop
    extends m.Reads labels input where
  row : m.lookup ∈ Registry.lookups
  admitted : m.lookup.entry.admitted classesOnly = true

namespace KeyMatch.ReadsRow

variable {m n : KeyMatch} {classesOnly labels : Bool} {input : Text}

/-- Where two keys can be read at the start of one input, the shorter one has a dash behind it,
with which the longer one goes on. -/
theorem dash_of_length_lt (hm : m.ReadsRow classesOnly labels input)
    (hn : n.ReadsRow classesOnly labels input)
    (h : m.lookup.entry.key.length < n.lookup.entry.key.length) :
    m.label = [] ∧ m.boundary = '-' ∧ (m.lookup.entry.key ++ ['-']) <+: n.lookup.entry.key := by
  have heq : m.lookup.entry.key ++ (m.label ++ (m.boundary :: m.rest))
      = n.lookup.entry.key ++ (n.label ++ (n.boundary :: n.rest)) := by
    have := hm.input_eq.symm.trans hn.input_eq
    simpa [taken] using this
  rcases List.append_eq_append_iff.1 heq with ⟨tail, hkey, hrest⟩ | ⟨tail, hkey, -⟩
  · cases tail with
    | nil =>
      rw [hkey, List.append_nil] at h
      exact absurd h (Nat.lt_irrefl _)
    | cons c tail =>
      have hc := Registry.isWordChar_or_dash_of_mem_key n.lookup hn.row c (by simp [hkey])
      rcases hm.label with h0 | ⟨-, name, h1, -, -⟩
      · rw [h0, List.nil_append, List.cons_append] at hrest
        obtain ⟨rfl, -⟩ := List.cons.inj hrest
        rw [TableKind.not_isWordChar_of_accepts hm.boundary] at hc
        have hdash : m.boundary = '-' := by simpa using hc
        exact ⟨h0, hdash, tail, by rw [hkey, hdash, List.append_assoc, List.singleton_append]⟩
      · -- the slash of a label is in no key
        rw [h1, List.cons_append, List.cons_append] at hrest
        obtain ⟨rfl, -⟩ := List.cons.inj hrest
        exact absurd hc (by decide)
  · rw [hkey, List.length_append] at h
    omega

/-- A row is read in one way at most, and keys of one length are one key. -/
theorem eq_of_length_eq (hm : m.ReadsRow classesOnly labels input)
    (hn : n.ReadsRow classesOnly labels input)
    (h : m.lookup.entry.key.length = n.lookup.entry.key.length) : m = n := by
  have hkey : m.lookup.entry.key = n.lookup.entry.key := by
    have := hm.input_eq.symm.trans hn.input_eq
    simp only [taken, List.append_assoc] at this
    exact (List.append_inj this h).1
  have hrow : m.lookup = n.lookup := Registry.eq_of_key_eq hm.row hn.row hkey
  have hread := Lookup.read?_eq_some_iff.2 ⟨rfl, hm.toReads⟩
  rw [hrow, Lookup.read?_eq_some_iff.2 ⟨rfl, hn.toReads⟩] at hread
  exact (Option.some.inj hread).symm

/-- Of two keys that can be read at one place the longer one has more bytes too. -/
theorem byteSize_lt (hm : m.ReadsRow classesOnly labels input)
    (hn : n.ReadsRow classesOnly labels input)
    (h : m.lookup.entry.key.length < n.lookup.entry.key.length) :
    m.lookup.entry.key.byteSize < n.lookup.entry.key.byteSize := by
  obtain ⟨-, -, tail, hkey⟩ := hm.dash_of_length_lt hn h
  have hdash : Text.byteSize ['-'] = 1 := rfl
  rw [← hkey, Text.byteSize_append, Text.byteSize_append, hdash]
  omega

theorem byteSize_taken (hm : m.ReadsRow classesOnly labels input) :
    m.taken.byteSize = m.lookup.entry.key.byteSize + m.label.byteSize + 1 := by
  have hboundary : Text.byteSize [m.boundary] = 1 := by
    rcases TableKind.eq_of_accepts hm.boundary with h | h <;> rw [h] <;> rfl
  rw [taken, Text.byteSize_append, Text.byteSize_append, hboundary, Nat.add_assoc]

theorem length_le_of_colon (hm : m.ReadsRow classesOnly labels input) (hc : m.boundary = ':')
    (hn : n.ReadsRow classesOnly labels input) :
    n.lookup.entry.key.length ≤ m.lookup.entry.key.length := by
  rcases Nat.lt_or_ge m.lookup.entry.key.length n.lookup.entry.key.length with h | h
  · have := (hm.dash_of_length_lt hn h).2.1
    rw [hc] at this
    exact absurd this (by decide)
  · exact h

/-- A key of the colon-only table leaves room for no longer key and for no shorter one. -/
theorem eq_of_colonOnly (hm : m.ReadsRow classesOnly labels input)
    (hc : m.lookup ∈ Registry.colonOnly.lookups) (hn : n.ReadsRow classesOnly labels input) :
    n = m := by
  rcases Nat.lt_trichotomy m.lookup.entry.key.length n.lookup.entry.key.length with h | h | h
  · obtain ⟨-, hdash, -⟩ := hm.dash_of_length_lt hn h
    have hb := hm.boundary
    rw [Table.table_of_mem_lookups hc, hdash] at hb
    exact absurd hb (by decide)
  · exact (hm.eq_of_length_eq hn h).symm
  · obtain ⟨-, -, tail, hkey⟩ := hn.dash_of_length_lt hm h
    exact absurd (by rw [← hkey]; simp) (Registry.dash_notMem_of_mem_colonOnly _ hc)

end KeyMatch.ReadsRow

theorem Table.mem_candidates_iff {t : Table} {classesOnly labels : Bool} {input : Text}
    {m : KeyMatch} :
    m ∈ t.candidates classesOnly labels input ↔
      m.lookup ∈ t.lookups ∧ m.lookup.entry.admitted classesOnly = true ∧ m.Reads labels input := by
  simp only [candidates, List.mem_filterMap, List.mem_filter, Lookup.read?_eq_some_iff]
  constructor
  · rintro ⟨l, ⟨hl, ha⟩, rfl, hr⟩
    exact ⟨hl, ha, hr⟩
  · rintro ⟨hl, ha, hr⟩
    exact ⟨m.lookup, ⟨hl, ha⟩, rfl, hr⟩

namespace Registry

theorem readsRow_iff {m : KeyMatch} {classesOnly labels : Bool} {input : Text} :
    m.ReadsRow classesOnly labels input ↔
      m ∈ primary.candidates classesOnly labels input ∨
        m ∈ colonOnly.candidates classesOnly labels input := by
  rw [Table.mem_candidates_iff, Table.mem_candidates_iff, ← or_and_right, ← List.mem_append,
    ← lookups_eq]
  constructor
  · intro h
    exact ⟨h.row, h.admitted, h.toReads⟩
  · rintro ⟨hrow, hadm, hr⟩
    exact ⟨hr, hrow, hadm⟩

variable {classesOnly labels : Bool} {input : Text}

theorem readsRow_of_matchKey? {m : KeyMatch} (h : matchKey? classesOnly labels input = some m) :
    m.ReadsRow classesOnly labels input := by
  rw [readsRow_iff]
  rcases Option.or_eq_some_iff.1 h with h | ⟨-, h⟩
  · exact .inl (mem_of_longest h)
  · exact .inr (mem_of_longest h)

theorem length_le_of_matchKey? {m : KeyMatch} (h : matchKey? classesOnly labels input = some m)
    {n : KeyMatch} (hn : n.ReadsRow classesOnly labels input) :
    n.lookup.entry.key.length ≤ m.lookup.entry.key.length := by
  have hm := readsRow_of_matchKey? h
  rcases Option.or_eq_some_iff.1 h with h | ⟨hnone, h⟩
  · rcases readsRow_iff.1 hn with hp | hc
    · exact length_le_of_longest h n hp
    · -- the tables are not compared with each other: a colon-only key excludes any other
      rw [hn.eq_of_colonOnly (Table.mem_candidates_iff.1 hc).1 hm]
  · rcases readsRow_iff.1 hn with hp | hc
    · rw [longest_eq_none_iff.1 hnone] at hp
      exact absurd hp List.not_mem_nil
    · exact length_le_of_longest h n hc

theorem matchKey?_eq_none_iff :
    matchKey? classesOnly labels input = none ↔
      ∀ m : KeyMatch, ¬ m.ReadsRow classesOnly labels input := by
  rw [matchKey?, Option.or_eq_none_iff, Table.matchKey?, Table.matchKey?, longest_eq_none_iff,
    longest_eq_none_iff]
  simp only [List.eq_nil_iff_forall_not_mem, readsRow_iff, not_or, forall_and]

/-- The registry reads a key iff one can be read, and reads the longest. -/
theorem matchKey?_eq_some_iff {m : KeyMatch} :
    matchKey? classesOnly labels input = some m ↔
      m.ReadsRow classesOnly labels input ∧
        ∀ n : KeyMatch, n.ReadsRow classesOnly labels input →
          n.lookup.entry.key.length ≤ m.lookup.entry.key.length := by
  constructor
  · intro h
    exact ⟨readsRow_of_matchKey? h, fun n hn => length_le_of_matchKey? h hn⟩
  · rintro ⟨hm, hmax⟩
    cases h : matchKey? classesOnly labels input with
    | none => exact absurd hm (matchKey?_eq_none_iff.1 h m)
    | some n =>
      have hn := readsRow_of_matchKey? h
      have hlen := Nat.le_antisymm (length_le_of_matchKey? h hm) (hmax n hn)
      rw [hm.eq_of_length_eq hn hlen]

/-- Where a key can be read one is read; with a colon behind it, it is this very one, whatever
follows the colon. -/
theorem exists_matchKey?_of_readsRow {m : KeyMatch} (hm : m.ReadsRow classesOnly labels input) :
    ∃ found, matchKey? classesOnly labels input = some found ∧
      (m.boundary = ':' → found = m) := by
  cases h : matchKey? classesOnly labels input with
  | none => exact absurd hm (matchKey?_eq_none_iff.1 h m)
  | some found =>
    refine ⟨found, rfl, fun hc => ?_⟩
    rw [matchKey?_eq_some_iff.2 ⟨hm, fun _ hn => hm.length_le_of_colon hc hn⟩] at h
    exact (Option.some.inj h).symm

/-- A row is in one of the tables, at the place that is its rank. -/
theorem mem_lookups_iff {l : Lookup} :
    l ∈ lookups ↔ ∃ t ∈ tables, t.kind = l.table ∧ t.entries[l.rank]? = some l.entry := by
  simp only [lookups, List.mem_flatMap, Table.mem_lookups_iff]

/-- What there is to be read, apart from how it is found: an admitted key of one of the tables, an
optional label and a boundary that the table accepts. -/
theorem exists_readsRow_iff :
    (∃ m : KeyMatch, m.ReadsRow classesOnly labels input) ↔
      ∃ t ∈ tables, ∃ e ∈ t.entries, (classesOnly = true → e.isElement = false) ∧
        ∃ (label : Text) (boundary : Char) (rest : Text),
          (label = [] ∨ labels = true ∧ IsLabel label) ∧ t.kind.accepts boundary = true ∧
            input = e.key ++ (label ++ boundary :: rest) := by
  constructor
  · rintro ⟨m, hm⟩
    obtain ⟨t, ht, hkind, hentry⟩ := mem_lookups_iff.1 hm.row
    exact ⟨t, ht, m.lookup.entry, List.mem_of_getElem? hentry, Entry.admitted_iff.1 hm.admitted,
      m.label, m.boundary, m.rest, hm.label, hkind ▸ hm.boundary,
      by simpa [KeyMatch.taken] using hm.input_eq⟩
  · rintro ⟨t, ht, e, he, hclass, label, boundary, rest, hlabel, haccepts, rfl⟩
    obtain ⟨rank, hrank⟩ := List.mem_iff_getElem?.1 he
    refine ⟨⟨⟨e, t.kind, rank⟩, label, boundary, rest⟩, ⟨hlabel, haccepts, ?_⟩,
      mem_lookups_iff.2 ⟨t, ht, rfl, hrank⟩, Entry.admitted_iff.2 hclass⟩
    simp [KeyMatch.taken]

/-- The tables do not compete: where a key of the colon-only table can be read, no other can. -/
theorem matchKey?_eq_none_or (classesOnly labels : Bool) (input : Text) :
    primary.matchKey? classesOnly labels input = none ∨
      colonOnly.matchKey? classesOnly labels input = none := by
  cases hp : primary.matchKey? classesOnly labels input with
  | none => exact .inl rfl
  | some m =>
    cases hc : colonOnly.matchKey? classesOnly labels input with
    | none => exact .inr rfl
    | some n =>
      have hm := readsRow_iff.2 (.inl (mem_of_longest hp))
      have hn := readsRow_iff.2 (.inr (mem_of_longest hc))
      have hprimary := (Table.mem_candidates_iff.1 (mem_of_longest hp)).1
      have hcolon := (Table.mem_candidates_iff.1 (mem_of_longest hc)).1
      rw [hn.eq_of_colonOnly hcolon hm] at hprimary
      have htable := Table.table_of_mem_lookups hprimary
      rw [Table.table_of_mem_lookups hcolon] at htable
      exact absurd htable (by decide)

/-- The registry reads a key wherever there is one to be read, in whichever table; it reads the
longest, with its table, its rank and its label, and counts the bytes up to the boundary; and which
table is tried first does not matter. -/
theorem matchKey?_longest (classesOnly labels : Bool) (input : Text) :
    ((matchKey? classesOnly labels input).isSome = true ↔
      ∃ t ∈ tables, ∃ e ∈ t.entries, (classesOnly = true → e.isElement = false) ∧
        ∃ (label : Text) (boundary : Char) (rest : Text),
          (label = [] ∨ labels = true ∧ IsLabel label) ∧ t.kind.accepts boundary = true ∧
            input = e.key ++ (label ++ boundary :: rest)) ∧
    (∀ m : KeyMatch, matchKey? classesOnly labels input = some m ↔
      m.ReadsRow classesOnly labels input ∧
        ∀ n : KeyMatch, n.ReadsRow classesOnly labels input →
          n = m ∨ n.lookup.entry.key.byteSize < m.lookup.entry.key.byteSize) ∧
    (∀ m : KeyMatch, matchKey? classesOnly labels input = some m →
      (∃ t ∈ tables, t.kind = m.lookup.table ∧
        t.entries[m.lookup.rank]? = some m.lookup.entry) ∧
      m.taken.byteSize = m.lookup.entry.key.byteSize + m.label.byteSize + 1 ∧
      input.cut? m.taken.byteSize = some (m.taken, m.rest)) ∧
    (primary.matchKey? classesOnly labels input = none ∨
      colonOnly.matchKey? classesOnly labels input = none) := by
  refine ⟨?_, ?_, ?_, matchKey?_eq_none_or classesOnly labels input⟩
  · rw [← exists_readsRow_iff, Option.isSome_iff_ne_none, ne_eq, matchKey?_eq_none_iff]
    simp only [not_forall, not_not]
  · intro m
    rw [matchKey?_eq_some_iff]
    refine and_congr_right fun hm => forall₂_congr fun n hn => ?_
    constructor
    · intro hle
      rcases Nat.lt_or_eq_of_le hle with hlt | heq
      · exact .inr (hn.byteSize_lt hm hlt)
      · exact .inl (hn.eq_of_length_eq hm heq)
    · rintro (rfl | hlt)
      · exact Nat.le_refl _
      · by_contra hle
        have := hm.byteSize_lt hn (Nat.not_le.1 hle)
        omega
  · intro m hm
    have hread := readsRow_of_matchKey? hm
    refine ⟨mem_lookups_iff.1 hread.row, hread.byteSize_taken, ?_⟩
    rw [Text.cut?_eq_some_iff]
    exact ⟨hread.input_eq, rfl⟩

end Registry

end VariantSelector.Pseudo
