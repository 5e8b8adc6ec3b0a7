import VariantSelector.Proofs.Pseudo.Index

/-!
Two ways to a row of the registry: looking up a key that is given, and reading one at the start of
an input. In front of a colon they come to the same row, or both to none
(`Registry.lookup?_agrees`).
-/

namespace VariantSelector.Pseudo.Registry

/-! ### Looking up -/

theorem lookup?_eq_some_iff {key : Text} {l : Lookup} :
    lookup? key = some l ↔ l ∈ lookups ∧ l.entry.key = key := by
  have hsound {found : Lookup} (h : lookup? key = some found) :
      found ∈ lookups ∧ found.entry.key = key := by
    rw [lookups_eq, List.mem_append]
    rcases Option.or_eq_some_iff.1 h with h | ⟨-, h⟩
    · exact (Table.get?_eq_some_iff.1 h).imp .inl id
    · exact (Table.get?_eq_some_iff.1 h).imp .inr id
  refine ⟨hsound, ?_⟩
  rintro ⟨hl, rfl⟩
  cases h : lookup? l.entry.key with
  | none =>
    obtain ⟨hprimary, hcolon⟩ := Option.or_eq_none_iff.1 h
    rw [lookups_eq, List.mem_append] at hl
    rcases hl with hl | hl
    · rw [Table.get?_eq_some_iff.2 ⟨hl, rfl⟩] at hprimary
      cases hprimary
    · rw [Table.get?_eq_some_iff.2 ⟨hl, rfl⟩] at hcolon
      cases hcolon
  | some found =>
    obtain ⟨hfound, hkey⟩ := hsound h
    rw [eq_of_key_eq hfound hl hkey]

theorem isSome_lookup?_iff {key : Text} :
    (lookup? key).isSome = true ↔ ∃ t ∈ tables, ∃ e ∈ t.entries, e.key = key := by
  simp only [Option.isSome_iff_exists, lookup?_eq_some_iff, mem_lookups_iff]
  constructor
  · rintro ⟨l, ⟨t, ht, -, hentry⟩, hkey⟩
    exact ⟨t, ht, l.entry, List.mem_of_getElem? hentry, hkey⟩
  · rintro ⟨t, ht, e, he, hkey⟩
    obtain ⟨rank, hrank⟩ := List.mem_iff_getElem?.1 he
    exact ⟨⟨e, t.kind, rank⟩, ⟨t, ht, rfl, hrank⟩, hkey⟩

/-- The rank of a key is the only place in its table where it stands. -/
theorem exists_table_of_lookup? {key : Text} {l : Lookup} (h : lookup? key = some l) :
    ∃ t ∈ tables, t.kind = l.table ∧
      ∀ (i : Nat) (e : Entry), t.entries[i]? = some e ∧ e.key = key ↔ i = l.rank ∧ e = l.entry := by
  obtain ⟨hl, rfl⟩ := lookup?_eq_some_iff.1 h
  obtain ⟨t, ht, hkind, hentry⟩ := mem_lookups_iff.1 hl
  refine ⟨t, ht, hkind, fun i e => ?_⟩
  constructor
  · rintro ⟨he, hkey⟩
    have hrow : (⟨e, t.kind, i⟩ : Lookup) ∈ lookups := mem_lookups_iff.2 ⟨t, ht, rfl, he⟩
    rw [← eq_of_key_eq hrow hl hkey]
    exact ⟨rfl, rfl⟩
  · rintro ⟨rfl, rfl⟩
    exact ⟨hentry, rfl⟩

/-- The indexes of the tables, asked in order, find what a search of the rows finds. -/
theorem findSome?_index_eq (key : Text) :
    (tables.findSome? fun t => (Index.ofRows t.entries).get? t.kind key) = lookup? key := by
  simp only [tables, Index.get?_eq, Index.table_ofRows, List.findSome?_cons, List.findSome?_nil,
    lookup?]
  cases primary.get? key <;> cases colonOnly.get? key <;> rfl

/-! ### Reading in front of a colon -/

theorem byteSize_colon (key : Text) : (key ++ [':']).byteSize = key.byteSize + 1 :=
  Text.byteSize_append key [':']

variable {classesOnly labels : Bool} {key rest : Text}

theorem matchKey?_of_lookup? {l : Lookup} (h : lookup? key = some l)
    (hadmitted : l.entry.admitted classesOnly = true) :
    matchKey? classesOnly labels (key ++ ':' :: rest) = some ⟨l, [], ':', rest⟩ := by
  obtain ⟨hl, rfl⟩ := lookup?_eq_some_iff.1 h
  have hread : (⟨l, [], ':', rest⟩ : KeyMatch).ReadsRow classesOnly labels
      (l.entry.key ++ ':' :: rest) :=
    { label := .inl rfl
      boundary := TableKind.accepts_colon _
      input_eq := by simp [KeyMatch.taken]
      row := hl
      admitted := hadmitted }
  obtain ⟨found, hfound, heq⟩ := exists_matchKey?_of_readsRow hread
  rw [hfound, heq rfl]

/-- What takes as many bytes as a key and its colon takes just these, and has the row of the key. -/
theorem lookup?_of_matchKey? {m : KeyMatch}
    (h : matchKey? classesOnly false (key ++ ':' :: rest) = some m)
    (hsize : m.taken.byteSize = key.byteSize + 1) :
    lookup? key = some m.lookup ∧ m.taken = key ++ [':'] ∧ m.rest = rest := by
  have hread := readsRow_of_matchKey? h
  have hcolon : (key ++ ':' :: rest).cut? (key.byteSize + 1) = some (key ++ [':'], rest) :=
    Text.cut?_eq_some_iff.2 ⟨by simp, byteSize_colon key⟩
  have hmatch := Text.cut?_eq_some_iff.2 ⟨hread.input_eq, hsize⟩
  obtain ⟨htaken, hrest⟩ := Prod.mk.inj (Option.some.inj (hmatch.symm.trans hcolon))
  have hlabel : m.label = [] := by simpa using hread.label
  have hkey : m.lookup.entry.key = key := by
    rw [KeyMatch.taken, hlabel, List.nil_append] at htaken
    exact List.append_inj_left' htaken rfl
  exact ⟨lookup?_eq_some_iff.2 ⟨hread.row, hkey⟩, htaken, hrest⟩

/-- Looking a key up, by the indexes of the tables or by a search of their rows, finds it iff a
table holds it. That is so iff a reader of the key with a colon behind it takes just these two, and
then both find the same row, whatever follows; a reader of pseudo-classes does so unless the row is
a pseudo-element. A key without a row is taken for a pseudo-class of that name and has no rank, and
a row gives its fragment and the only place where its table holds the key. -/
theorem lookup?_agrees (key rest : Text) :
    (tables.findSome? fun t => (Index.ofRows t.entries).get? t.kind key) = lookup? key ∧
    ((lookup? key).isSome = true ↔ ∃ t ∈ tables, ∃ e ∈ t.entries, e.key = key) ∧
    (∀ classesOnly : Bool,
      (∃ m, matchKey? classesOnly false (key ++ ':' :: rest) = some m ∧
        m.taken.byteSize = key.byteSize + 1) ↔
      ∃ l, lookup? key = some l ∧ (classesOnly = true → l.entry.isElement = false)) ∧
    (∀ (classesOnly : Bool) (m : KeyMatch),
      matchKey? classesOnly false (key ++ ':' :: rest) = some m →
      m.taken.byteSize = key.byteSize + 1 →
      lookup? key = some m.lookup ∧ m.taken = key ++ [':'] ∧ m.rest = rest) ∧
    (lookup? key = none → fragment key = ':' :: key ∧ rank? key = none) ∧
    ∀ l : Lookup, lookup? key = some l →
      fragment key = l.entry.fragment ∧ rank? key = some l.rank ∧
      ∃ t ∈ tables, t.kind = l.table ∧
        ∀ (i : Nat) (e : Entry),
          t.entries[i]? = some e ∧ e.key = key ↔ i = l.rank ∧ e = l.entry := by
  refine ⟨findSome?_index_eq key, isSome_lookup?_iff, ?_, ?_, ?_, ?_⟩
  · intro classesOnly
    constructor
    · rintro ⟨m, h, hsize⟩
      have hadmitted := (readsRow_of_matchKey? h).admitted
      exact ⟨m.lookup, (lookup?_of_matchKey? h hsize).1, Entry.admitted_iff.1 hadmitted⟩
    · rintro ⟨l, h, hclass⟩
      refine ⟨_, matchKey?_of_lookup? h (Entry.admitted_iff.2 hclass), ?_⟩
      rw [KeyMatch.taken, List.nil_append, (lookup?_eq_some_iff.1 h).2, byteSize_colon]
  · intro classesOnly m h hsize
    exact lookup?_of_matchKey? h hsize
  · intro h
    exact ⟨by rw [fragment, h], by rw [rank?, h, Option.map_none]⟩
  · intro l h
    exact ⟨by rw [fragment, h], by rw [rank?, h, Option.map_some], exists_table_of_lookup? h⟩

end VariantSelector.Pseudo.Registry
