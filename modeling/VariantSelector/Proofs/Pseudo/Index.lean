import VariantSelector.Proofs.Pseudo.LongestKey
import Mathlib.Data.List.Induction

/-!
Tables with an index. The rows of a table are declared one after another, and an index keeps the
place of each key, so that a row is found without a search. A key that is declared again keeps its
place and takes the new row (`Index.map_key_ofRows`, `Index.mem_entries_ofRows`). What the index
finds is what a search of the rows finds (`Index.get?_eq`), and declaring the rows of a table builds
that table again (`Index.table_ofRows`).
-/

namespace VariantSelector.Pseudo

/-! ### The row of a key -/

namespace Table

theorem map_key_lookups (t : Table) :
    t.lookups.map (·.entry.key) = t.entries.map Entry.key := by
  conv_rhs => rw [← List.zipIdx_map_fst 0 t.entries, List.map_map]
  rw [lookups, List.map_map]
  rfl

theorem get?_eq_some_iff {t : Table} {key : Text} {l : Lookup} :
    t.get? key = some l ↔ l ∈ t.lookups ∧ l.entry.key = key := by
  constructor
  · intro h
    exact ⟨List.mem_of_find?_eq_some h, by simpa using List.find?_some h⟩
  · rintro ⟨hl, rfl⟩
    cases h : t.get? l.entry.key with
    | none =>
      have hnone := List.find?_eq_none.1 h l hl
      simp at hnone
    | some found =>
      have hkey : found.entry.key = l.entry.key := by simpa using List.find?_some h
      have hnodup : (t.lookups.map (·.entry.key)).Nodup := t.map_key_lookups ▸ t.keys_nodup
      rw [List.inj_on_of_nodup_map hnodup (List.mem_of_find?_eq_some h) hl hkey]

end Table

/-! ### Rows with an index -/

/-- Keys are hashed as the strings that they are. -/
local instance : Hashable Text := ⟨fun key => hash (String.ofList key)⟩

/-- Rows and, for each of their keys, its place among them. -/
structure Index where
  entries : List Entry
  ranks : Std.HashMap Text Nat
  ranks_eq_some_iff (key : Text) (rank : Nat) :
    ranks[key]? = some rank ↔ (entries.map Entry.key)[rank]? = some key

namespace Index

def empty : Index where
  entries := []
  ranks := ∅
  ranks_eq_some_iff := by simp

theorem ranks_eq_none_iff (x : Index) (key : Text) :
    x.ranks[key]? = none ↔ key ∉ x.entries.map Entry.key := by
  rw [List.mem_iff_getElem?, Option.eq_none_iff_forall_ne_some, not_exists]
  exact forall_congr' fun rank => not_congr (x.ranks_eq_some_iff key rank)

theorem ranks_of_getElem? (x : Index) {rank : Nat} {e : Entry} (h : x.entries[rank]? = some e) :
    x.ranks[e.key]? = some rank := by
  rw [x.ranks_eq_some_iff, List.getElem?_map, h, Option.map_some]

/-- Places are told apart by their keys. -/
theorem rank_eq_iff (x : Index) {key : Text} {rank i : Nat} {e : Entry}
    (hrank : x.ranks[key]? = some rank) (he : x.entries[i]? = some e) : rank = i ↔ key = e.key := by
  have hi := x.ranks_of_getElem? he
  constructor
  · rintro rfl
    rw [x.ranks_eq_some_iff] at hrank hi
    exact Option.some.inj (hrank.symm.trans hi)
  · rintro rfl
    exact Option.some.inj (hrank.symm.trans hi)

theorem map_key_set {x : Index} {e : Entry} {rank : Nat} (h : x.ranks[e.key]? = some rank) :
    (x.entries.set rank e).map Entry.key = x.entries.map Entry.key := by
  obtain ⟨hrank, hkey⟩ := List.getElem?_eq_some_iff.1 ((x.ranks_eq_some_iff _ _).1 h)
  rw [List.map_set, ← hkey, List.set_getElem_self]

/-- Puts a row in the place of the one that has its key. -/
def replace (x : Index) (e : Entry) (rank : Nat) (h : x.ranks[e.key]? = some rank) : Index where
  entries := x.entries.set rank e
  ranks := x.ranks
  ranks_eq_some_iff key i := by rw [map_key_set h, x.ranks_eq_some_iff]

/-- Puts a row with a new key behind the others. -/
def append (x : Index) (e : Entry) (h : x.ranks[e.key]? = none) : Index where
  entries := x.entries ++ [e]
  ranks := x.ranks.insert e.key x.entries.length
  ranks_eq_some_iff key i := by
    have hconcat : ((x.entries ++ [e]).map Entry.key)[i]? = some key ↔
        (x.entries.map Entry.key)[i]? = some key ∨ i = x.entries.length ∧ e.key = key := by
      grind
    rw [Std.HashMap.getElem?_insert, hconcat, ← x.ranks_eq_some_iff]
    by_cases hkey : e.key = key
    · subst hkey
      simp [h, eq_comm]
    · simp [hkey]

/-- Declares a row: the first row of a key fixes its place, and a later one stands there instead. -/
def declare (x : Index) (e : Entry) : Index :=
  match h : x.ranks[e.key]? with
  | some rank => x.replace e rank h
  | none => x.append e h

/-- Declares rows one after another. -/
def ofRows (rows : List Entry) : Index := rows.foldl declare empty

theorem keys_nodup (x : Index) : (x.entries.map Entry.key).Nodup := by
  rw [List.nodup_iff_getElem?_ne_getElem?]
  intro i j hij hj heq
  -- both places would be the one place of that key
  have hi := (x.ranks_eq_some_iff _ _).2 (heq.trans (List.getElem?_eq_getElem hj))
  have hj := (x.ranks_eq_some_iff _ _).2 (List.getElem?_eq_getElem hj)
  rw [hi] at hj
  exact Nat.ne_of_lt hij (Option.some.inj hj)

/-- The table of the rows. -/
def table (x : Index) (kind : TableKind) : Table := ⟨kind, x.entries, x.keys_nodup⟩

/-- The row of `key`, found by its place. -/
def get? (x : Index) (kind : TableKind) (key : Text) : Option Lookup := do
  let rank ← x.ranks[key]?
  let entry ← x.entries[rank]?
  return ⟨entry, kind, rank⟩

/-! ### Declared rows -/

/-- What declaring a row does to the rows. -/
theorem entries_declare (x : Index) (e : Entry) :
    (e.key ∉ x.entries.map Entry.key ∧ (x.declare e).entries = x.entries ++ [e]) ∨
      ∃ rank, x.ranks[e.key]? = some rank ∧ (x.declare e).entries = x.entries.set rank e := by
  rw [declare]
  split
  next rank h => exact .inr ⟨rank, h, rfl⟩
  next h => exact .inl ⟨(x.ranks_eq_none_iff _).1 h, rfl⟩

theorem ofRows_concat (rows : List Entry) (e : Entry) :
    ofRows (rows ++ [e]) = (ofRows rows).declare e := by
  rw [ofRows, List.foldl_concat]
  rfl

theorem map_key_declare (x : Index) (e : Entry) :
    (x.declare e).entries.map Entry.key =
      if e.key ∈ x.entries.map Entry.key then x.entries.map Entry.key
      else x.entries.map Entry.key ++ [e.key] := by
  rcases x.entries_declare e with ⟨hnew, h⟩ | ⟨rank, hrank, h⟩
  · rw [h, if_neg hnew, List.map_append, List.map_singleton]
  · have hmem := List.mem_of_getElem? ((x.ranks_eq_some_iff _ _).1 hrank)
    rw [h, map_key_set hrank, if_pos hmem]

theorem mem_entries_declare {x : Index} {e d : Entry} :
    d ∈ (x.declare e).entries ↔ d = e ∨ e.key ≠ d.key ∧ d ∈ x.entries := by
  rcases x.entries_declare e with ⟨hnew, h⟩ | ⟨rank, hrank, h⟩
  · have hother : d ∈ x.entries → e.key ≠ d.key := fun hd heq =>
      hnew (heq ▸ List.mem_map_of_mem hd)
    rw [h, List.mem_append, List.mem_singleton]
    tauto
  · obtain ⟨hlt, -⟩ := List.getElem?_eq_some_iff.1 ((x.ranks_eq_some_iff _ _).1 hrank)
    rw [List.length_map] at hlt
    rw [h, List.mem_iff_getElem?]
    constructor
    · rintro ⟨i, hi⟩
      rw [List.getElem?_set, if_pos hlt] at hi
      split at hi
      · exact .inl (Option.some.inj hi).symm
      · rename_i hne
        exact .inr ⟨mt (x.rank_eq_iff hrank hi).2 hne, List.mem_of_getElem? hi⟩
    · rintro (rfl | ⟨hne, hd⟩)
      · exact ⟨rank, List.getElem?_set_self hlt⟩
      · obtain ⟨i, hi⟩ := List.mem_iff_getElem?.1 hd
        exact ⟨i, by rw [List.getElem?_set_ne (mt (x.rank_eq_iff hrank hi).1 hne), hi]⟩

theorem eraseDups_concat (keys : List Text) (key : Text) :
    (keys ++ [key]).eraseDups =
      if key ∈ keys then keys.eraseDups else keys.eraseDups ++ [key] := by
  rw [List.eraseDups_append]
  by_cases h : key ∈ keys <;> simp [h, List.removeAll, List.eraseDups_cons]

theorem eraseDups_of_nodup {keys : List Text} (h : keys.Nodup) : keys.eraseDups = keys := by
  induction keys using List.reverseRecOn with
  | nil => rfl
  | append_singleton keys key ih =>
    obtain ⟨hkeys, -, hnew⟩ := List.nodup_append.1 h
    have hkey : key ∉ keys := fun hmem => hnew key hmem key (List.mem_singleton_self key) rfl
    rw [eraseDups_concat, if_neg hkey, ih hkeys]

/-- Keys stand in the order in which they were first declared. -/
theorem map_key_ofRows (rows : List Entry) :
    (ofRows rows).entries.map Entry.key = (rows.map Entry.key).eraseDups := by
  induction rows using List.reverseRecOn with
  | nil => rfl
  | append_singleton rows e ih =>
    rw [ofRows_concat, map_key_declare, ih, List.map_append, List.map_singleton, eraseDups_concat]
    simp only [List.mem_eraseDups]

/-- Each key has the row that was declared for it last. -/
theorem mem_entries_ofRows {rows : List Entry} {e : Entry} :
    e ∈ (ofRows rows).entries ↔ rows.reverse.find? (·.key = e.key) = some e := by
  induction rows using List.reverseRecOn with
  | nil => simp [ofRows, empty]
  | append_singleton rows d ih =>
    rw [ofRows_concat, mem_entries_declare, ih, List.reverse_append, List.reverse_singleton,
      List.singleton_append, List.find?_cons]
    by_cases h : d.key = e.key
    · simp [h, eq_comm]
    · have hne : e ≠ d := fun heq => h (by rw [heq])
      simp [h, hne]

/-- Rows with different keys stand as they were declared. -/
theorem entries_ofRows_of_nodup {rows : List Entry} (h : (rows.map Entry.key).Nodup) :
    (ofRows rows).entries = rows := by
  have hkeys : (ofRows rows).entries.map Entry.key = rows.map Entry.key := by
    rw [map_key_ofRows, eraseDups_of_nodup h]
  have hmem (e : Entry) (he : e ∈ (ofRows rows).entries) : e ∈ rows := by
    simpa using List.mem_of_find?_eq_some (mem_entries_ofRows.1 he)
  refine List.ext_getElem (by simpa using congrArg List.length hkeys) fun i hi hi' => ?_
  have hkey : (ofRows rows).entries[i].key = rows[i].key := by
    have hplace : ((ofRows rows).entries.map Entry.key)[i]? = (rows.map Entry.key)[i]? := by
      rw [hkeys]
    rw [List.getElem?_map, List.getElem?_map, List.getElem?_eq_getElem hi,
      List.getElem?_eq_getElem hi'] at hplace
    exact Option.some.inj hplace
  exact List.inj_on_of_nodup_map h (hmem _ (List.getElem_mem hi)) (List.getElem_mem hi') hkey

/-- Declaring the rows of a table builds that table. -/
theorem table_ofRows (t : Table) : (ofRows t.entries).table t.kind = t := by
  rw [table]
  congr
  exact entries_ofRows_of_nodup t.keys_nodup

/-! ### Found by the index -/

theorem get?_eq_some_iff {x : Index} {kind : TableKind} {key : Text} {l : Lookup} :
    x.get? kind key = some l ↔ l ∈ (x.table kind).lookups ∧ l.entry.key = key := by
  rw [Table.mem_lookups_iff]
  change _ ↔ (kind = l.table ∧ x.entries[l.rank]? = some l.entry) ∧ _
  constructor
  · intro h
    obtain ⟨rank, hrank, h⟩ := Option.bind_eq_some_iff.1 h
    obtain ⟨entry, hentry, h⟩ := Option.bind_eq_some_iff.1 h
    cases h
    exact ⟨⟨rfl, hentry⟩, ((x.rank_eq_iff hrank hentry).1 rfl).symm⟩
  · rintro ⟨⟨hkind, hentry⟩, rfl⟩
    simp [get?, x.ranks_of_getElem? hentry, hentry, hkind]

/-- The index finds what a search of the rows finds. -/
theorem get?_eq (x : Index) (kind : TableKind) (key : Text) :
    x.get? kind key = (x.table kind).get? key :=
  Option.ext fun _ => get?_eq_some_iff.trans Table.get?_eq_some_iff.symm

end Index

end VariantSelector.Pseudo
