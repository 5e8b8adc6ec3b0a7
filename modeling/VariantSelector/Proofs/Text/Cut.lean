import VariantSelector.Text.Basic
import Mathlib.Data.List.TakeWhile

/-!
Cutting texts: behind a number of bytes, and in front of the first character of a kind.
-/

namespace VariantSelector.Text

/-! ### Behind a number of bytes -/

/-- Cuts a text behind its first `n` bytes; there is no such cut inside a character. -/
def cut? : Nat → Text → Option (Text × Text)
  | 0, s => some ([], s)
  | _ + 1, [] => none
  | n + 1, c :: s =>
    if c.utf8Size ≤ n + 1 then (cut? (n + 1 - c.utf8Size) s).map fun (p, r) => (c :: p, r)
    else none

theorem cut?_byteSize_append (p r : Text) : cut? (byteSize p) (p ++ r) = some (p, r) := by
  induction p with
  | nil => simp [cut?]
  | cons c p ih =>
    obtain ⟨n, hn⟩ : ∃ n, c.utf8Size + byteSize p = n + 1 :=
      ⟨c.utf8Size + byteSize p - 1, by have := c.utf8Size_pos; omega⟩
    have hrest : n + 1 - c.utf8Size = byteSize p := by omega
    rw [byteSize_cons, hn, List.cons_append, cut?, if_pos (by omega), hrest, ih]
    rfl

theorem eq_append_of_cut? {n : Nat} {s p r : Text} (h : cut? n s = some (p, r)) :
    s = p ++ r ∧ byteSize p = n := by
  fun_induction cut? n s generalizing p r with
  | case1 s =>
    cases h
    exact ⟨rfl, rfl⟩
  | case2 => cases h
  | case3 n c s hc ih =>
    obtain ⟨⟨q, r'⟩, hq, heq⟩ := Option.map_eq_some_iff.1 h
    cases heq
    obtain ⟨rfl, hsize⟩ := ih hq
    exact ⟨rfl, by rw [byteSize_cons, hsize]; omega⟩
  | case4 => cases h

theorem cut?_eq_some_iff {n : Nat} {s p r : Text} :
    cut? n s = some (p, r) ↔ s = p ++ r ∧ p.byteSize = n := by
  constructor
  · exact eq_append_of_cut?
  · rintro ⟨rfl, rfl⟩
    exact cut?_byteSize_append p r

/-! ### In front of a kind of character -/

theorem takeWhile_append_cons {f : Char → Bool} {s rest : Text} {c : Char}
    (hs : ∀ d ∈ s, f d = true) (hc : f c = false) : (s ++ c :: rest).takeWhile f = s := by
  rw [List.takeWhile_append_of_pos hs, List.takeWhile_cons_of_neg (by simp [hc]), List.append_nil]

theorem dropWhile_append_cons {f : Char → Bool} {s rest : Text} {c : Char}
    (hs : ∀ d ∈ s, f d = true) (hc : f c = false) :
    (s ++ c :: rest).dropWhile f = c :: rest := by
  rw [List.dropWhile_append_of_pos hs, List.dropWhile_cons_of_neg (by simp [hc])]

/-- What is behind a cut has no say in what is in front of it. -/
theorem takeWhile_append_cons_of_neg {f : Char → Bool} {c : Char} (s rest : Text)
    (hc : f c = false) : (s ++ c :: rest).takeWhile f = s.takeWhile f := by
  induction s with
  | nil => simp [hc]
  | cons d s ih => simp only [List.cons_append, List.takeWhile_cons, ih]

end VariantSelector.Text
