/-!
Text and its measure. Every size this library reports counts the bytes of the UTF-8 form, so a
piece that is cut off a text is kept as a piece of text and measured only where a number is asked
for: a cut can then never fall inside a character.
-/

namespace VariantSelector

/-- A sequence of Unicode scalar values. -/
abbrev Text := List Char

namespace Text

/-- Bytes of the UTF-8 form. -/
def byteSize : Text → Nat
  | [] => 0
  | c :: rest => c.utf8Size + byteSize rest

@[simp] theorem byteSize_nil : byteSize [] = 0 := rfl

@[simp] theorem byteSize_cons (c : Char) (s : Text) :
    byteSize (c :: s) = c.utf8Size + byteSize s := rfl

@[simp] theorem byteSize_append (s t : Text) : byteSize (s ++ t) = byteSize s + byteSize t := by
  induction s with
  | nil => simp
  | cons c s ih => simp only [List.cons_append, byteSize_cons, ih]; omega

theorem byteSize_pos {s : Text} (h : s ≠ []) : 0 < byteSize s := by
  cases s with
  | nil => exact absurd rfl h
  | cons c s => have := c.utf8Size_pos; simp only [byteSize_cons]; omega

/-- What follows `lead` in a text that begins with it. -/
def after? : Text → Text → Option Text
  | [], s => some s
  | _ :: _, [] => none
  | c :: lead, d :: s => if c = d then after? lead s else none

@[simp] theorem after?_append (lead s : Text) : after? lead (lead ++ s) = some s := by
  induction lead with
  | nil => rfl
  | cons c lead ih => simp [after?, ih]

theorem eq_append_of_after? {lead s rest : Text} (h : after? lead s = some rest) :
    s = lead ++ rest := by
  induction lead generalizing s with
  | nil => simpa [after?] using h
  | cons c lead ih =>
    cases s with
    | nil => simp [after?] at h
    | cons d s =>
      by_cases hcd : c = d
      · subst hcd
        simp only [after?, ↓reduceIte] at h
        rw [ih h, List.cons_append]
      · simp [after?, hcd] at h

theorem after?_eq_some_iff {lead s rest : Text} :
    after? lead s = some rest ↔ s = lead ++ rest :=
  ⟨eq_append_of_after?, fun h => h ▸ after?_append lead rest⟩

/-- Works through a text in which the first `pending` characters belong to an occurrence that has
been replaced already. -/
def replaceFrom (old new : Text) : Nat → Text → Text
  | _, [] => []
  | pending + 1, _ :: s => replaceFrom old new pending s
  | 0, c :: s =>
    if old.isPrefixOf (c :: s) then
      new ++ replaceFrom old new (old.length - 1) s
    else
      c :: replaceFrom old new 0 s

/-- Replaces every occurrence of `old`, found from left to right and without overlap. The empty
text occurs nowhere. -/
def replaceAll (old new s : Text) : Text :=
  if old.isEmpty then s else replaceFrom old new 0 s

@[simp] theorem replaceAll_nil_old (new s : Text) : replaceAll [] new s = s := rfl

@[simp] theorem replaceAll_nil (old new : Text) : replaceAll old new [] = [] := by
  simp [replaceAll, replaceFrom]

end Text

end VariantSelector
