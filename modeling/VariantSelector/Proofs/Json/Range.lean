import VariantSelector.Json.Outline

/-!
The range of numbers. A number without a fraction and an exponent is an integer where 64 bits hold
it (`Numeral.outline?_of_integer?`). Any other number is a double, and there is none for it only
where scaling its digits by their power of ten overflows (`Numeral.outline?_eq_none_iff`).
-/

namespace VariantSelector.Json.Numeral

/-! ### Digits -/

/-- A number with digits written behind it. -/
def appendValue (n : Nat) (digits : Text) : Nat :=
  digits.foldl (fun n c => 10 * n + (c.toNat - '0'.toNat)) n

theorem le_appendValue (n : Nat) (digits : Text) : n ≤ appendValue n digits := by
  induction digits generalizing n with
  | nil => exact Nat.le_refl n
  | cons c rest ih =>
    have hnext := ih (10 * n + (c.toNat - '0'.toNat))
    show n ≤ appendValue (10 * n + (c.toNat - '0'.toNat)) rest
    omega

/-- All digits are kept if the number is small enough. -/
theorem appendDigits_of_le {n : Nat} {digits : Text}
    (h : appendValue n digits ≤ maxSignificand) :
    appendDigits n digits = (appendValue n digits, []) := by
  induction digits generalizing n with
  | nil => rfl
  | cons c rest ih =>
    have hnext := le_appendValue (10 * n + (c.toNat - '0'.toNat)) rest
    rw [appendDigits, if_pos (Nat.le_trans hnext h)]
    exact ih h

/-- Digits are left over if the number is too large. -/
theorem leftOver_of_lt {n : Nat} {digits : Text} (hn : n ≤ maxSignificand)
    (h : maxSignificand < appendValue n digits) : (appendDigits n digits).2 ≠ [] := by
  induction digits generalizing n with
  | nil => exact absurd hn (Nat.not_le.2 h)
  | cons c rest ih =>
    rw [appendDigits]
    by_cases hnext : 10 * n + (c.toNat - '0'.toNat) ≤ maxSignificand
    · rw [if_pos hnext]
      exact ih hnext h
    · rw [if_neg hnext]
      exact List.cons_ne_nil c rest

/-! ### Values -/

/-- The integer that a number is, if 64 bits hold it. Minus zero is none. -/
def integer? (n : Numeral) : Option Int :=
  let value := decimalValue n.whole
  if n.fraction = [] ∧ n.exponent = [] then
    if n.negative then
      if 0 < value ∧ value ≤ Nat.pow 2 63 then some (-value) else none
    else
      if value < Nat.pow 2 64 then some value else none
  else none

/-- The digits of a number that fit 64 bits, and the power of ten that they are scaled by. -/
def scientific (n : Numeral) : Nat × Int :=
  let (significand, extra) := appendDigits 0 n.whole
  let (significand, dropped) := appendDigits significand n.fraction
  let shift : Int := extra.length - (n.fraction.length - dropped.length)
  let exponent : Int := decimalValue n.exponent
  (significand, if n.exponentNegative then shift - exponent else shift + exponent)

/-- Where 64 bits hold all digits, the point is moved behind the last of them. -/
theorem scientific_of_le {n : Numeral}
    (h : decimalValue (n.whole ++ n.fraction) ≤ maxSignificand) :
    n.scientific = (decimalValue (n.whole ++ n.fraction),
      (if n.exponentNegative then -(decimalValue n.exponent : Int) else decimalValue n.exponent)
        - n.fraction.length) := by
  have hsplit : decimalValue (n.whole ++ n.fraction)
      = appendValue (decimalValue n.whole) n.fraction := List.foldl_append
  have hfraction : appendDigits (decimalValue n.whole) n.fraction
      = (decimalValue (n.whole ++ n.fraction), []) := by
    rw [hsplit] at h ⊢
    exact appendDigits_of_le h
  have hwhole : appendDigits 0 n.whole = (decimalValue n.whole, []) :=
    appendDigits_of_le (Nat.le_trans (le_appendValue _ n.fraction) (hsplit ▸ h))
  simp only [scientific, hwhole, hfraction, List.length_nil, Prod.mk.injEq, true_and]
  split <;> omega

/-- A significand scaled by a power of ten is out of the range of doubles. There is no power of ten
above the 308th, and nothing but zero can be scaled by more. Dividing never leaves the range. -/
def Overflows (significand : Nat) : Int → Prop
  | .ofNat e =>
    if e ≤ 308 then (significand.toUInt64.toFloat * powerOfTen e).isInf = true
    else (significand.toUInt64.toFloat == 0) = false
  | .negSucc _ => False

theorem double?_eq_none_iff {negative : Bool} {significand : Nat} {exponent : Int} :
    double? negative significand exponent = none ↔ Overflows significand exponent := by
  rw [double?, Option.map_eq_none_iff]
  cases exponent with
  | negSucc e => simp [scale?, Overflows]
  | ofNat e =>
    by_cases he : e ≤ 308
    · simp [scale?, Overflows, he]
    · simp [scale?, Overflows, he]

/-- A number with a fraction, an exponent or digits left over is a double. -/
theorem value?_of_not_plain {n : Numeral}
    (h : ¬ (n.fraction = [] ∧ n.exponent = [] ∧ (appendDigits 0 n.whole).2 = [])) :
    n.value? = double? n.negative n.scientific.1 n.scientific.2 := by
  unfold value? scientific
  generalize appendDigits 0 n.whole = kept at h
  obtain ⟨significand, extra⟩ := kept
  exact if_neg (by simpa [and_assoc] using h)

/-- A number without a fraction and an exponent whose digits are all kept is an integer, unless it
is negative and zero or too small. -/
theorem value?_of_plain {n : Numeral} (hfraction : n.fraction = []) (hexponent : n.exponent = [])
    (hle : decimalValue n.whole ≤ maxSignificand) :
    n.value? =
      if n.negative = true ∧ (decimalValue n.whole = 0 ∨ Nat.pow 2 63 < decimalValue n.whole) then
        double? n.negative n.scientific.1 n.scientific.2
      else some (.integer (if n.negative then -decimalValue n.whole else decimalValue n.whole)) := by
  have hkept : appendDigits 0 n.whole = (decimalValue n.whole, []) := appendDigits_of_le hle
  have hall : decimalValue (n.whole ++ n.fraction) ≤ maxSignificand := by
    rwa [hfraction, List.append_nil]
  have hscientific : n.scientific = (decimalValue n.whole, 0) := by
    rw [scientific_of_le hall, hfraction, hexponent, List.append_nil]
    simp [decimalValue]
  rw [hscientific, value?, hkept]
  cases n.negative <;> simp [hfraction, hexponent]

/-- A number is an integer, or a double. -/
theorem value?_eq (n : Numeral) :
    n.value? =
      match n.integer? with
      | some i => some (.integer i)
      | none => double? n.negative n.scientific.1 n.scientific.2 := by
  by_cases hplain : n.fraction = [] ∧ n.exponent = []
  · by_cases hle : decimalValue n.whole ≤ maxSignificand
    · have hlt : decimalValue n.whole < Nat.pow 2 64 := Nat.lt_of_le_of_lt hle (by decide)
      rw [value?_of_plain hplain.1 hplain.2 hle, integer?, if_pos hplain]
      cases n.negative with
      | false => simp [hlt]
      | true =>
        by_cases hrange : 0 < decimalValue n.whole ∧ decimalValue n.whole ≤ Nat.pow 2 63
        · have hinside : ¬ (decimalValue n.whole = 0 ∨ Nat.pow 2 63 < decimalValue n.whole) := by
            omega
          rw [if_neg fun h => hinside h.2]
          simp [hrange]
        · have houtside : decimalValue n.whole = 0 ∨ Nat.pow 2 63 < decimalValue n.whole := by
            omega
          rw [if_pos ⟨rfl, houtside⟩]
          simp [hrange]
    · have hextra := leftOver_of_lt (Nat.zero_le maxSignificand) (Nat.not_le.1 hle)
      have hlarge : n.integer? = none := by
        have hmax : maxSignificand = Nat.pow 2 64 - 1 := rfl
        have hpow : Nat.pow 2 64 = 2 * Nat.pow 2 63 := rfl
        have h63 : ¬ decimalValue n.whole ≤ Nat.pow 2 63 := by omega
        have h64 : ¬ decimalValue n.whole < Nat.pow 2 64 := by omega
        simp [integer?, h63, h64]
      rw [value?_of_not_plain fun h => hextra h.2.2, hlarge]
  · have hnone : n.integer? = none := if_neg hplain
    rw [value?_of_not_plain fun h => hplain ⟨h.1, h.2.1⟩, hnone]

theorem outline?_of_integer? {n : Numeral} {i : Int} (h : n.integer? = some i) :
    n.outline? = some (.integer i) := by
  rw [outline?, value?_eq, h]
  rfl

theorem outline?_eq_none_iff {n : Numeral} :
    n.outline? = none ↔ n.integer? = none ∧ Overflows n.scientific.1 n.scientific.2 := by
  rw [outline?, Option.map_eq_none_iff, value?_eq]
  cases hi : n.integer? with
  | none => simp [double?_eq_none_iff]
  | some i => simp

end VariantSelector.Json.Numeral
