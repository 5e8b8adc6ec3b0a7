import VariantSelector.Text.Basic

/-!
Reading a JSON number character by character, and its value.

The value is exact for integers of 64 bits. Any other number is a double: the leading digits that
fit 64 bits, scaled by a power of ten.
-/

namespace VariantSelector.Json

/-- How far the reading of a number has come, named by what was read last. -/
inductive NumeralStage
  | sign
  | zero
  | whole
  | point
  | fraction
  | exponentMark
  | exponentSign
  | exponent
  deriving DecidableEq, Repr

/-- A number as it is written. -/
structure Numeral where
  negative : Bool := false
  /-- Digits in front of the point. -/
  whole : Text := []
  /-- Digits behind the point. -/
  fraction : Text := []
  exponentNegative : Bool := false
  exponent : Text := []
  stage : NumeralStage
  deriving DecidableEq, Repr

namespace Numeral

/-- The number that begins with `c`, which is a sign or a digit. -/
def start (c : Char) : Numeral :=
  if c = '-' then { negative := true, stage := .sign }
  else { whole := [c], stage := if c = '0' then .zero else .whole }

/-- Whether the number could end here. -/
def isComplete (n : Numeral) : Bool :=
  match n.stage with
  | .zero | .whole | .fraction | .exponent => true
  | .sign | .point | .exponentMark | .exponentSign => false

/-- Whether the number ends in front of `c`. Nothing but a fraction or an exponent may follow a
leading zero. -/
def endsBefore (n : Numeral) (c : Char) : Bool :=
  n.isComplete && !(n.stage = .zero && c.isDigit)

/-- Takes in `c` if the number goes on with it. -/
def feed? (n : Numeral) (c : Char) : Option Numeral :=
  let isMark := c = 'e' || c = 'E'
  match n.stage with
  | .sign =>
    if c = '0' then some { n with whole := [c], stage := .zero }
    else if c.isDigit then some { n with whole := [c], stage := .whole }
    else none
  | .zero =>
    if c = '.' then some { n with stage := .point }
    else if isMark then some { n with stage := .exponentMark }
    else none
  | .whole =>
    if c.isDigit then some { n with whole := n.whole ++ [c] }
    else if c = '.' then some { n with stage := .point }
    else if isMark then some { n with stage := .exponentMark }
    else none
  | .point | .fraction =>
    if c.isDigit then some { n with fraction := n.fraction ++ [c], stage := .fraction }
    else if isMark && n.stage = .fraction then some { n with stage := .exponentMark }
    else none
  | .exponentMark =>
    if c = '+' || c = '-' then
      some { n with exponentNegative := c = '-', stage := .exponentSign }
    else if c.isDigit then some { n with exponent := [c], stage := .exponent }
    else none
  | .exponentSign | .exponent =>
    if c.isDigit then some { n with exponent := n.exponent ++ [c], stage := .exponent } else none

/-! ### Value -/

/-- The value of a number. -/
inductive Value
  | integer (n : Int)
  | floating (x : Float)
  deriving Repr

/-- The largest significand that is kept exactly. -/
def maxSignificand : Nat := Nat.pow 2 64 - 1

/-- Appends digits to a significand for as long as it does not become too large; the digits from
there on are left over. -/
def appendDigits (significand : Nat) : Text → Nat × Text
  | [] => (significand, [])
  | c :: rest =>
    let next := 10 * significand + (c.toNat - '0'.toNat)
    if next ≤ maxSignificand then appendDigits next rest else (significand, c :: rest)

/-- The number written by decimal digits. -/
def decimalValue (digits : Text) : Nat :=
  digits.foldl (fun n c => 10 * n + (c.toNat - '0'.toNat)) 0

/-- A power of ten as a double. -/
def powerOfTen (e : Nat) : Float := Float.ofScientific 1 false e

/-- Divides by a power of ten, in steps that are powers of ten themselves. -/
def divideByPower (x : Float) (e : Nat) : Float :=
  if e ≤ 308 then x / powerOfTen e
  else if x == 0 then x
  else divideByPower (x / powerOfTen 308) (e - 308)
termination_by e

/-- Multiplies by a power of ten; the result must not be infinite. -/
def scale? (x : Float) : Int → Option Float
  | .ofNat e =>
    if e ≤ 308 then
      let scaled := x * powerOfTen e
      if scaled.isInf then none else some scaled
    else if x == 0 then some x
    else none
  | .negSucc e => some (divideByPower x (e + 1))

/-- The double of a significand and a decimal exponent. -/
def double? (negative : Bool) (significand : Nat) (exponent : Int) : Option Value :=
  (scale? significand.toUInt64.toFloat exponent).map fun x =>
    .floating (if negative then -x else x)

/-- The value of a complete number, if it is in range. Minus zero and the integers that 64 bits do
not hold are doubles. -/
def value? (n : Numeral) : Option Value :=
  let (significand, extra) := appendDigits 0 n.whole
  if n.fraction.isEmpty && n.exponent.isEmpty && extra.isEmpty then
    if !n.negative then some (.integer significand)
    else if significand = 0 || Nat.pow 2 63 < significand then double? true significand 0
    else some (.integer (-significand))
  else
    let (significand, dropped) := appendDigits significand n.fraction
    let shift : Int := extra.length - (n.fraction.length - dropped.length)
    let exponent : Int := decimalValue n.exponent
    double? n.negative significand
      (if n.exponentNegative then shift - exponent else shift + exponent)

end Numeral

end VariantSelector.Json
