import VariantSelector.Text.Basic

/-!
The text of a double: the fewest decimal digits that read back as it, and of those the nearest to
it. Zero and values from `1e-5` to below `1e16` are written with a point and at least one digit
behind it, all others with a signed exponent: `1e-6`, `1e+16`.

Apart from taking a double apart, everything is exact arithmetic on natural numbers.
-/

namespace VariantSelector.Decimal

/-- A positive double, `mantissa * 2 ^ exponent`, and whether the gap below it is half the gap above
it. -/
structure Binary where
  mantissa : Nat
  exponent : Int
  narrowBelow : Bool
  deriving DecidableEq, Repr

/-- Takes apart the bits of a finite double; the sign is left out. -/
def Binary.ofBits (bits : Nat) : Binary :=
  let fraction : Nat := bits % Nat.pow 2 52
  let biased : Nat := bits / Nat.pow 2 52 % Nat.pow 2 11
  if biased = 0 then ⟨fraction, -1074, false⟩
  else ⟨Nat.pow 2 52 + fraction, (biased : Int) - 1075, fraction = 0 && 1 < biased⟩

/-- The numbers that round to a double, in units of `1 / denominator`: they lie between `low` and
`high`, and the ends belong to them iff `closed`. -/
structure Interval where
  low : Nat
  value : Nat
  high : Nat
  denominator : Nat
  closed : Bool
  deriving DecidableEq, Repr

/-- The interval of a double: half the gap to each neighbour. The ends round to even mantissas. -/
def Binary.interval (b : Binary) : Interval :=
  let numerator := Nat.pow 2 (b.exponent - 2).toNat
  { low := (4 * b.mantissa - if b.narrowBelow then 1 else 2) * numerator
    value := 4 * b.mantissa * numerator
    high := (4 * b.mantissa + 2) * numerator
    denominator := Nat.pow 2 (2 - b.exponent).toNat
    closed := b.mantissa % 2 = 0 }

/-- Whether `n * 10 ^ place` lies in the interval. -/
def Interval.contains (i : Interval) (n : Nat) (place : Int) : Bool :=
  let point := n * Nat.pow 10 place.toNat * i.denominator
  let down := Nat.pow 10 (-place).toNat
  if i.closed then i.low * down ≤ point && point ≤ i.high * down
  else i.low * down < point && point < i.high * down

/-- The multiple of `10 ^ place` in the interval that is nearest to the value, divided by
`10 ^ place`. Between two that are equally near, the even one is taken. -/
def Interval.nearest? (i : Interval) (place : Int) : Option Nat :=
  let unit := Nat.pow 10 place.toNat * i.denominator
  let value := i.value * Nat.pow 10 (-place).toNat
  let below := value / unit
  let rest := value % unit
  match i.contains below place && below ≠ 0, i.contains (below + 1) place with
  | true, true =>
    some (if 2 * rest < unit || (2 * rest = unit && below % 2 = 0) then below else below + 1)
  | true, false => some below
  | false, true => some (below + 1)
  | false, false => none

/-- Looks for a multiple of a power of ten in the interval, from `place` downwards. -/
def Interval.search (i : Interval) (place : Int) : Nat → Nat × Int
  | 0 => (0, 0)
  | fuel + 1 =>
    match i.nearest? place with
    | some n => (n, place)
    | none => i.search (place - 1) fuel

/-- The place of the highest decimal digit of a positive fraction lies at or below this one. -/
def Interval.topPlace (i : Interval) : Int :=
  (Nat.toDigits 10 i.value).length - (Nat.toDigits 10 i.denominator).length + 1

/-- Takes the zeros off the end of a number and counts them. -/
def dropZeros (n : Nat) : Nat → Nat × Nat
  | 0 => (n, 0)
  | fuel + 1 =>
    if n ≠ 0 && n % 10 = 0 then
      let (m, k) := dropZeros (n / 10) fuel
      (m, k + 1)
    else (n, 0)

/-- The shortest digits of a positive double and the place of the last one. -/
def Binary.shortest (b : Binary) : Text × Int :=
  let i := b.interval
  let (n, place) := i.search i.topPlace 20
  let (n, zeros) := dropZeros n 20
  (Nat.toDigits 10 n, place + zeros)

/-- Writes digits, the last of which has the given place. -/
def write (digits : Text) (place : Int) : Text :=
  let point : Int := digits.length + place
  if 0 ≤ place && point ≤ 16 then digits ++ (List.replicate place.toNat '0' ++ ".0".toList)
  else if 0 < point && point ≤ 16 then
    digits.take point.toNat ++ ('.' :: digits.drop point.toNat)
  else if -5 < point && point ≤ 0 then
    "0.".toList ++ (List.replicate (-point).toNat '0' ++ digits)
  else
    let exponent := point - 1
    let mark := 'e' :: (if exponent < 0 then '-' else '+') :: Nat.toDigits 10 exponent.natAbs
    match digits with
    | [] => mark
    | [d] => d :: mark
    | d :: rest => d :: '.' :: (rest ++ mark)

/-- The text of a finite double. -/
def ofFloat (x : Float) : Text :=
  let bits := x.toBits.toNat
  let sign := if bits < Nat.pow 2 63 then [] else ['-']
  let b := Binary.ofBits bits
  if b.mantissa = 0 then sign ++ "0.0".toList
  else
    let (digits, place) := b.shortest
    sign ++ write digits place

end VariantSelector.Decimal
