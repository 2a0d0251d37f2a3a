import Marktex.Decimal.Binary64

/-!
# Shortest decimals

The decimal with the fewest digits that still rounds to a given number. The decimals that round to a
number are those of an interval around it. For one digit, two digits and so on, the two decimals next
to the number are tried; the first that lies in the interval wins, and of two the nearer one.
-/

namespace Marktex.Decimal

/-- A positive number with the decimals that round to it, as multiples of one unit: the number is
`4 * significand` units, `below` is the distance to the lower end of the interval and 2 the distance to
the upper end. -/
structure Interval where
  /-- The number of units that make up the number. -/
  value : Nat
  /-- The distance to the lower end. -/
  below : Nat
  /-- Whether the ends belong to the interval. -/
  closed : Bool
  /-- The unit as a fraction: its numerator. -/
  numerator : Nat
  /-- The unit as a fraction: its denominator. -/
  denominator : Nat
  deriving DecidableEq, Repr

namespace Interval

/-- The interval of the number `significand * 2 ^ exponent`. -/
def ofParts (significand : Nat) (exponent : Int) : Interval :=
  let power := exponent - 2
  let below := if significand = Nat.pow 2 52 ∧ exponent > Binary64.leastExponent then 1 else 2
  ⟨4 * significand, below, significand % 2 = 0,
    if power < 0 then 1 else Nat.pow 2 power.natAbs,
    if power < 0 then Nat.pow 2 power.natAbs else 1⟩

/-- How many units make up `count * 10 ^ power`, as a numerator over the denominator that
`common` gives. -/
def ofGrid (i : Interval) (count : Nat) (power : Int) : Nat :=
  count * (if power < 0 then 1 else Nat.pow 10 power.natAbs) * i.denominator

/-- `units` units, over the same denominator as `ofGrid`. -/
def common (i : Interval) (units : Nat) (power : Int) : Nat :=
  units * i.numerator * (if power < 0 then Nat.pow 10 power.natAbs else 1)

/-- Whether `count * 10 ^ power` lies in the interval. -/
def holds (i : Interval) (count : Nat) (power : Int) : Bool :=
  let point := i.ofGrid count power
  let low := i.common (i.value - i.below) power
  let high := i.common (i.value + 2) power
  if i.closed then low ≤ point && point ≤ high else low < point && point < high

/-- The power of ten just above the number. -/
def magnitude (i : Interval) : Int :=
  let whole := i.value * i.numerator / i.denominator
  if whole = 0 then
    let digits := (Nat.toDigits 10 (i.denominator / (i.value * i.numerator))).length
    let power : Int := 1 - digits
    if i.common i.value power ≥ i.ofGrid 1 power then power + 1 else power
  else (Nat.toDigits 10 whole).length

/-- The count of steps of `10 ^ power` that rounds to the number, if one of the two next to the number
does. -/
def onGrid? (i : Interval) (power : Int) : Option Nat :=
  let exact := i.common i.value power
  let step := i.ofGrid 1 power
  let lower := exact / step
  let twice := 2 * (exact % step)
  let nearer := if twice > step ∨ (twice = step ∧ lower % 2 = 1) then lower + 1 else lower
  let other := if nearer = lower then lower + 1 else lower
  if i.holds nearer power then some nearer
  else if i.holds other power then some other
  else none

/-- The first grid, from `digits` digits on, that has a decimal which rounds to the number. -/
def search (i : Interval) : Nat → Nat → Nat × Int
  | 0, digits => (i.common i.value 0 / i.ofGrid 1 0, digits)
  | fuel + 1, digits =>
    let power := i.magnitude - digits
    match i.onGrid? power with
    | some count => (count, power)
    | none => search i fuel (digits + 1)

end Interval

/-- The digits of the shortest decimal that rounds to `significand * 2 ^ exponent`, and the place of
the point: how many digits stand before it. The significand must not be zero. -/
def shortest (significand : Nat) (exponent : Int) : Text × Int :=
  let (count, power) := (Interval.ofParts significand exponent).search 17 1
  let digits := Nat.toDigits 10 count
  (Text.dropEndWhile (· == '0') digits, digits.length + power)

/-- Decimals are written with a point if it stands at most this many digits to the right. -/
def greatestPoint : Int := 16

/-- Decimals are written with a point if it stands at most this many zeros to the left. -/
def leastPoint : Int := -3

/-- A decimal with the given digits and place of the point: plain if the point is near, otherwise with
a power of ten of at least two digits. -/
def written (digits : Text) (point : Int) : Text :=
  if point > greatestPoint ∨ point < leastPoint then
    let power := point - 1
    let size := Nat.toDigits 10 power.natAbs
    digits.take 1 ++ (if digits.length > 1 then '.' :: digits.drop 1 else []) ++
      'e' :: (if power < 0 then '-' else '+') :: List.replicate (2 - size.length) '0' ++ size
  else if point ≤ 0 then '0' :: '.' :: List.replicate point.natAbs '0' ++ digits
  else
    let whole := digits.take point.natAbs
    let fraction := digits.drop point.natAbs
    whole ++ List.replicate (point.natAbs - whole.length) '0' ++
      '.' :: (if fraction.isEmpty then ['0'] else fraction)

end Decimal

namespace Binary64

/-- The shortest text that reads back as the number. -/
def toText : Binary64 → Text
  | .undefined => "nan".toList
  | .infinite negative => if negative then "-inf".toList else "inf".toList
  | .finite negative significand exponent =>
    let (digits, point) :=
      if significand = 0 then (['0'], 1) else Decimal.shortest significand exponent
    (if negative then ['-'] else []) ++ Decimal.written digits point

end Binary64

end Marktex
