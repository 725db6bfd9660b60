/-!
# Numbers of double precision

Numbers of 53 significant bits, as exact rationals. Every such number is a whole multiple of the
least one, `2 ^ -1074`, so rounding is done on natural numbers: count in units of the least number,
drop all but 53 bits, and round what is dropped to the nearest, a half to the even neighbour.

* `Binary64.round`: the number nearest to a rational. There is no upper end.
* `Binary64.bits`: the 64-bit word of a number.
-/

namespace Garage.Binary64

/-- The quotient of two natural numbers, rounded to the nearest, a half to the even neighbour. -/
def roundDiv (n d : Nat) : Nat :=
  let q := n / d
  let r := n % d
  if 2 * r < d then q
  else if d < 2 * r then q + 1
  else q + q % 2

def onePlace : Nat := 1074

/-- The number of units of the least number in one. -/
def unitsPerOne : Nat := 1 <<< onePlace

/-- The number of bits past the first 53; none for a number of no more bits than that. -/
def excessBits (units : Nat) : Nat := units.log2 - 52

/-- The fraction `n / d` in units of the least number, rounded to 53 significant bits. -/
def roundUnits (n d : Nat) : Nat :=
  let n := n <<< onePlace
  let excess := excessBits (n / d)
  roundDiv n (d <<< excess) <<< excess

/-- The number of double precision that is nearest to a rational, a tie to the even one. -/
def round (x : Rat) : Rat :=
  mkRat (x.num.sign * roundUnits x.num.natAbs x.den) unitsPerOne

/-- The word of a number: sign, eleven bits of exponent, 52 bits of fraction. The leading bit of the
significand is not stored but counted into the exponent. Zero has no sign. -/
def bits (x : Rat) : UInt64 :=
  let units := (x.num.natAbs <<< onePlace) / x.den
  let excess := excessBits units
  let magnitude := excess <<< 52 + units >>> excess
  UInt64.ofNat (if x.num < 0 then 1 <<< 63 + magnitude else magnitude)

end Garage.Binary64
