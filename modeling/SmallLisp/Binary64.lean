/-!
# `SmallLisp.Binary64` — floats as exact numbers

A finite float is a whole number of units, a unit being a power of two: `mantissa x * 2 ^ exponent x`.
In the other direction `nearest` gives the float nearest to a quotient of natural numbers, a half going to
the even neighbour. Both work on the bit pattern in exact arithmetic, so nothing here rounds except where
it says so.

## Contents
* **Taking apart.** `isNegative`, `magnitude`, `mantissa`, `exponent`.
* **Rounding.** `divRound`, `floorLog2`, `nearestMagnitude`, `nearest`.
* **Integers as floats.** `ofInteger`.
-/

namespace SmallLisp.Binary64

/-! ## Taking apart -/

/-- Whether the sign bit of a float is set, which it is for `-0.0` too. -/
def isNegative (x : Float) : Bool := decide (1 <<< 63 ≤ x.toBits.toNat)

/-- The bit pattern of a float without its sign bit. -/
def magnitude (x : Float) : Nat := x.toBits.toNat % (1 <<< 63)

/-- The magnitude of infinity; every finite float has a smaller one. -/
def infinityMagnitude : Nat := 2047 <<< 52

/-- Whether a float is a number other than an infinity. -/
def isFinite (x : Float) : Bool := decide (magnitude x < infinityMagnitude)

/-- How many units a finite float is away from zero. -/
def mantissa (x : Float) : Nat :=
  if magnitude x < 1 <<< 52 then magnitude x else magnitude x % (1 <<< 52) + (1 <<< 52)

/-- The binary exponent of the unit of a finite float. -/
def exponent (x : Float) : Int :=
  if magnitude x < 1 <<< 52 then -1074 else (magnitude x >>> 52 : Nat) - 1075

/-! ## Rounding -/

/-- The quotient rounded to the nearest natural number, a half going to the even one. -/
def divRound (num den : Nat) : Nat :=
  let low := num / den
  let twice := 2 * (num % den)
  if twice < den then low
  else if den < twice then low + 1
  else low + low % 2

/-- The quotient `num / den` in units of `2 ^ e`, as a numerator and a denominator. -/
def inUnits (num den : Nat) (e : Int) : Nat × Nat := (num <<< (-e).toNat, den <<< e.toNat)

/-- The greatest `l` with `2 ^ l ≤ num / den`, for positive numbers. -/
def floorLog2 (num den : Nat) : Int :=
  let guess : Int := (num.log2 : Int) - den.log2
  let scaled := inUnits num den guess
  if scaled.2 ≤ scaled.1 then guess else guess - 1

/-- The exponent of the unit in which the nearest float to `num / den` is a whole number: fifty-three
significant bits, and never below the smallest unit there is. -/
def unitExponent (num den : Nat) : Int := max (-1074) (floorLog2 num den - 52)

/-- The magnitude of the float nearest to `num / den`.

The bit pattern of a positive float grows by one from each float to the next, so the rounded number of units
is added to the pattern where its unit starts; a carry into the next unit comes out right by itself, and
what lies past the greatest finite float is infinity. -/
def nearestMagnitude (num den : Nat) : Nat :=
  if num = 0 then 0
  else
    let e := unitExponent num den
    let scaled := inUnits num den e
    -- With the smallest unit the first summand is zero, and the pattern is the number of units itself.
    min infinityMagnitude ((e + 1074).toNat <<< 52 + divRound scaled.1 scaled.2)

/-- The float with a given sign and magnitude. -/
def ofMagnitude (negative : Bool) (magnitude : Nat) : Float :=
  Float.ofBits (UInt64.ofNat (if negative then 1 <<< 63 + magnitude else magnitude))

/-- The float nearest to `num / den`, or to its opposite. -/
def nearest (negative : Bool) (num den : Nat) : Float :=
  ofMagnitude negative (nearestMagnitude num den)

/-! ## Integers as floats -/

/-- The float nearest to an integer. -/
def ofInteger (n : Int64) : Float := nearest (decide (n < 0)) n.toInt.natAbs 1

end SmallLisp.Binary64
