import SmallLisp.Binary64

/-!
# `SmallLisp.Numeral.Write` — the texts of numbers

An integer is written with its decimal digits. A finite float is written positionally and always with a
point: a whole one with all its digits and `.0`, any other with the fewest decimals that read back as the
same float.

## Contents
* **Digits.** `naturalChars`, `naturalText`, `fixedDigits`, `pointed`.
* **Integers.** `integerText`.
* **The fewest decimals.** `neighbour?`, `fewestDecimals`.
* **Floats.** `floatText`.
-/

namespace SmallLisp.Numeral

/-! ## Digits -/

/-- The decimal digits of a natural number, at least one. -/
def naturalChars (n : Nat) : List Char := Nat.toDigits 10 n

/-- The text of a natural number. -/
def naturalText (n : Nat) : String := String.ofList (naturalChars n)

/-- The last `k` decimal digits of a natural number, with leading zeros. -/
def fixedDigits : Nat → Nat → List Char
  | 0, _     => []
  | k + 1, n => fixedDigits k (n / 10) ++ [Nat.digitChar (n % 10)]

/-- The number `d / 10 ^ k` with exactly `k` digits after the point. -/
def pointed (d k : Nat) : List Char := naturalChars (d / Nat.pow 10 k) ++ '.' :: fixedDigits k d

/-! ## Integers -/

/-- The characters of an integer. -/
def integerChars (n : Int) : List Char := if n < 0 then '-' :: naturalChars n.natAbs else naturalChars n.natAbs

/-- The text of an integer. -/
def integerText (n : Int64) : String := String.ofList (integerChars n.toInt)

/-! ## The fewest decimals -/

/-- Of the two numbers with `k` decimals next to `num / den`, one that reads back as the float of magnitude
`target`: the nearer one if it does, and of two equally near the greater. -/
def neighbour? (target num den k : Nat) : Option Nat :=
  let low := num * Nat.pow 10 k / den
  let twice := 2 * (num * Nat.pow 10 k % den)
  -- With `twice = den` both are equally near, and the greater one is tried first.
  let near := if twice < den then low else low + 1
  let far := if twice < den then low + 1 else low
  if Binary64.nearestMagnitude near (Nat.pow 10 k) = target then some near
  else if Binary64.nearestMagnitude far (Nat.pow 10 k) = target then some far
  else none

/-- The number with the fewest decimals, `k` or more, that reads back as the float of magnitude `target`
and value `num / den`: its digits and the number of decimals.

After `steps` more decimals the search stops at `num / den` itself, cut to that many. -/
def fewestDecimals (target num den : Nat) : Nat → Nat → Nat × Nat
  | 0, k         => (num * Nat.pow 10 k / den, k)
  | steps + 1, k =>
    match neighbour? target num den k with
    | some d => (d, k)
    | none   => fewestDecimals target num den steps (k + 1)

/-! ## Floats -/

/-- The digits of a finite float without its sign, and how many of them are decimals.

A float with the unit `2 ^ (-k)` has at most `k` decimals, so a search up to `k` decimals ends at the
float's own value at the latest. -/
def floatDigits (x : Float) : Nat × Nat :=
  let m := Binary64.mantissa x
  let e := Binary64.exponent x
  let den := 1 <<< (-e).toNat
  -- A whole number has one decimal all the same, a zero.
  if m <<< e.toNat % den = 0 then (m <<< e.toNat / den * 10, 1)
  else fewestDecimals (Binary64.magnitude x) m den ((-e).toNat - 1) 1

/-- The characters of a float without its sign. -/
def unsignedChars (x : Float) : List Char :=
  if Binary64.isFinite x then pointed (floatDigits x).1 (floatDigits x).2
  else ['i', 'n', 'f']

/-- The characters of a float. -/
def floatChars (x : Float) : List Char :=
  if x.isNaN then ['N', 'a', 'N']
  else if Binary64.isNegative x then '-' :: unsignedChars x
  else unsignedChars x

/-- The text of a float. -/
def floatText (x : Float) : String := String.ofList (floatChars x)

end SmallLisp.Numeral
