import SmallLisp.Binary64

/-!
# `SmallLisp.Numeral.Read` — the numbers that a text can spell

An integer is an optional sign and decimal digits, within sixty-four bits. A decimal is an optional sign,
digits, an optional point with more digits, and an optional exponent; it stands for the nearest float.

## Contents
* **Signs and digits.** `splitSign`, `digitRun`, `natural?`, `signed?`.
* **Integers.** `Integer.ofInt?` (the range check) and `integer?`.
* **Decimals.** `Decimal`, `Decimal.ofChars?`, `Decimal.toFloat`, `float?`.
-/

namespace SmallLisp

/-- The integer as a sixty-four bit word, if it fits into one. -/
def Integer.ofInt? (n : Int) : Option Int64 :=
  if Int64.minValue.toInt ≤ n ∧ n ≤ Int64.maxValue.toInt then some (Int64.ofInt n) else none

theorem Integer.toInt_of_ofInt? {n : Int} {w : Int64} (h : Integer.ofInt? n = some w) : w.toInt = n := by
  unfold Integer.ofInt? at h
  split at h
  · rename_i hr
    cases h
    exact Int64.toInt_ofInt_of_le hr.1 (Int.lt_of_le_sub_one hr.2)
  · cases h

namespace Numeral

/-! ## Signs and digits -/

/-- Takes a sign off a text, if it has one; the answer says whether it is a minus. -/
def splitSign : List Char → Bool × List Char
  | '-' :: cs => (true, cs)
  | '+' :: cs => (false, cs)
  | cs        => (false, cs)

/-- The digits that a text starts with, and the rest. -/
def digitRun (cs : List Char) : List Char × List Char := (cs.takeWhile Char.isDigit, cs.dropWhile Char.isDigit)

/-- The number that decimal digits spell; other characters are not expected. -/
def ofDigits (cs : List Char) : Nat := Nat.ofDigitChars 10 cs 0

/-- The number that a whole text of one or more digits spells. -/
def natural? (cs : List Char) : Option Nat :=
  if cs ≠ [] ∧ cs.all Char.isDigit then some (ofDigits cs) else none

/-- The number that a whole text spells with an optional sign before its digits. -/
def signed? (cs : List Char) : Option Int :=
  let (negative, digits) := splitSign cs
  (natural? digits).map fun n => if negative then -(n : Int) else n

/-- The sixty-four bit integer that a whole text spells. -/
def integer? (cs : List Char) : Option Int64 := (signed? cs).bind Integer.ofInt?

/-! ## Decimals -/

/-- A decimal: a sign, digits without a point, how many of them are written, and the power of ten of the
last one. -/
structure Decimal where
  negative : Bool
  coefficient : Nat
  places : Nat
  exponent : Int
  deriving DecidableEq, Repr

/-- The exponent that a text after the digits of a decimal gives: nothing at all, or `e` and a number. -/
def exponentPart? : List Char → Option Int
  | []      => some 0
  | c :: cs => if c = 'e' ∨ c = 'E' then signed? cs else none

/-- The decimal that a whole text spells. -/
def Decimal.ofChars? (cs : List Char) : Option Decimal :=
  let (negative, unsigned) := splitSign cs
  let (whole, afterWhole) := digitRun unsigned
  let (fraction, afterFraction) :=
    match afterWhole with
    | '.' :: more => digitRun more
    | more        => ([], more)
  let digits := whole ++ fraction
  if digits = [] then none
  else (exponentPart? afterFraction).map fun e =>
    ⟨negative, ofDigits digits, digits.length, e - fraction.length⟩

/-- The float nearest to a decimal.

A coefficient other than zero times a power of ten past `10 ^ 308` is past every finite float, and a decimal
below `10 ^ (-324)` is nearer to zero than to any other float, so no greater power of ten is ever formed. -/
def Decimal.toFloat (d : Decimal) : Float :=
  if d.coefficient = 0 then Binary64.ofMagnitude d.negative 0
  else if 308 < d.exponent then Binary64.ofMagnitude d.negative Binary64.infinityMagnitude
  else if d.places + d.exponent ≤ -324 then Binary64.ofMagnitude d.negative 0
  else Binary64.nearest d.negative (d.coefficient * Nat.pow 10 d.exponent.toNat) (Nat.pow 10 (-d.exponent).toNat)

/-- The float that a whole text spells. -/
def float? (cs : List Char) : Option Float := (Decimal.ofChars? cs).map Decimal.toFloat

end Numeral

end SmallLisp
