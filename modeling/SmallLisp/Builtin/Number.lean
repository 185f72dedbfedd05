import SmallLisp.Eval.Error
import SmallLisp.Numeral.Read

/-!
# `SmallLisp.Builtin.Number` — arithmetic and comparison

Arithmetic goes through its arguments from left to right. As long as all numbers are integers it is exact, and
a result outside sixty-four bits is an error; from the first float on it is float arithmetic.

## Contents
* **Numbers** `Number`.
* **Arithmetic.** `Arithmetic.combine` joins two numbers, `Arithmetic.fold` any number of them, and
  `Arithmetic.call` adds the rules for few arguments.
* **Comparison** `Comparison.holds`.
-/

namespace SmallLisp

/-- An integer or a float. -/
inductive Number where
  | integer (n : Int64)
  | float (x : Float)

namespace Number

/-- The number as a float, the nearest one for an integer. -/
def toFloat : Number → Float
  | integer n => Binary64.ofInteger n
  | float x   => x

/-- The number as a value. -/
def toValue : Number → Value
  | integer n => .integer n
  | float x   => .float x

/-- The number that an argument of a function is. -/
def ofArgument (function : String) : Value → Except EvalError Number
  | .integer n => .ok (integer n)
  | .float x   => .ok (float x)
  | v          => .error (.wrongType function .number v)

end Number

namespace Arithmetic

/-- The operation on integers, without a bound; division drops the fraction. -/
def exact : Arithmetic → Int → Int → Int
  | add, a, b      => a + b
  | subtract, a, b => a - b
  | multiply, a, b => a * b
  | divide, a, b   => a.tdiv b

/-- The operation on floats. -/
def onFloats : Arithmetic → Float → Float → Float
  | add, x, y      => x + y
  | subtract, x, y => x - y
  | multiply, x, y => x * y
  | divide, x, y   => x / y

/-- Joins two numbers. -/
def combine (op : Arithmetic) : Number → Number → Except EvalError Number
  | .integer a, .integer b =>
    if op = divide ∧ b = 0 then .error (.divisionByZero op.name)
    else
      match Integer.ofInt? (op.exact a.toInt b.toInt) with
      | some n => .ok (.integer n)
      | none   => .error (.integerOverflow op.name)
  | a, b => .ok (.float (op.onFloats a.toFloat b.toFloat))

/-- Joins a number with some arguments, from left to right. -/
def fold (op : Arithmetic) : Number → List Value → Except EvalError Value
  | acc, []        => .ok acc.toValue
  | acc, v :: rest =>
    match Number.ofArgument op.name v with
    | .error e => .error e
    | .ok n    =>
      match op.combine acc n with
      | .error e => .error e
      | .ok next => fold op next rest

/-- The number that changes nothing. -/
def neutral : Arithmetic → Number
  | add      => .integer 0
  | subtract => .integer 0
  | multiply => .integer 1
  | divide   => .integer 1

/-- Calls an arithmetic operation.

Sums and products start at the neutral number. Differences and quotients start at the first of two or more
arguments, start at the neutral number for one, and need at least one. -/
def call (op : Arithmetic) (args : List Value) : Except EvalError Value :=
  if op = add ∨ op = multiply then op.fold op.neutral args
  else
    match args with
    | []            => .error (.wrongCount op.name (.atLeast 1) 0)
    | [only]        => op.fold op.neutral [only]
    | first :: rest =>
      match Number.ofArgument op.name first with
      | .error e => .error e
      | .ok n    => op.fold n rest

end Arithmetic

namespace Comparison

/-- The comparison of integers. -/
def onIntegers : Comparison → Int64 → Int64 → Bool
  | less, a, b           => a < b
  | lessOrEqual, a, b    => a ≤ b
  | greater, a, b        => b < a
  | greaterOrEqual, a, b => b ≤ a

/-- The comparison of floats; with a NaN none holds. -/
def onFloats : Comparison → Float → Float → Bool
  | less, x, y           => x < y
  | lessOrEqual, x, y    => x ≤ y
  | greater, x, y        => y < x
  | greaterOrEqual, x, y => y ≤ x

/-- The comparison of numbers; an integer meets a float as a float. -/
def holds (rel : Comparison) : Number → Number → Bool
  | .integer a, .integer b => rel.onIntegers a b
  | a, b                   => rel.onFloats a.toFloat b.toFloat

end Comparison

end SmallLisp
