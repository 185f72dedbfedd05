import SmallLisp.Value

/-!
# `SmallLisp.Value.Equality` — when two values are equal

A list and a vector with equal elements are equal, and so are any two functions. Floats compare by value, so
`0.0` equals `-0.0` and a NaN equals nothing; an integer never equals a float.

## Contents
* **Equality** `Value.equal`, with `equalItems` and `equalEntries`, and the `BEq` instance.
-/

namespace SmallLisp.Value

mutual

/-- Whether two values are equal. -/
def equal : Value → Value → Bool
  | nil, nil                   => true
  | boolean a, boolean b       => a == b
  | integer a, integer b       => a == b
  | float a, float b           => a == b
  | string a, string b         => a == b
  | keyword a, keyword b       => a == b
  | symbol a, symbol b         => a == b
  | list xs, list ys           => equalItems xs ys
  | list xs, vector ys         => equalItems xs ys
  | vector xs, list ys         => equalItems xs ys
  | vector xs, vector ys       => equalItems xs ys
  | map es, map fs             => equalEntries es fs
  | builtin _, builtin _       => true
  | builtin _, closure _ _ _   => true
  | closure _ _ _, builtin _   => true
  | closure _ _ _, closure _ _ _ => true
  | marked m a, marked n b     => decide (m = n) && equal a b
  | _, _                       => false

/-- Whether two lists have equal values at the same places. -/
def equalItems : List Value → List Value → Bool
  | [], []           => true
  | x :: xs, y :: ys => equal x y && equalItems xs ys
  | _, _             => false

/-- Whether two maps have the same keys with equal values; both are in key order. -/
def equalEntries : List (String × Value) → List (String × Value) → Bool
  | [], []                     => true
  | (k, x) :: xs, (l, y) :: ys => decide (k = l) && equal x y && equalEntries xs ys
  | _, _                       => false

end

instance : BEq Value := ⟨equal⟩

end SmallLisp.Value
