import SmallLisp.Numeral.Read
import SmallLisp.Value

/-!
# `SmallLisp.Form.Atom` — the form that an atom spells

An atom that starts like a number must be one. Any other atom is a keyword, one of three constants, or a symbol.

## Contents
* **Numbers.** `looksNumeric`, `number?`.
* **All atoms.** `Value.ofAtom?`.
-/

namespace SmallLisp

namespace Numeral

/-- Whether a text starts with a digit, or with a sign and a digit. -/
def looksNumeric : List Char → Bool
  | '-' :: c :: _ => c.isDigit
  | '+' :: c :: _ => c.isDigit
  | c :: _        => c.isDigit
  | []            => false

/-- The number that a text spells: a float if there is a point in it, an integer otherwise. -/
def number? (cs : List Char) : Option Value :=
  if '.' ∈ cs then (float? cs).map Value.float else (integer? cs).map Value.integer

end Numeral

/-- The form of an atom that does not look like a number. -/
def Value.ofName (text : String) : Value :=
  match text.toList with
  | ':' :: name                => .keyword (String.ofList name)
  | ['n', 'i', 'l']            => .nil
  | ['t', 'r', 'u', 'e']       => .boolean true
  | ['f', 'a', 'l', 's', 'e']  => .boolean false
  | _                          => .symbol text

/-- The form of an atom; none if it looks like a number and is not one. -/
def Value.ofAtom? (text : String) : Option Value :=
  if Numeral.looksNumeric text.toList then Numeral.number? text.toList else some (.ofName text)

end SmallLisp
