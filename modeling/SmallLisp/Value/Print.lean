import SmallLisp.Numeral.Write
import SmallLisp.Text.Quoted
import SmallLisp.Value

/-!
# `SmallLisp.Value.Print` — the text of a value

A value is written readably, with its strings quoted, or raw, with the content of its strings as it is. A form
under a mark is written as the list that the mark abbreviates, and a function as a sign that cannot be read.

## Contents
* **Characters.** `Value.chars`, with `charsItems` and `charsEntries`.
* **Texts.** `Value.print`, and `Value.printAll` for several values.
-/

namespace SmallLisp.Value

/-- Some characters between the brackets of a pair. -/
def enclosed (b : Bracket) (inner : List Char) : List Char := b.opener :: (inner ++ [b.closer])

mutual

/-- The characters of a value. -/
def chars (readable : Bool) : Value → List Char
  | nil            => ['n', 'i', 'l']
  | boolean true   => ['t', 'r', 'u', 'e']
  | boolean false  => ['f', 'a', 'l', 's', 'e']
  | integer n      => Numeral.integerChars n.toInt
  | float x        => Numeral.floatChars x
  | string content => if readable then Text.Quoted.encode content.toList else content.toList
  | keyword name   => ':' :: name.toList
  | symbol name    => name.toList
  | list items     => enclosed .round (charsItems readable items)
  | vector items   => enclosed .square (charsItems readable items)
  | map entries    => enclosed .curly (charsEntries readable entries)
  | builtin b      => "#<builtin ".toList ++ b.name.toList ++ ['>']
  | closure _ _ _  => "#<function>".toList
  | marked m form  => enclosed .round (m.name.toList ++ ' ' :: chars readable form)

/-- The characters of some values with a space between any two. -/
def charsItems (readable : Bool) : List Value → List Char
  | []             => []
  | [item]         => chars readable item
  | item :: items  => chars readable item ++ ' ' :: charsItems readable items

/-- The characters of some entries, each a key, a space and its value, with a space between any two. -/
def charsEntries (readable : Bool) : List (String × Value) → List Char
  | []                    => []
  | [(key, value)]        => key.toList ++ ' ' :: chars readable value
  | (key, value) :: rest  => key.toList ++ ' ' :: chars readable value ++ ' ' :: charsEntries readable rest

end

/-- The text of a value, readable or raw. -/
def print (readable : Bool) (v : Value) : String := String.ofList (chars readable v)

/-- The texts of some values, joined. -/
def printAll (readable : Bool) (separator : String) (vs : List Value) : String :=
  String.intercalate separator (vs.map (print readable))

end SmallLisp.Value
