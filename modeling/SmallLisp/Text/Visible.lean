import SmallLisp.Text.Blank
import SmallLisp.Text.Unprintable

/-!
# `SmallLisp.Text.Visible` — names between quotes, with every character visible

A quoted name shows each of its characters: one that would not be seen, or that would end the quote, is written
as an escape.

## Contents
* **One character** `showChar`.
* **Names** `showName`, `showNames`.
-/

namespace SmallLisp.Text

/-- The digits of a number to the base sixteen. -/
def hexDigits (n : Nat) : String := String.ofList (Nat.toDigits 16 n)

/-- One character between the quotes. -/
def showChar (c : Char) : String :=
  if c = '\x00' then "\\0"
  else if c = '\t' then "\\t"
  else if c = '\n' then "\\n"
  else if c = '\r' then "\\r"
  else if c = '\x22' then "\\\""
  else if c = '\\' then "\\\\"
  else if inRanges unprintableRanges c.toNat then "\\u\x7b" ++ hexDigits c.toNat ++ "\x7d"
  else c.toString

/-- A name between double quotes. -/
def showName (name : String) : String := "\"" ++ String.join (name.toList.map showChar) ++ "\""

/-- Some names between square brackets. -/
def showNames (names : List String) : String :=
  "[" ++ String.intercalate ", " (names.map showName) ++ "]"

end SmallLisp.Text
