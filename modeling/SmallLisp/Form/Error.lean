import SmallLisp.Numeral.Write
import SmallLisp.Token

/-!
# `SmallLisp.Form.Error` — why a text cannot be read

## Contents
* **What was missing** `Expected` and **the causes** `ReadError`.
* **Wording** `ReadError.message`, and `ReadError.isLexical`, which tells a bad token from a bad arrangement of
  good ones.
-/

namespace SmallLisp

/-- What a text should have gone on with. -/
inductive Expected where
  | form
  | closing (bracket : Bracket)
  deriving DecidableEq, Repr

/-- Why a text cannot be read. Offsets count bytes. -/
inductive ReadError where
  | unterminatedString (start : Nat)
  | prematureEnd (expected : Expected)
  | unexpectedToken (expected : Expected) (got : Token)
  | invalidNumber (literal : String) (start : Nat)
  | invalidMapKey (got : Token)
  deriving DecidableEq, Repr

/-- What was missing, in words. -/
def Expected.text : Expected → String
  | form      => "a form"
  | closing b => "'" ++ b.closer.toString ++ "'"

/-- A token in words: its text in quotes and its place. -/
def Token.placed (t : Token) : String :=
  "'" ++ t.lexeme.text ++ "' at offset " ++ Numeral.naturalText t.start

namespace ReadError

/-- The error in words. -/
def message : ReadError → String
  | unterminatedString start     => "unbalanced string literal at offset " ++ Numeral.naturalText start
  | prematureEnd expected        => "unbalanced: expected " ++ expected.text ++ ", got end of input"
  | unexpectedToken expected got => "unbalanced: expected " ++ expected.text ++ ", got " ++ got.placed
  | invalidNumber literal start  => "invalid number '" ++ literal ++ "' at offset " ++ Numeral.naturalText start
  | invalidMapKey got            => "invalid map key " ++ got.placed

/-- Whether the error lies in a single token. -/
def isLexical : ReadError → Bool
  | unterminatedString _ => true
  | _                    => false

end ReadError

end SmallLisp
