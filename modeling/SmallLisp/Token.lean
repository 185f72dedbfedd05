/-!
# `SmallLisp.Token` — lexemes and tokens

A *lexeme* is one indivisible piece of a program text: a bracket, one of the short marks, a string or
an atom. A *token* is a lexeme together with the bytes of the text that it was cut from.

## Contents
* **Brackets** `Bracket` and **marks** `Mark`. The marks are also the wrapper kinds of values.
* **Lexemes** `Lexeme` with their text, and **tokens** `Token`.
-/

namespace SmallLisp

/-- The three pairs of brackets. -/
inductive Bracket where
  | round
  | square
  | curly
  deriving DecidableEq, Repr

namespace Bracket

/-- The opening character of a pair. -/
def opener : Bracket → Char
  | round  => '('
  | square => '['
  | curly  => '{'

/-- The closing character of a pair. -/
def closer : Bracket → Char
  | round  => ')'
  | square => ']'
  | curly  => '}'

end Bracket

/-- The four marks that wrap the form after them. -/
inductive Mark where
  | quote
  | quasiquote
  | unquote
  | spliceUnquote
  deriving DecidableEq, Repr

namespace Mark

/-- The long name of a mark, which is also the head of its written-out list. -/
def name : Mark → String
  | quote         => "quote"
  | quasiquote    => "quasiquote"
  | unquote       => "unquote"
  | spliceUnquote => "splice-unquote"

/-- The short spelling of a mark in a program text. -/
def short : Mark → String
  | quote         => "\x27"
  | quasiquote    => "\x60"
  | unquote       => "~"
  | spliceUnquote => "~@"

end Mark

/-- The kinds of piece that a program text is cut into. -/
inductive Lexeme where
  | opening (bracket : Bracket)
  | closing (bracket : Bracket)
  | mark (mark : Mark)
  /-- The sign `^`, which attaches metadata to a form. -/
  | withMeta
  /-- The sign `@`, which dereferences the form after it. -/
  | deref
  /-- A string as written, from its opening quote to its closing quote, which may be missing. -/
  | string (raw : String)
  /-- A run of characters that is none of the above. -/
  | atom (text : String)
  deriving DecidableEq, Repr

namespace Lexeme

/-- The characters that a lexeme was cut from. -/
def text : Lexeme → String
  | opening b  => b.opener.toString
  | closing b  => b.closer.toString
  | mark m     => m.short
  | withMeta   => "^"
  | deref      => "@"
  | string raw => raw
  | atom text  => text

/-- Whether a lexeme closes a bracket. -/
def isClosing : Lexeme → Bool
  | closing _ => true
  | _         => false

end Lexeme

/-- A lexeme and its place: the bytes of the text from `start` up to, not including, `stop`. -/
structure Token where
  lexeme : Lexeme
  start : Nat
  stop : Nat
  deriving DecidableEq, Repr

end SmallLisp
