import SmallLisp.Text.Blank
import SmallLisp.Text.Bytes
import SmallLisp.Token

/-!
# `SmallLisp.Token.Scan` — cutting a text into tokens

A text is a sequence of pieces, each cut off the front without regard to what went before: a gap (one
blank or comma, or a comment) or a lexeme. `Piece.first` cuts one piece off a non-empty text, and
`Token.scan` repeats that to the end and keeps the lexemes with their byte offsets.

## Contents
* **Character classes** `isGap` and `isAtomChar`.
* **Strings** `cutString`: where the body of a string ends.
* **One piece** `Piece.first`, which loses nothing (`Piece.first_taken_append_rest`) and always takes
  something (`Piece.length_rest_first_lt`).
* **All pieces** `Token.scanFrom` and `Token.scan`.
-/

namespace SmallLisp

open Text

/-! ## Character classes -/

/-- Blanks and commas separate lexemes and mean nothing else. -/
def isGap (c : Char) : Bool := isBlank c || c == ','

/-- The characters besides gaps that end an atom. -/
def isAtomStop (c : Char) : Bool :=
  c ∈ ['[', ']', '{', '}', '(', ')', '\x27', '\x22', '\x60', ';']

/-- The characters that may continue an atom: all but gaps, brackets, quotes and the semicolon. -/
def isAtomChar (c : Char) : Bool := !isGap c && !isAtomStop c

/-- Whether a comment goes on past a character: all but a line feed. -/
def isCommentChar (c : Char) : Bool := c != '\n'

/-! ## Strings -/

/-- Cuts the rest of a string off a text that stands just after its opening quote.

A backslash takes the next character along, whatever it is, except a line feed. The string ends with
the first quote that no backslash has taken; failing that, at the end of the text or before a backslash
that has nothing to take. -/
def cutString : List Char → List Char × List Char
  | [] => ([], [])
  | '\x22' :: rest => (['\x22'], rest)
  | '\\' :: [] => ([], ['\\'])
  | '\\' :: c :: rest =>
    if c = '\n' then ([], '\\' :: c :: rest)
    else ('\\' :: c :: (cutString rest).1, (cutString rest).2)
  | c :: rest => (c :: (cutString rest).1, (cutString rest).2)

theorem cutString_append (cs : List Char) : (cutString cs).1 ++ (cutString cs).2 = cs := by
  fun_induction cutString cs <;> simp_all

/-! ## One piece -/

/-- The lexemes that one character makes by itself. -/
def Lexeme.ofChar? : Char → Option Lexeme
  | '('    => some (.opening .round)
  | '['    => some (.opening .square)
  | '{'    => some (.opening .curly)
  | ')'    => some (.closing .round)
  | ']'    => some (.closing .square)
  | '}'    => some (.closing .curly)
  | '\x27' => some (.mark .quote)
  | '\x60' => some (.mark .quasiquote)
  | '^'    => some .withMeta
  | '@'    => some .deref
  | _      => none

/-- A piece cut off the front of a text: the lexeme it makes, or none for a gap, the characters that
it takes and those that it leaves. -/
structure Piece where
  lexeme? : Option Lexeme
  taken : List Char
  rest : List Char

/-- Cuts one piece off the text that starts with `c` and goes on with `cs`. -/
def Piece.first (c : Char) (cs : List Char) : Piece :=
  if isGap c then
    ⟨none, [c], cs⟩
  else if c = ';' then
    ⟨none, c :: cs.takeWhile isCommentChar, cs.dropWhile isCommentChar⟩
  else if c = '\x22' then
    ⟨some (.string (String.ofList (c :: (cutString cs).1))), c :: (cutString cs).1, (cutString cs).2⟩
  else if c = '~' then
    -- The sign `@` belongs to the mark only where it follows at once; a gap would set it free.
    match cs with
    | '@' :: rest => ⟨some (.mark .spliceUnquote), [c, '@'], rest⟩
    | _           => ⟨some (.mark .unquote), [c], cs⟩
  else
    match Lexeme.ofChar? c with
    | some lexeme => ⟨some lexeme, [c], cs⟩
    | none =>
      ⟨some (.atom (String.ofList (c :: cs.takeWhile isAtomChar))), c :: cs.takeWhile isAtomChar,
        cs.dropWhile isAtomChar⟩

/-- No character is lost or made up. -/
theorem Piece.first_taken_append_rest (c : Char) (cs : List Char) :
    (Piece.first c cs).taken ++ (Piece.first c cs).rest = c :: cs := by
  unfold Piece.first
  repeat' split
  all_goals simp [cutString_append]

/-- A piece takes at least the first character. -/
theorem Piece.first_taken_ne_nil (c : Char) (cs : List Char) : (Piece.first c cs).taken ≠ [] := by
  unfold Piece.first
  repeat' split
  all_goals simp

/-- What a piece leaves is shorter than the text it was cut off. -/
theorem Piece.length_rest_first_lt (c : Char) (cs : List Char) :
    (Piece.first c cs).rest.length < (c :: cs).length := by
  have happ := congrArg List.length (Piece.first_taken_append_rest c cs)
  have hpos := List.length_pos_iff.mpr (Piece.first_taken_ne_nil c cs)
  rw [List.length_append] at happ
  omega

/-! ## All pieces -/

namespace Token

/-- The tokens of a text whose first character stands at the byte offset `start`. -/
def scanFrom (start : Nat) : List Char → List Token
  | [] => []
  | c :: cs =>
    let piece := Piece.first c cs
    let stop := start + byteLength piece.taken
    match piece.lexeme? with
    | none        => scanFrom stop piece.rest
    | some lexeme => ⟨lexeme, start, stop⟩ :: scanFrom stop piece.rest
termination_by cs => cs.length
decreasing_by all_goals exact Piece.length_rest_first_lt c cs

/-- The tokens of a program text, in order. -/
def scan (source : String) : List Token := scanFrom 0 source.toList

end Token

end SmallLisp
