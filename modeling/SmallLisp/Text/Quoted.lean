/-!
# `SmallLisp.Text.Quoted` — strings as they are written

A written string stands between double quotes. Inside, a backslash and the character after it stand for one
character when that is `n`, a double quote or a backslash, and for themselves otherwise; writing uses these
three escapes and no other.

## Contents
* **Writing.** `escape`, `encode`.
* **Reading.** `decodeBody?`, `decode?`, which also give what follows the closing quote.
* **Round trip.** What is written reads back, whatever follows it (`decode?_encode_append`).
-/

namespace SmallLisp.Text.Quoted

/-! ## Writing -/

/-- How one character is written inside the quotes. -/
def escape (c : Char) : List Char :=
  if c = '\x22' then ['\\', '\x22']
  else if c = '\\' then ['\\', '\\']
  else if c = '\n' then ['\\', 'n']
  else [c]

/-- A string between quotes, with its escapes. -/
def encode (cs : List Char) : List Char := '\x22' :: (cs.flatMap escape ++ ['\x22'])

/-! ## Reading -/

/-- The content of a string whose opening quote has been taken, and what follows its closing quote; none if
there is no closing quote. -/
def decodeBody? : List Char → Option (List Char × List Char)
  | [] => none
  | '\x22' :: rest => some ([], rest)
  | '\\' :: [] => none
  | '\\' :: c :: rest =>
    let meant :=
      if c = 'n' then ['\n']
      else if c = '\x22' ∨ c = '\\' then [c]
      else ['\\', c]
    (decodeBody? rest).map fun (content, after) => (meant ++ content, after)
  | c :: rest => (decodeBody? rest).map fun (content, after) => (c :: content, after)

/-- The content of a written string, and what follows its closing quote. -/
def decode? : List Char → Option (List Char × List Char)
  | '\x22' :: rest => decodeBody? rest
  | _ => none

/-! ## Round trip -/

theorem decodeBody?_escape_append (c : Char) (cs : List Char) :
    decodeBody? (escape c ++ cs) = (decodeBody? cs).map fun (content, after) => (c :: content, after) := by
  unfold escape
  split
  · subst c; simp [decodeBody?]
  · split
    · subst c; simp [decodeBody?]
    · split
      · subst c; simp [decodeBody?]
      · rename_i hquote hslash _
        rw [List.singleton_append, decodeBody?.eq_def]
        split <;> simp_all

theorem decodeBody?_flatMap_escape (cs rest : List Char) :
    decodeBody? (cs.flatMap escape ++ '\x22' :: rest) = some (cs, rest) := by
  induction cs with
  | nil => simp [decodeBody?]
  | cons c cs ih =>
      rw [List.flatMap_cons, List.append_assoc, decodeBody?_escape_append, ih]
      rfl

/-- A written string reads back, whatever follows it. -/
theorem decode?_encode_append (cs rest : List Char) : decode? (encode cs ++ rest) = some (cs, rest) := by
  simp [encode, decode?, decodeBody?_flatMap_escape]

end SmallLisp.Text.Quoted
