/-!
# `SmallLisp.Text.Bytes` — characters counted in bytes

Offsets and sizes count the bytes that characters take in UTF-8, one to four each.

## Contents
* **Counting** `byteLength`, which adds up (`byteLength_append`).
* **Cutting** `dropBytes`.
-/

namespace SmallLisp.Text

/-- The number of bytes that some characters take. -/
def byteLength : List Char → Nat
  | []      => 0
  | c :: cs => c.utf8Size + byteLength cs

theorem byteLength_append (cs ds : List Char) : byteLength (cs ++ ds) = byteLength cs + byteLength ds := by
  induction cs with
  | nil => rw [List.nil_append, byteLength, Nat.zero_add]
  | cons c cs ih => rw [List.cons_append, byteLength, byteLength, ih, Nat.add_assoc]

/-- Takes so many bytes off the front of a text; a character goes as a whole if any of its bytes goes. -/
def dropBytes : Nat → List Char → List Char
  | _, []          => []
  | 0, cs          => cs
  | n + 1, c :: cs => dropBytes (n + 1 - c.utf8Size) cs

end SmallLisp.Text
