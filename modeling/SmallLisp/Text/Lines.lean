import SmallLisp.Text.Bytes
import SmallLisp.Text.Cluster

/-!
# `SmallLisp.Text.Lines` — the lines of an input

An input is read line by line. A line ends with a line feed, or with a carriage return and a line feed, and
inside it a backspace takes back the cluster before it, as it would have done at a keyboard.

## Contents
* **Cutting** `split`.
* **Backspaces** `takeBack`, which leaves a line without one as it is (`takeBack_of_not_mem`).
* **Both** `Text.lines`.
-/

namespace SmallLisp.Text

namespace Lines

/-! ## Cutting -/

/-- Takes the carriage return off the end of a line that a line feed has ended. -/
def dropReturn (line : List Char) : List Char :=
  if line.getLast? = some '\r' then line.dropLast else line

/-- The lines of a text, of which the first has been begun: `current` holds its characters, the latest first.
The last line may lack its line feed. -/
def split (current : List Char) : List Char → List (List Char)
  | []         => if current.isEmpty then [] else [current.reverse]
  | '\n' :: cs => dropReturn current.reverse :: split [] cs
  | c :: cs    => split (c :: current) cs

/-! ## Backspaces -/

/-- A line at some point of its entry: the characters that are there, the latest first, and the sizes of the
clusters that have not been taken back, the latest first. -/
structure Entry where
  chars : List Char
  sizes : List Nat

/-- Adds a cluster to a line. A backspace is not added, and takes back the latest cluster, if there is one.

The size of a cluster is its length in bytes, kept in eight bits: a cluster of 256 bytes or more is taken back
only in part. -/
def Entry.add (entry : Entry) (cluster : List Char) : Entry :=
  if cluster = ['\x08'] then
    match entry.sizes with
    | []            => entry
    | size :: sizes => ⟨dropBytes size entry.chars, sizes⟩
  else ⟨cluster.reverse ++ entry.chars, byteLength cluster % 256 :: entry.sizes⟩

/-- A line after its backspaces have done their work. -/
def takeBack (line : List Char) : List Char := ((clusters line).foldl Entry.add ⟨[], []⟩).chars.reverse

theorem reverse_chars_foldl_add {cs : List (List Char)} (h : ∀ c ∈ cs, '\x08' ∉ c) (entry : Entry) :
    (cs.foldl Entry.add entry).chars.reverse = entry.chars.reverse ++ cs.flatten := by
  induction cs generalizing entry with
  | nil => simp
  | cons c cs ih =>
      obtain ⟨hc, hcs⟩ := List.forall_mem_cons.mp h
      have hne : c ≠ ['\x08'] := by
        rintro rfl
        exact hc List.mem_cons_self
      rw [List.foldl_cons, ih hcs]
      simp [Entry.add, hne]

/-- A line without a backspace stays as it is. -/
theorem takeBack_of_not_mem {line : List Char} (h : '\x08' ∉ line) : takeBack line = line := by
  have hclusters : ∀ c ∈ clusters line, '\x08' ∉ c := by
    intro c hc hmem
    apply h
    rw [← flatten_clusters line]
    exact List.mem_flatten_of_mem hc hmem
  unfold takeBack
  rw [reverse_chars_foldl_add hclusters, flatten_clusters]
  rfl

end Lines

/-- The lines of an input, as they are to be read. -/
def lines (input : String) : List String :=
  (Lines.split [] input.toList).map fun line => String.ofList (Lines.takeBack line)

end SmallLisp.Text
