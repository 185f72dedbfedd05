import SmallLisp.Proofs.Form.Prefix
import SmallLisp.Proofs.Form.Reader
import SmallLisp.Proofs.Token.Write

/-!
# `SmallLisp.Proofs.Form.Lines` — the forms of several lines

A line that can be read has no string open at its end, and a comment ends with its line. So the lexemes of lines put
together are those of the first line and then those of the others, and the same goes for their forms.

## Contents
* **The first form** of a text is the first of all its forms (`Form.read_of_readAll`).
* **Closed strings** `isClosed_of_finishAll`.
* **Two texts** with a line break between them: `lexemes_append_line`, `readAll_append_line`.
-/

namespace SmallLisp

/-! ## The first form -/

theorem Form.read_of_readAll {source : String} {vs : List Value} (h : readAll source = .ok vs) :
    read source = .ok vs.head? := by
  have hforms := readAll_eq_ok_iff_areForms.mp h
  generalize hls : lexemes source = ls at hforms
  cases hforms with
  | nil =>
      have hscan : Token.scan source = [] := List.map_eq_nil_iff.mp hls
      rw [read, next, hscan]
      rfl
  | cons hform _ =>
      obtain ⟨used, rest, hscan, hused, -⟩ := List.map_eq_append_iff.mp hls
      have hrun : Progress.Run (.unfinished .start) used (.finished _) := hform.run hused []
      exact read_eq_ok_iff.mpr ⟨used, rest, hscan, hrun⟩

/-! ## Closed strings -/

/-- In a text that can be read to its end all strings are closed. -/
theorem isClosed_of_finishAll {r : Reading} {ts : List Token} {vs : List Value} (h : Form.finishAll r ts = .ok vs) :
    ∀ t ∈ ts, t.lexeme.isClosed := by
  induction ts generalizing r vs with
  | nil => exact List.forall_mem_nil _
  | cons t ts ih =>
      rw [Form.finishAll] at h
      split at h
      · cases h
      · rename_i v hfeed
        cases hrest : Form.finishAll .start ts with
        | error e =>
            rw [hrest] at h
            cases h
        | ok ws => exact List.forall_mem_cons.mpr ⟨isClosed_of_feed hfeed, ih hrest⟩
      · rename_i next hfeed
        exact List.forall_mem_cons.mpr ⟨isClosed_of_feed hfeed, ih h⟩

/-! ## Two texts -/

theorem Form.readAll_empty : readAll "" = .ok [] := by
  have hlexemes : lexemes "" = [] := lexemesOf_nil
  rw [readAll_eq_ok_iff_areForms, hlexemes]
  exact AreForms.nil

theorem lexemes_append_line {a : String} {vs : List Value} (h : Form.readAll a = .ok vs) (b : String) :
    lexemes (a ++ "\n" ++ b) = lexemes a ++ lexemes b := by
  have hclosed : ∀ t ∈ Token.scanFrom 0 a.toList, t.lexeme.isClosed := isClosed_of_finishAll h
  rw [lexemes, scan_continued, Token.scanFrom_append hclosed, List.map_append, map_lexeme_scanFrom _ (_ :: _),
    lexemesOf_gap (by decide)]
  rfl

/-- **Lines are read one after the other.** -/
theorem readAll_append_line {a b : String} {vs ws : List Value} (ha : Form.readAll a = .ok vs)
    (hb : Form.readAll b = .ok ws) : Form.readAll (a ++ "\n" ++ b) = .ok (vs ++ ws) := by
  rw [readAll_eq_ok_iff_areForms, lexemes_append_line ha]
  exact (readAll_eq_ok_iff_areForms.mp ha).append (readAll_eq_ok_iff_areForms.mp hb)

end SmallLisp
