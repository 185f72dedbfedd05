import Mathlib
import SmallLisp.Proofs.Form.Run
import SmallLisp.Proofs.Token.Cut

/-!
# `SmallLisp.Proofs.Form.Prefix` — errors at the first token that cannot be right

A text that is read up to some place may go on in any way. What has been read stays read, and an error that a
token has caused stays. An early end is no such error: the text can be completed (`closers`). And the part of a
text before the token that caused an error is a text that could still be completed.

## Contents
* **Errors** that no further text mends, `ReadError.isFinal`, and their places, `ReadError.offset?`.
* **Tokens.** An error belongs to the token at hand (`ReadError.CausedBy`, `causedBy_of_feed`), and the reader
  takes closed strings only (`Progress.Run.isClosed`).
* **Completion** `closers`, which brings every reading to an end (`exists_run_closers`).
* **Texts** that go on (`read_continued`, `read_continued_error`, `exists_read_continued`) or end before an error
  (`read_before_error`); all of it is `read_extends`.
-/

namespace SmallLisp

open Text

/-! ## Errors -/

namespace ReadError

/-- The byte offset that an error carries. -/
def offset? : ReadError → Option Nat
  | unterminatedString start => some start
  | prematureEnd _           => none
  | unexpectedToken _ got    => some got.start
  | invalidNumber _ start    => some start
  | invalidMapKey got        => some got.start

/-- Whether an error stays, however the text goes on: a string may still find its closing quote, and a text that
has ended too early may go on, but a complete token in a wrong place stays there. -/
def isFinal : ReadError → Bool
  | unterminatedString _ | prematureEnd _ => false
  | unexpectedToken _ _ | invalidNumber _ _ | invalidMapKey _ => true

end ReadError

/-! ## Tokens -/

/-- A token is the cause of an error: the error carries its place, and it can be mended just if the token is a
string that lacks its closing quote. -/
def ReadError.CausedBy (e : ReadError) (t : Token) : Prop :=
  e.offset? = some t.start ∧ e.isFinal = t.lexeme.isClosed

theorem causedBy_of_close {r : Reading} {t : Token} {b : Bracket} {e : ReadError} (ht : t.lexeme = .closing b)
    (h : r.close t b = .error e) : e.CausedBy t := by
  unfold Reading.close at h
  split at h <;> cases h
  exact ⟨rfl, by rw [ht]; rfl⟩

theorem causedBy_of_feed {r : Reading} {t : Token} {e : ReadError} (h : r.feed t = .error e) : e.CausedBy t := by
  cases r with
  | form outer =>
      rw [Reading.feed] at h
      unfold Reading.feedForm at h
      split at h <;> try cases h
      · rename_i b ht
        exact causedBy_of_close ht h
      · rename_i raw ht
        split at h <;> cases h
        rename_i hdecode
        exact ⟨rfl, by rw [ht, Lexeme.isClosed, hdecode]; rfl⟩
      · rename_i text ht
        split at h <;> cases h
        exact ⟨rfl, by rw [ht]; rfl⟩
  | key entries outer =>
      rw [Reading.feed] at h
      unfold Reading.feedKey at h
      split at h
      · rename_i b ht
        exact causedBy_of_close ht h
      · rename_i raw ht
        split at h <;> cases h
        rename_i hdecode
        exact ⟨rfl, by rw [ht, Lexeme.isClosed, Bool.eq_false_iff.mpr hdecode]; rfl⟩
      · cases h
      · rename_i hclosing hstring hatom
        cases h
        refine ⟨rfl, ?_⟩
        -- Strings have had their case, and only a string can be open.
        unfold Lexeme.isClosed
        split
        · rename_i raw ht
          exact absurd ht (hstring raw)
        · rfl

theorem isClosed_of_feed {r : Reading} {t : Token} {p : Progress} (h : r.feed t = .ok p) : t.lexeme.isClosed := by
  unfold Lexeme.isClosed
  split
  · -- Keys are decoded too, although their text is kept as it is.
    rename_i raw ht
    cases hdecode : Quoted.decode? raw.toList with
    | some found => rfl
    | none => cases r <;> simp [Reading.feed, Reading.feedForm, Reading.feedKey, ht, hdecode] at h
  · rfl

theorem Progress.Run.isClosed {p q : Progress} {ts : List Token} (h : Run p ts q) :
    ∀ t ∈ ts, t.lexeme.isClosed := by
  induction h with
  | nil => simp
  | cons hfeed _ ih =>
      intro t ht
      rcases List.mem_cons.mp ht with rfl | ht
      · exact isClosed_of_feed hfeed
      · exact ih t ht

/-! ## Completion -/

/-- The characters that bring a form to its end once the innermost of the unfinished forms has been handed the
form that it waits for. -/
def closers : List Frame → List Char
  | []                    => []
  | .list _ :: outer      => Bracket.round.closer :: closers outer
  | .vector _ :: outer    => Bracket.square.closer :: closers outer
  | .value _ _ :: outer   => Bracket.curly.closer :: closers outer
  | .marked _ :: outer    => closers outer
  | .deref :: outer       => closers outer
  -- After the metadata a form is still missing, and an empty vector is one.
  | .metadata :: outer    => Bracket.square.opener :: Bracket.square.closer :: closers outer
  | .withMeta _ :: outer  => closers outer

/-- The characters that bring a reading to its end. -/
def Reading.closers : Reading → List Char
  | form outer  => Bracket.square.opener :: Bracket.square.closer :: SmallLisp.closers outer
  | key _ outer => Bracket.curly.closer :: SmallLisp.closers outer

/-- A character that is a token by itself, of one byte. -/
theorem scanFrom_ofChar? {c : Char} {lexeme : Lexeme} (h : Lexeme.ofChar? c = some lexeme)
    (hsize : byteLength [c] = 1) (start : Nat) (cs : List Char) :
    Token.scanFrom start (c :: cs) = ⟨lexeme, start, start + 1⟩ :: Token.scanFrom (start + 1) cs := by
  rw [Token.scanFrom_cons, Piece.first_ofChar? h, Token.ofPiece, hsize]
  rfl

theorem scanFrom_opener (b : Bracket) (start : Nat) (cs : List Char) :
    Token.scanFrom start (b.opener :: cs) = ⟨.opening b, start, start + 1⟩ :: Token.scanFrom (start + 1) cs :=
  scanFrom_ofChar? (Lexeme.ofChar?_opener b) (by cases b <;> rfl) start cs

theorem scanFrom_closer (b : Bracket) (start : Nat) (cs : List Char) :
    Token.scanFrom start (b.closer :: cs) = ⟨.closing b, start, start + 1⟩ :: Token.scanFrom (start + 1) cs :=
  scanFrom_ofChar? (Lexeme.ofChar?_closer b) (by cases b <;> rfl) start cs

theorem exists_run_deliver (outer : List Frame) (v : Value) (start : Nat) :
    ∃ w, Progress.Run (deliver v outer) (Token.scanFrom start (closers outer)) (.finished w) := by
  induction outer generalizing v start with
  | nil => exact ⟨v, by rw [closers, Token.scanFrom]; exact Progress.Run.nil⟩
  | cons frame outer ih =>
      cases frame with
      | list items =>
          obtain ⟨w, hrun⟩ := ih (.list (v :: items).reverse) (start + 1)
          rw [closers, scanFrom_closer]
          exact ⟨w, Progress.Run.cons rfl hrun⟩
      | vector items =>
          obtain ⟨w, hrun⟩ := ih (.vector (v :: items).reverse) (start + 1)
          rw [closers, scanFrom_closer]
          exact ⟨w, Progress.Run.cons rfl hrun⟩
      | value entries key =>
          obtain ⟨w, hrun⟩ := ih (.map (Entries.insert key v entries)) (start + 1)
          rw [closers, scanFrom_closer]
          exact ⟨w, Progress.Run.cons rfl hrun⟩
      | marked m => exact ih (.marked m v) start
      | deref => exact ih (.list [.symbol "deref", v]) start
      | metadata =>
          obtain ⟨w, hrun⟩ := ih (.list [.symbol "with-meta", .vector [], v]) (start + 1 + 1)
          rw [closers, scanFrom_opener, scanFrom_closer]
          exact ⟨w, Progress.Run.cons rfl (Progress.Run.cons rfl hrun)⟩
      | withMeta m => exact ih (.list [.symbol "with-meta", v, m]) start

/-- Wherever reading stands, some characters bring it to its end. -/
theorem exists_run_closers (r : Reading) (start : Nat) :
    ∃ w, Progress.Run (.unfinished r) (Token.scanFrom start r.closers) (.finished w) := by
  cases r with
  | form outer =>
      obtain ⟨w, hrun⟩ := exists_run_deliver outer (.vector []) (start + 1 + 1)
      rw [Reading.closers, scanFrom_opener, scanFrom_closer]
      exact ⟨w, Progress.Run.cons rfl (Progress.Run.cons rfl hrun)⟩
  | key entries outer =>
      obtain ⟨w, hrun⟩ := exists_run_deliver outer (.map entries) (start + 1)
      rw [Reading.closers, scanFrom_closer]
      exact ⟨w, Progress.Run.cons rfl hrun⟩

/-! ## Texts -/

namespace Form

theorem read_eq_ok_iff {source : String} {v : Value} :
    read source = .ok (some v) ↔
      ∃ used rest, Token.scan source = used ++ rest ∧ Progress.Run (.unfinished .start) used (.finished v) := by
  rw [read, next]
  constructor
  · intro h
    split at h
    · cases h
    · cases hfinish : finish .start (Token.scan source) with
      | mk result rest =>
          rw [hfinish] at h
          cases result with
          | error e => cases h
          | ok w =>
              cases h
              obtain ⟨used, hscan, hrun⟩ := finish_eq_ok_iff.mp hfinish
              exact ⟨used, rest, hscan, hrun⟩
  · rintro ⟨used, rest, hscan, hrun⟩
    have hne : used ≠ [] := by
      rintro rfl
      cases hrun
    have hfinish : finish .start (used ++ rest) = (.ok v, rest) := hrun.finish_append rest
    rw [hscan, if_neg (by simp [hne]), hfinish]
    rfl

theorem read_of_run_error {source : String} {used rest : List Token} {t : Token} {r : Reading} {e : ReadError}
    (hscan : Token.scan source = used ++ t :: rest)
    (hrun : Progress.Run (.unfinished .start) used (.unfinished r)) (hfeed : r.feed t = .error e) :
    read source = .error e := by
  have hfinish : finish .start (used ++ t :: rest) = finish r (t :: rest) := hrun.finish_append (t :: rest)
  rw [finish, hfeed] at hfinish
  rw [read, next, hscan, if_neg (by simp), hfinish]
  rfl

theorem read_of_run_end {source : String} {r : Reading}
    (hrun : Progress.Run (.unfinished .start) (Token.scan source) (.unfinished r)) :
    read source = .ok none ∨ ∃ expected, read source = .error (.prematureEnd expected) := by
  have hfinish : finish .start (Token.scan source ++ []) = finish r [] := hrun.finish_append []
  rw [List.append_nil, finish] at hfinish
  by_cases hempty : (Token.scan source).isEmpty = true
  · left
    rw [read, next, if_pos hempty]
  · right
    refine ⟨r.expected, ?_⟩
    rw [read, next, if_neg hempty, hfinish]
    rfl

/-- An error is found at the end of a text, or at a token after a run. -/
theorem run_of_read_eq_error {source : String} {e : ReadError} (h : read source = .error e) :
    (∃ r, Progress.Run (.unfinished .start) (Token.scan source) (.unfinished r) ∧
      e = .prematureEnd r.expected) ∨
    (∃ used t rest r, Token.scan source = used ++ t :: rest ∧
      Progress.Run (.unfinished .start) used (.unfinished r) ∧ r.feed t = .error e) := by
  rw [read, next] at h
  split at h
  · cases h
  · cases hfinish : finish .start (Token.scan source) with
    | mk result rest =>
        rw [hfinish] at h
        cases result with
        | ok w => cases h
        | error e' =>
            cases h
            rcases finish_eq_error hfinish with hend | ⟨used, t, r, hscan, hrun, hfeed⟩
            · exact Or.inl hend
            · exact Or.inr ⟨used, t, rest, r, hscan, hrun, hfeed⟩

end Form

/-- A text that goes on after a line break. -/
theorem scan_continued (source more : String) :
    Token.scan (source ++ "\n" ++ more) = Token.scanFrom 0 (source.toList ++ '\n' :: more.toList) := by
  rw [Token.scan]
  congr 1
  simp

theorem exists_scan_continued {source : String} {pre post : List Token} (h : Token.scan source = pre ++ post)
    (hclosed : ∀ t ∈ pre, t.lexeme.isClosed) (more : String) :
    ∃ post', Token.scan (source ++ "\n" ++ more) = pre ++ post' := by
  rw [scan_continued]
  exact Token.exists_scanFrom_append_eq h hclosed more.toList

theorem read_continued {source : String} {v : Value} (h : Form.read source = .ok (some v)) (more : String) :
    Form.read (source ++ "\n" ++ more) = .ok (some v) := by
  obtain ⟨used, rest, hscan, hrun⟩ := Form.read_eq_ok_iff.mp h
  obtain ⟨rest', hscan'⟩ := exists_scan_continued hscan hrun.isClosed more
  exact Form.read_eq_ok_iff.mpr ⟨used, rest', hscan', hrun⟩

theorem read_continued_error {source : String} {e : ReadError} (h : Form.read source = .error e)
    (hfinal : e.isFinal = true) (more : String) : Form.read (source ++ "\n" ++ more) = .error e := by
  rcases Form.run_of_read_eq_error h with ⟨r, _, rfl⟩ | ⟨used, t, rest, r, hscan, hrun, hfeed⟩
  · cases hfinal
  · -- The token at fault is kept as well: its error would not stay if it were an open string.
    have hclosed : ∀ t' ∈ used ++ [t], t'.lexeme.isClosed := by
      intro t' ht'
      rcases List.mem_append.mp ht' with ht' | ht'
      · exact hrun.isClosed t' ht'
      · obtain rfl := List.mem_singleton.mp ht'
        rw [← (causedBy_of_feed hfeed).2, hfinal]
    rw [List.append_cons] at hscan
    obtain ⟨rest', hscan'⟩ := exists_scan_continued hscan hclosed more
    rw [← List.append_cons] at hscan'
    exact Form.read_of_run_error hscan' hrun hfeed

theorem exists_read_continued {source : String} {expected : Expected}
    (h : Form.read source = .error (.prematureEnd expected)) :
    ∃ more v, Form.read (source ++ "\n" ++ more) = .ok (some v) := by
  rcases Form.run_of_read_eq_error h with ⟨r, hrun, _⟩ | ⟨used, t, rest, r, _, _, hfeed⟩
  · obtain ⟨v, hclose⟩ := exists_run_closers r (0 + byteLength source.toList + byteLength ['\n'])
    refine ⟨String.ofList r.closers, v, Form.read_eq_ok_iff.mpr ⟨_, [], ?_, hrun.append hclose⟩⟩
    have hgap : isGap '\n' = true := by decide
    rw [scan_continued, Token.scanFrom_append hrun.isClosed, Token.scanFrom_cons, Piece.first_gap hgap,
      String.toList_ofList, List.append_nil]
    rfl
  · -- An error that a token has caused has a place, and an early end has none.
    have hplace := (causedBy_of_feed hfeed).1
    cases hplace

theorem read_before_error {source : String} {e : ReadError} {offset : Nat} (h : Form.read source = .error e)
    (hoffset : e.offset? = some offset) :
    ∃ before after, source.toList = before ++ after ∧ byteLength before = offset ∧
      (Form.read (String.ofList before) = .ok none ∨
        ∃ expected, Form.read (String.ofList before) = .error (.prematureEnd expected)) := by
  rcases Form.run_of_read_eq_error h with ⟨r, _, rfl⟩ | ⟨used, t, rest, r, hscan, hrun, hfeed⟩
  · cases hoffset
  · obtain ⟨before, after, hsource, hstart, hused⟩ := Token.exists_scanFrom_eq_of_start hscan hrun.isClosed
    have hlength : t.start = offset := by
      rw [(causedBy_of_feed hfeed).1] at hoffset
      exact Option.some.inj hoffset
    refine ⟨before, after, hsource, by rw [← hlength, hstart, Nat.zero_add], ?_⟩
    have hscanBefore : Token.scan (String.ofList before) = used := by
      rw [Token.scan, String.toList_ofList, hused]
    rw [← hscanBefore] at hrun
    exact Form.read_of_run_end hrun

/-- **Errors are found at the first token that cannot be right.** However a text goes on after a line break: a
form that has been read is read again, and so is an error that a complete token has caused. A text that has ended
too early can be completed. And where an error has a place, the part of the text before it is empty of forms or
has only ended too early. -/
theorem read_extends (source : String) :
    (∀ v more, Form.read source = .ok (some v) → Form.read (source ++ "\n" ++ more) = .ok (some v)) ∧
    (∀ e more, Form.read source = .error e → e.isFinal = true →
      Form.read (source ++ "\n" ++ more) = .error e) ∧
    (∀ expected, Form.read source = .error (.prematureEnd expected) →
      ∃ more v, Form.read (source ++ "\n" ++ more) = .ok (some v)) ∧
    (∀ e offset, Form.read source = .error e → e.offset? = some offset →
      ∃ before after, source.toList = before ++ after ∧ byteLength before = offset ∧
        (Form.read (String.ofList before) = .ok none ∨
          ∃ expected, Form.read (String.ofList before) = .error (.prematureEnd expected))) := by
  refine ⟨?_, ?_, ?_, ?_⟩
  · exact fun v more h => read_continued h more
  · exact fun e more h hfinal => read_continued_error h hfinal more
  · exact fun expected h => exists_read_continued h
  · exact fun e offset h hoffset => read_before_error h hoffset

theorem read_extends_in_brackets :
    Form.read ("(a) b" ++ "\n" ++ ")") = .ok (some (.list [.symbol "a"])) ∧
    Form.read ("(a ]" ++ "\n" ++ ")") =
      .error (.unexpectedToken (.closing .round) ⟨.closing .square, 3, 4⟩) ∧
    (∃ more v, Form.read ("[^m (\x27a" ++ "\n" ++ more) = .ok (some v)) ∧
    (∃ before after, "(a ]".toList = before ++ after ∧ byteLength before = 3 ∧
      (Form.read (String.ofList before) = .ok none ∨
        ∃ expected, Form.read (String.ofList before) = .error (.prematureEnd expected))) := by
  have hform : Form.read "(a) b" = .ok (some (.list [.symbol "a"])) := by cbv
  have herror : Form.read "(a ]" =
      .error (.unexpectedToken (.closing .round) ⟨.closing .square, 3, 4⟩) := by cbv
  have hend : Form.read "[^m (\x27a" = .error (.prematureEnd (.closing .round)) := by cbv
  refine ⟨?_, ?_, ?_, ?_⟩
  · exact (read_extends "(a) b").1 _ ")" hform
  · exact (read_extends "(a ]").2.1 _ ")" herror rfl
  · exact (read_extends "[^m (\x27a").2.2.1 _ hend
  · exact (read_extends "(a ]").2.2.2 _ 3 herror rfl

end SmallLisp
