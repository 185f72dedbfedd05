import Mathlib.Data.List.TakeWhile
import Mathlib.Tactic.Tauto
import SmallLisp.Proofs.Token.Quoted

/-!
# `SmallLisp.Proofs.Token.Cut` — tokens of a part of a text

A text is cut piece by piece, and a piece is cut without regard to what went before it. Here the other side is
looked at: what comes after a piece matters to it only through the next character, and not even that if the text
ends there or a line does. So a text may be cut off after any piece, or go on after a line break, and its tokens
up to there stay the same, provided that every string among them has its closing quote.

## Contents
* **Lexemes that can be cut** `Lexeme.WellCut`, and strings with their closing quote, `Lexeme.isClosed`.
* **One piece.** `Piece.first_taken_append`: the next character decides.
* **Texts** that are cut (`Token.exists_cut`), go on after a line break (`Token.scanFrom_append`,
  `Token.exists_scanFrom_append_eq`) or end early (`Token.exists_scanFrom_eq_of_start`).
-/

namespace SmallLisp

open Text

/-! ## Lexemes that can be cut -/

/-- The characters that may begin an atom: the ones that may continue it but for the signs `~`, `^` and `@`. -/
def isAtomStart (c : Char) : Bool := isAtomChar c && !(c ∈ ['~', '^', '@'])

theorem isAtomChar_of_isAtomStart {c : Char} (h : isAtomStart c = true) : isAtomChar c = true := by
  rw [isAtomStart, Bool.and_eq_true] at h
  exact h.1

namespace Lexeme

/-- What a lexeme looks like that has been cut from a text. -/
def WellCut : Lexeme → Prop
  | string raw => ∃ cs, raw.toList = '\x22' :: (cutString cs).1
  | atom text  => ∃ c cs, text.toList = c :: cs ∧ isAtomStart c ∧ ∀ d ∈ cs, isAtomChar d
  | _          => True

/-- Whether a lexeme is no string that lacks its closing quote. -/
def isClosed : Lexeme → Bool
  | string raw => (Quoted.decode? raw.toList).isSome
  | _          => true

theorem wellCut_atom {text : String} (hne : text.toList ≠ []) (h : text.toList.all isAtomStart = true) :
    (atom text).WellCut := by
  cases htext : text.toList with
  | nil => exact absurd htext hne
  | cons c cs =>
      rw [htext] at h
      have hall := List.all_eq_true.mp h
      refine ⟨c, cs, htext, hall c List.mem_cons_self, ?_⟩
      intro d hd
      exact isAtomChar_of_isAtomStart (hall d (List.mem_cons_of_mem _ hd))

end Lexeme

theorem Lexeme.ofChar?_opener (b : Bracket) : ofChar? b.opener = some (.opening b) := by
  cases b <;> rfl

theorem Lexeme.ofChar?_closer (b : Bracket) : ofChar? b.closer = some (.closing b) := by
  cases b <;> rfl

/-! ## One piece -/

/-- A text may stand in place of `rest` after a piece: it begins with the same character, is empty, or begins with
a line feed. -/
def Continues (rest more : List Char) : Prop :=
  more.head? = rest.head? ∨ more.head? = none ∨ more.head? = some '\n'

theorem Continues.append_left {rest more : List Char} (h : Continues rest more) (cs : List Char) :
    Continues (cs ++ rest) (cs ++ more) := by
  cases cs with
  | nil       => exact h
  | cons d ds => exact Or.inl rfl

/-- A run of characters ends where the next one is not of its kind, or where there is none. -/
theorem takeWhile_append_of_head? {p : Char → Bool} {w rest : List Char} (hw : ∀ d ∈ w, p d)
    (hrest : ∀ d, rest.head? = some d → p d = false) :
    (w ++ rest).takeWhile p = w ∧ (w ++ rest).dropWhile p = rest := by
  have hstop : rest.takeWhile p = [] ∧ rest.dropWhile p = rest := by
    cases rest with
    | nil       => exact ⟨rfl, rfl⟩
    | cons d ds => simp [hrest d rfl]
  constructor
  · rw [List.takeWhile_append_of_pos hw, hstop.1, List.append_nil]
  · rw [List.dropWhile_append_of_pos hw, hstop.2]

theorem isAtomStart_iff {c : Char} :
    isAtomStart c = true ↔
      isGap c = false ∧ c ≠ ';' ∧ c ≠ '\x22' ∧ c ≠ '~' ∧ Lexeme.ofChar? c = none := by
  have hnone : Lexeme.ofChar? c = none ↔
      c ∉ ['(', '[', '{', ')', ']', '}', '\x27', '\x60', '^', '@'] := by
    unfold Lexeme.ofChar?
    split <;> simp_all
  rw [hnone]
  simp only [isAtomStart, isAtomChar, isAtomStop, Bool.and_eq_true, Bool.not_eq_true', decide_eq_false_iff_not,
    List.mem_cons, List.not_mem_nil, or_false, not_or]
  tauto

/-- The kinds of character that a piece can begin with. -/
theorem kind_cases (c : Char) :
    isGap c = true ∨ c = ';' ∨ c = '\x22' ∨ c = '~' ∨ (∃ lexeme, Lexeme.ofChar? c = some lexeme) ∨
      isAtomStart c = true := by
  have hstart := isAtomStart_iff (c := c)
  cases hgap : isGap c with
  | true => exact Or.inl rfl
  | false =>
      cases hchar : Lexeme.ofChar? c with
      | some lexeme => simp
      | none =>
          rw [hgap, hchar] at hstart
          tauto

namespace Piece

/-! ### One equation for each kind -/

theorem first_gap {c : Char} (h : isGap c = true) (cs : List Char) : first c cs = ⟨none, [c], cs⟩ := by
  simp [first, h]

theorem first_comment (cs : List Char) :
    first ';' cs = ⟨none, ';' :: cs.takeWhile isCommentChar, cs.dropWhile isCommentChar⟩ := by
  have hgap : isGap ';' = false := by decide
  simp [first, hgap]

theorem first_string (cs : List Char) :
    first '\x22' cs = ⟨some (.string (String.ofList ('\x22' :: (cutString cs).1))), '\x22' :: (cutString cs).1,
      (cutString cs).2⟩ := by
  have hgap : isGap '\x22' = false := by decide
  simp [first, hgap]

theorem first_splice (cs : List Char) : first '~' ('@' :: cs) = ⟨some (.mark .spliceUnquote), ['~', '@'], cs⟩ := by
  have hgap : isGap '~' = false := by decide
  simp [first, hgap]

theorem first_unquote {cs : List Char} (h : cs.head? ≠ some '@') :
    first '~' cs = ⟨some (.mark .unquote), ['~'], cs⟩ := by
  have hgap : isGap '~' = false := by decide
  cases cs with
  | nil => simp [first, hgap]
  | cons d ds =>
      have hd : d ≠ '@' := by simpa using h
      simp [first, hgap, hd]

theorem first_ofChar? {c : Char} {lexeme : Lexeme} (h : Lexeme.ofChar? c = some lexeme) (cs : List Char) :
    first c cs = ⟨some lexeme, [c], cs⟩ := by
  have hother : isGap c = false ∧ c ≠ ';' ∧ c ≠ '\x22' ∧ c ≠ '~' := by
    unfold Lexeme.ofChar? at h
    split at h <;> cases h <;> decide
  simp [first, hother, h]

/-- A character that may begin an atom begins one. -/
theorem first_atom {c : Char} (h : isAtomStart c = true) (cs : List Char) :
    first c cs = ⟨some (.atom (String.ofList (c :: cs.takeWhile isAtomChar))), c :: cs.takeWhile isAtomChar,
      cs.dropWhile isAtomChar⟩ := by
  obtain ⟨hgap, hcomment, hquote, hmark, hchar⟩ := isAtomStart_iff.mp h
  simp [first, hgap, hcomment, hquote, hmark, hchar]

/-! ### Lexemes -/

theorem wellCut_of_ofChar? {c : Char} {lexeme : Lexeme} (h : Lexeme.ofChar? c = some lexeme) : lexeme.WellCut := by
  unfold Lexeme.ofChar? at h
  split at h <;> cases h <;> trivial

theorem wellCut_first {c : Char} {cs : List Char} {lexeme : Lexeme} (h : (first c cs).lexeme? = some lexeme) :
    lexeme.WellCut := by
  rcases kind_cases c with hgap | rfl | rfl | rfl | ⟨single, hchar⟩ | hstart
  · rw [first_gap hgap] at h
    cases h
  · rw [first_comment] at h
    cases h
  · rw [first_string] at h
    cases h
    exact ⟨cs, by simp⟩
  · by_cases hsplice : cs.head? = some '@'
    · obtain ⟨ds, rfl⟩ := List.head?_eq_some_iff.mp hsplice
      rw [first_splice] at h
      cases h
      trivial
    · rw [first_unquote hsplice] at h
      cases h
      trivial
  · rw [first_ofChar? hchar] at h
    cases h
    exact wellCut_of_ofChar? hchar
  · rw [first_atom hstart] at h
    cases h
    exact ⟨c, cs.takeWhile isAtomChar, by simp, hstart, fun d hd => List.mem_takeWhile_imp hd⟩

/-! ### What follows a piece -/

/-- A run of characters that a line feed would end is the same before every text that may follow it. -/
theorem run_append {p : Char → Bool} (hp : p '\n' = false) {cs rest : List Char}
    (hrest : Continues (cs.dropWhile p) rest) :
    (cs.takeWhile p ++ rest).takeWhile p = cs.takeWhile p ∧ (cs.takeWhile p ++ rest).dropWhile p = rest := by
  apply takeWhile_append_of_head?
  · exact fun d hd => List.mem_takeWhile_imp hd
  · intro d hd
    rcases hrest with h | h | h
    · have hdrop := List.head?_dropWhile_not p cs
      rw [← h, hd] at hdrop
      exact hdrop
    · rw [h] at hd
      cases hd
    · rw [h] at hd
      cases hd
      exact hp

/-- The text after a piece may be replaced by any other that continues it. -/
theorem first_taken_append {c : Char} {cs rest : List Char}
    (hclosed : ∀ lexeme, (first c cs).lexeme? = some lexeme → lexeme.isClosed)
    (hrest : Continues (first c cs).rest rest) :
    ∃ tail, (first c cs).taken = c :: tail ∧
      first c (tail ++ rest) = ⟨(first c cs).lexeme?, (first c cs).taken, rest⟩ := by
  rcases kind_cases c with hgap | rfl | rfl | rfl | ⟨single, hchar⟩ | hstart
  · rw [first_gap hgap]
    exact ⟨[], rfl, first_gap hgap rest⟩
  · rw [first_comment] at hrest ⊢
    obtain ⟨htake, hdrop⟩ := run_append (p := isCommentChar) (by decide) hrest
    exact ⟨cs.takeWhile isCommentChar, rfl, by rw [first_comment, htake, hdrop]⟩
  · -- An open string would take in what follows it, up to a quote, so here it matters that this one is closed.
    rw [first_string] at hclosed ⊢
    have hdecodes : (Quoted.decodeBody? (cutString cs).1).isSome = true := by
      simpa [Lexeme.isClosed, Quoted.decode?] using hclosed _ rfl
    obtain ⟨⟨content, after⟩, hdecode⟩ := Option.isSome_iff_exists.mp hdecodes
    obtain ⟨_, hcut⟩ := cutString_of_decodeBody? hdecode
    exact ⟨(cutString cs).1, rfl, by rw [first_string, hcut rest]⟩
  · by_cases hsplice : cs.head? = some '@'
    · obtain ⟨ds, rfl⟩ := List.head?_eq_some_iff.mp hsplice
      rw [first_splice]
      exact ⟨['@'], rfl, first_splice rest⟩
    · rw [first_unquote hsplice] at hrest ⊢
      -- The other text does not begin with `@` either, or the mark would become a splice.
      refine ⟨[], rfl, first_unquote ?_⟩
      rcases hrest with h | h | h
      · rwa [List.nil_append, h]
      · simp [h]
      · simp [h]
  · rw [first_ofChar? hchar]
    exact ⟨[], rfl, first_ofChar? hchar rest⟩
  · rw [first_atom hstart] at hrest ⊢
    obtain ⟨htake, hdrop⟩ := run_append (p := isAtomChar) (by decide) hrest
    exact ⟨cs.takeWhile isAtomChar, rfl, by rw [first_atom hstart, htake, hdrop]⟩

end Piece

/-! ## Texts -/

namespace Token

/-- The token that a piece makes, if any, where the piece starts at the byte offset `start`. -/
def ofPiece (start : Nat) (piece : Piece) : List Token :=
  piece.lexeme?.toList.map fun lexeme => ⟨lexeme, start, start + byteLength piece.taken⟩

theorem scanFrom_cons (start : Nat) (c : Char) (cs : List Char) :
    scanFrom start (c :: cs) = ofPiece start (Piece.first c cs) ++
      scanFrom (start + byteLength (Piece.first c cs).taken) (Piece.first c cs).rest := by
  rw [scanFrom, ofPiece]
  cases (Piece.first c cs).lexeme? <;> rfl

theorem ofPiece_cases (start : Nat) (piece : Piece) :
    ofPiece start piece = [] ∨ ∃ t, ofPiece start piece = [t] ∧ t.start = start := by
  unfold ofPiece
  cases piece.lexeme? <;> simp

theorem wellCut_scanFrom (start : Nat) (cs : List Char) : ∀ t ∈ scanFrom start cs, t.lexeme.WellCut := by
  fun_induction scanFrom start cs with
  | case1 => simp
  | case2 start c cs piece stop hnone ih => exact ih
  | case3 start c cs piece stop lexeme hlexeme ih =>
      intro t ht
      rcases List.mem_cons.mp ht with rfl | ht
      · exact Piece.wellCut_first hlexeme
      · exact ih t ht

/-- The token of a piece and the tokens after it, whatever the text is that follows the piece. -/
theorem scanFrom_taken_append {start : Nat} {c : Char} {cs rest : List Char}
    (hclosed : ∀ t ∈ ofPiece start (Piece.first c cs), t.lexeme.isClosed)
    (hrest : Continues (Piece.first c cs).rest rest) :
    scanFrom start ((Piece.first c cs).taken ++ rest) = ofPiece start (Piece.first c cs) ++
      scanFrom (start + byteLength (Piece.first c cs).taken) rest := by
  have hlexeme : ∀ lexeme, (Piece.first c cs).lexeme? = some lexeme → lexeme.isClosed := by
    intro lexeme h
    exact hclosed ⟨lexeme, start, start + byteLength (Piece.first c cs).taken⟩ (by simp [ofPiece, h])
  obtain ⟨tail, htaken, hfirst⟩ := Piece.first_taken_append hlexeme hrest
  rw [htaken, List.cons_append, scanFrom_cons, hfirst, htaken]
  simp only [ofPiece, htaken]

/-- A text that starts at `start` is cut into `before` and `after`: its tokens up to there are `pre`, also if the
text goes on otherwise, and the next ones are `post`. -/
structure Cut (start : Nat) (pre post : List Token) (before after : List Char) : Prop where
  after_eq_nil : post = [] → after = []
  start_eq : ∀ t, post.head? = some t → t.start = start + byteLength before
  scanFrom_eq : ∀ more, Continues after more →
    scanFrom start (before ++ more) = pre ++ scanFrom (start + byteLength before) more

/-- A cut further on, where one more piece comes before. -/
theorem Cut.piece {start : Nat} {c : Char} {cs before after : List Char} {pre post : List Token}
    (h : Cut (start + byteLength (Piece.first c cs).taken) pre post before after)
    (hrest : (Piece.first c cs).rest = before ++ after)
    (hclosed : ∀ t ∈ ofPiece start (Piece.first c cs), t.lexeme.isClosed) :
    Cut start (ofPiece start (Piece.first c cs) ++ pre) post ((Piece.first c cs).taken ++ before) after := by
  have hlength : start + byteLength ((Piece.first c cs).taken ++ before) =
      start + byteLength (Piece.first c cs).taken + byteLength before := by
    rw [byteLength_append, Nat.add_assoc]
  refine ⟨h.after_eq_nil, ?_, ?_⟩
  · intro t ht
    rw [hlength, h.start_eq t ht]
  · intro more hmore
    have hcontinues : Continues (Piece.first c cs).rest (before ++ more) := by
      rw [hrest]
      exact hmore.append_left before
    rw [List.append_assoc, scanFrom_taken_append hclosed hcontinues, h.scanFrom_eq more hmore, hlength,
      List.append_assoc]

/-- **The first tokens of a text can be cut off,** provided that all strings among them are closed. -/
theorem exists_cut {start : Nat} {cs : List Char} {pre post : List Token} (h : scanFrom start cs = pre ++ post)
    (hclosed : ∀ t ∈ pre, t.lexeme.isClosed) :
    ∃ before after, cs = before ++ after ∧ Cut start pre post before after := by
  -- A piece may take any number of characters, so the induction is on how many there are.
  induction hlength : cs.length using Nat.strong_induction_on generalizing start cs pre with
  | _ n ih =>
      cases cs with
      | nil =>
          obtain ⟨rfl, rfl⟩ : pre = [] ∧ post = [] := by simpa [scanFrom] using h
          exact ⟨[], [], rfl, fun _ => rfl, by simp, fun more _ => rfl⟩
      | cons c cs =>
          have hlt : (Piece.first c cs).rest.length < n := hlength ▸ Piece.length_rest_first_lt c cs
          have hall := Piece.first_taken_append_rest c cs
          -- The cut lies behind the first piece, unless that piece makes a token of `post`.
          have hbehind : ∀ pre', pre = ofPiece start (Piece.first c cs) ++ pre' →
              scanFrom (start + byteLength (Piece.first c cs).taken) (Piece.first c cs).rest = pre' ++ post →
              ∃ before after, c :: cs = before ++ after ∧ Cut start pre post before after := by
            rintro pre' rfl hscan
            obtain ⟨before, after, hrest, hcut⟩ :=
              ih _ hlt hscan (fun t ht => hclosed t (List.mem_append_right _ ht)) rfl
            refine ⟨(Piece.first c cs).taken ++ before, after, ?_, hcut.piece hrest ?_⟩
            · rw [List.append_assoc, ← hrest, hall]
            · exact fun t ht => hclosed t (List.mem_append_left _ ht)
          rw [scanFrom_cons] at h
          rcases ofPiece_cases start (Piece.first c cs) with hnone | ⟨t, ht, hstart⟩
          · rw [hnone] at h hbehind
            exact hbehind pre rfl h
          · rw [ht] at h hbehind
            cases pre with
            | nil =>
                obtain rfl : _ = post := h
                exact ⟨[], c :: cs, rfl, by simp, by simp [hstart, byteLength], fun more _ => rfl⟩
            | cons t' pre' =>
                injection h with hhead htail
                exact hbehind pre' (by rw [hhead]; rfl) htail

/-- After a text whose strings are all closed, a line break starts afresh. -/
theorem scanFrom_append {start : Nat} {cs : List Char} (hclosed : ∀ t ∈ scanFrom start cs, t.lexeme.isClosed)
    (more : List Char) :
    scanFrom start (cs ++ '\n' :: more) = scanFrom start cs ++ scanFrom (start + byteLength cs) ('\n' :: more) := by
  obtain ⟨before, after, rfl, hcut⟩ := exists_cut (List.append_nil _).symm hclosed
  obtain rfl : after = [] := hcut.after_eq_nil rfl
  rw [List.append_nil] at hcut ⊢
  exact hcut.scanFrom_eq _ (Or.inr (Or.inr rfl))

/-- A line break and what follows it change none of the first tokens, provided that all strings among them are
closed. -/
theorem exists_scanFrom_append_eq {start : Nat} {cs : List Char} {pre post : List Token}
    (h : scanFrom start cs = pre ++ post) (hclosed : ∀ t ∈ pre, t.lexeme.isClosed) (more : List Char) :
    ∃ post', scanFrom start (cs ++ '\n' :: more) = pre ++ post' := by
  obtain ⟨before, after, rfl, hcut⟩ := exists_cut h hclosed
  refine ⟨scanFrom (start + byteLength before) (after ++ '\n' :: more), ?_⟩
  rw [List.append_assoc]
  apply hcut.scanFrom_eq
  cases after with
  | nil       => exact Or.inr (Or.inr rfl)
  | cons d ds => exact Or.inl rfl

/-- A text that ends where a token would start has the tokens before it. -/
theorem exists_scanFrom_eq_of_start {start : Nat} {cs : List Char} {pre post : List Token} {t : Token}
    (h : scanFrom start cs = pre ++ t :: post) (hclosed : ∀ t ∈ pre, t.lexeme.isClosed) :
    ∃ before after, cs = before ++ after ∧ t.start = start + byteLength before ∧ scanFrom start before = pre := by
  obtain ⟨before, after, rfl, hcut⟩ := exists_cut h hclosed
  refine ⟨before, after, rfl, hcut.start_eq t rfl, ?_⟩
  have hend := hcut.scanFrom_eq [] (Or.inr (Or.inl rfl))
  simpa [scanFrom] using hend

end Token

end SmallLisp
