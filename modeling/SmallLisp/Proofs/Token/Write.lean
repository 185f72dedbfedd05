import Mathlib.Tactic.IntervalCases
import SmallLisp.Proofs.Token.Cut
import SmallLisp.Value.Print

/-!
# `SmallLisp.Proofs.Token.Write` — texts that are cut as they were written

Whoever writes lexemes one after another has to see to it that they are cut apart again. It is enough that the
text of an atom is followed by a character that ends it, and the writer puts a space or a closing bracket there.
`CutsTo` says of some characters which lexemes they make before any such text, and is kept by each way in which
texts are put together.

## Contents
* **Lexemes** of a text, `lexemesOf`, wherever it starts (`map_lexeme_scanFrom`).
* **Written lexemes** `CutsTo`: an atom, a string, a sequence with spaces (`CutsTo.space`), a sequence in brackets
  (`CutsTo.enclosed`).
* **Characters of numbers** may begin and continue atoms (`isAtomStart_of_isDigit`).
-/

namespace SmallLisp

open Text

/-! ## Lexemes -/

/-- The lexemes of some characters, in order. -/
def lexemesOf (cs : List Char) : List Lexeme := (Token.scanFrom 0 cs).map Token.lexeme

/-- The lexeme of a piece, if it makes one. -/
theorem map_lexeme_ofPiece (start : Nat) (piece : Piece) :
    (Token.ofPiece start piece).map Token.lexeme = piece.lexeme?.toList := by
  unfold Token.ofPiece
  cases piece.lexeme? <;> rfl

/-- Where a text starts does not matter to its lexemes. -/
theorem map_lexeme_scanFrom (start : Nat) (cs : List Char) :
    (Token.scanFrom start cs).map Token.lexeme = lexemesOf cs := by
  unfold lexemesOf
  induction hlength : cs.length using Nat.strong_induction_on generalizing cs start with
  | _ n ih =>
      cases cs with
      | nil => simp [Token.scanFrom]
      | cons c cs =>
          have hlt : (Piece.first c cs).rest.length < n := hlength ▸ Piece.length_rest_first_lt c cs
          rw [Token.scanFrom_cons, Token.scanFrom_cons, List.map_append, List.map_append, map_lexeme_ofPiece,
            map_lexeme_ofPiece, ih _ hlt _ _ rfl, ← ih _ hlt (0 + byteLength (Piece.first c cs).taken) _ rfl]

theorem lexemesOf_nil : lexemesOf [] = [] := by
  rw [lexemesOf, Token.scanFrom]
  rfl

theorem lexemesOf_cons (c : Char) (cs : List Char) :
    lexemesOf (c :: cs) = (Piece.first c cs).lexeme?.toList ++ lexemesOf (Piece.first c cs).rest := by
  rw [lexemesOf, Token.scanFrom_cons, List.map_append, map_lexeme_ofPiece, map_lexeme_scanFrom]

theorem lexemesOf_gap {c : Char} (h : isGap c = true) (cs : List Char) : lexemesOf (c :: cs) = lexemesOf cs := by
  rw [lexemesOf_cons, Piece.first_gap h]
  rfl

theorem lexemesOf_space (cs : List Char) : lexemesOf (' ' :: cs) = lexemesOf cs := lexemesOf_gap (by decide) cs

theorem lexemesOf_opener (b : Bracket) (cs : List Char) :
    lexemesOf (b.opener :: cs) = .opening b :: lexemesOf cs := by
  rw [lexemesOf_cons, Piece.first_ofChar? (Lexeme.ofChar?_opener b)]
  rfl

theorem lexemesOf_closer (b : Bracket) (cs : List Char) :
    lexemesOf (b.closer :: cs) = .closing b :: lexemesOf cs := by
  rw [lexemesOf_cons, Piece.first_ofChar? (Lexeme.ofChar?_closer b)]
  rfl

/-! ## Written lexemes -/

/-- A text that ends an atom before it: it is empty, or its first character cannot continue an atom. -/
def EndsAtom (rest : List Char) : Prop := ∀ c, rest.head? = some c → isAtomChar c = false

/-- Some characters make these lexemes, whatever follows that ends an atom. -/
def CutsTo (cs : List Char) (ls : List Lexeme) : Prop :=
  ∀ rest, EndsAtom rest → lexemesOf (cs ++ rest) = ls ++ lexemesOf rest

theorem endsAtom_nil : EndsAtom [] := by
  intro c hc
  cases hc

theorem endsAtom_space (cs : List Char) : EndsAtom (' ' :: cs) := by
  intro c hc
  cases hc
  decide

theorem endsAtom_closer (b : Bracket) (cs : List Char) : EndsAtom (b.closer :: cs) := by
  intro c hc
  cases hc
  cases b <;> decide

theorem cutsTo_nil : CutsTo [] [] := fun _ _ => rfl

/-- Nothing need follow. -/
theorem CutsTo.lexemesOf_eq {cs : List Char} {ls : List Lexeme} (h : CutsTo cs ls) : lexemesOf cs = ls := by
  have hend := h [] endsAtom_nil
  rwa [List.append_nil, lexemesOf_nil, List.append_nil] at hend

theorem CutsTo.map_lexeme_scan {cs : List Char} {ls : List Lexeme} (h : CutsTo cs ls) :
    (Token.scan (String.ofList cs)).map Token.lexeme = ls := by
  rw [Token.scan, String.toList_ofList]
  exact h.lexemesOf_eq

theorem cutsTo_atom {text : String} (h : (Lexeme.atom text).WellCut) : CutsTo text.toList [.atom text] := by
  obtain ⟨c, cs, htext, hstart, hcs⟩ := h
  intro rest hrest
  obtain ⟨htake, hdrop⟩ := takeWhile_append_of_head? hcs hrest
  rw [htext, List.cons_append, lexemesOf_cons, Piece.first_atom hstart, htake, hdrop, ← htext,
    String.ofList_toList]
  rfl

/-- A string that ends with the quote after its body is cut there. -/
theorem cutsTo_string {body : List Char} (h : ∀ rest, cutString (body ++ rest) = (body, rest)) :
    CutsTo ('\x22' :: body) [.string (String.ofList ('\x22' :: body))] := by
  intro rest _
  rw [List.cons_append, lexemesOf_cons, Piece.first_string, h rest]
  rfl

theorem cutsTo_closed {raw : String} (hcut : (Lexeme.string raw).WellCut)
    (hclosed : (Lexeme.string raw).isClosed = true) : CutsTo raw.toList [.string raw] := by
  obtain ⟨cs, hraw⟩ := hcut
  rw [Lexeme.isClosed, hraw] at hclosed
  obtain ⟨⟨content, after⟩, hdecode⟩ := Option.isSome_iff_exists.mp hclosed
  obtain ⟨_, hends⟩ := cutString_of_decodeBody? hdecode
  have hcuts := cutsTo_string hends
  rwa [← hraw, String.ofList_toList] at hcuts

theorem cutString_escape_append (c : Char) (rest : List Char) :
    cutString (Quoted.escape c ++ rest) = (Quoted.escape c ++ (cutString rest).1, (cutString rest).2) := by
  unfold Quoted.escape
  split
  · simp [cutString]
  · split
    · simp [cutString]
    · split
      · simp [cutString]
      · rename_i hquote hslash _
        rw [List.singleton_append, cutString_cons_plain hquote hslash]
        rfl

/-- Inside a written string there is no quote that has not been escaped. -/
theorem cutString_flatMap_escape (cs rest : List Char) :
    cutString (cs.flatMap Quoted.escape ++ '\x22' :: rest) = (cs.flatMap Quoted.escape ++ ['\x22'], rest) := by
  induction cs with
  | nil => rfl
  | cons c cs ih => rw [List.flatMap_cons, List.append_assoc, cutString_escape_append, ih, List.append_assoc]

theorem cutsTo_encode (content : List Char) :
    CutsTo (Quoted.encode content) [.string (String.ofList (Quoted.encode content))] := by
  apply cutsTo_string
  intro rest
  rw [List.append_assoc, List.singleton_append]
  exact cutString_flatMap_escape content rest

theorem CutsTo.space {cs ds : List Char} {ls ms : List Lexeme} (h : CutsTo cs ls) (h' : CutsTo ds ms) :
    CutsTo (cs ++ ' ' :: ds) (ls ++ ms) := by
  intro rest hrest
  rw [List.append_assoc, List.cons_append, h _ (endsAtom_space _), lexemesOf_space, h' rest hrest,
    List.append_assoc]

theorem CutsTo.enclosed {cs : List Char} {ls : List Lexeme} (h : CutsTo cs ls) (b : Bracket) :
    CutsTo (Value.enclosed b cs) (.opening b :: (ls ++ [.closing b])) := by
  intro rest _
  rw [Value.enclosed, List.cons_append, lexemesOf_opener, List.append_assoc, List.singleton_append,
    h _ (endsAtom_closer b rest), lexemesOf_closer, List.cons_append, List.append_assoc, List.singleton_append]

/-! ## Characters of numbers -/

theorem isAtomStart_of_isDigit {c : Char} (h : c.isDigit = true) : isAtomStart c = true := by
  have hrange : 48 ≤ c.toNat ∧ c.toNat ≤ 57 := by
    rw [Char.isDigit, Bool.and_eq_true, decide_eq_true_eq, decide_eq_true_eq] at h
    exact ⟨UInt32.le_iff_toNat_le.mp h.1, UInt32.le_iff_toNat_le.mp h.2⟩
  obtain ⟨hlow, hhigh⟩ := hrange
  rw [← Char.ofNat_toNat c]
  -- There are ten digits.
  generalize c.toNat = n at hlow hhigh
  interval_cases n <;> decide

end SmallLisp
