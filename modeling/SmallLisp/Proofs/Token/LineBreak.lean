import Mathlib
import SmallLisp.Proofs.Token.Layout

/-!
# `SmallLisp.Proofs.Token.LineBreak` — texts that are joined at a line break

A line break ends whatever stands before it, unless that is a string without its closing quote. So the tokens of two
texts with a line break between them are those of the first one and those of the second one, the latter moved along,
and any more blanks, commas and comments between the texts only move them further.

## Contents
* **Moved tokens** `Token.shift`: a scan that starts later gives the same tokens further on (`Token.scanFrom_shift`).
* **Fillers** `Filler`, after which a scan goes on as if it started there.
* **Closing quotes** as characters, `Lexeme.isClosed_of_inner`.
* **The result** `scan_append_line_break`, with texts that would merge without the line break.
-/

namespace SmallLisp

open Text

/-! ## Moved tokens -/

namespace Token

/-- The token so many bytes further on. -/
def shift (n : Nat) (t : Token) : Token := { t with start := t.start + n, stop := t.stop + n }

/-- Where a text starts makes no difference to its tokens but for their places. -/
theorem scanFrom_shift (n start : Nat) (cs : List Char) :
    scanFrom (start + n) cs = (scanFrom start cs).map (shift n) := by
  fun_induction scanFrom start cs with
  | case1 start => rw [scanFrom, List.map_nil]
  | case2 start c cs piece stop hnone ih =>
      have hstop : start + n + byteLength piece.taken = stop + n := Nat.add_right_comm start n _
      rw [scanFrom]
      simp only [piece] at hnone hstop ih ⊢
      rw [hnone, hstop, ih]
  | case3 start c cs piece stop lexeme hlexeme ih =>
      have hstop : start + n + byteLength piece.taken = stop + n := Nat.add_right_comm start n _
      rw [scanFrom]
      simp only [piece] at hlexeme hstop ih ⊢
      rw [hlexeme, hstop, ih, List.map_cons, shift]

end Token

/-! ## Fillers -/

/-- Blanks, commas and comments, each comment with the line feed that ends it. -/
inductive Filler : List Char → Prop where
  | nil : Filler []
  | blank {c : Char} {cs : List Char} : isBlank c = true ∨ c = ',' → Filler cs → Filler (c :: cs)
  | comment {w cs : List Char} : '\n' ∉ w → Filler cs → Filler (';' :: (w ++ '\n' :: cs))

/-- A filler says nothing, whatever comes after it. -/
theorem Filler.separates {cs : List Char} (h : Filler cs) (rest : List Char) : Separates rest cs := by
  induction h with
  | nil => exact Separates.nil
  | blank hc _ ih => exact Separates.blank hc ih
  | comment hw _ ih =>
      refine Separates.comment hw ?_ (Separates.blank (Or.inl (by decide)) ih)
      intro c hc
      exact (Option.some.inj hc).symm

/-! ## Closing quotes -/

/-- Whatever can stand between quotes spells something. -/
theorem Text.Quoted.Inner.exists_spells {w : List Char} (h : Inner w) : ∃ content, Spells w content := by
  induction h with
  | nil => exact ⟨[], Spells.nil⟩
  | plain hquote hslash _ ih =>
      obtain ⟨content, hspells⟩ := ih
      exact ⟨_, Spells.plain hquote hslash hspells⟩
  | @escaped c w _ _ ih =>
      obtain ⟨content, hspells⟩ := ih
      by_cases hn : c = 'n'
      · subst hn
        exact ⟨_, Spells.newline hspells⟩
      · by_cases hquote : c = '\x22'
        · subst hquote
          exact ⟨_, Spells.quote hspells⟩
        · by_cases hslash : c = '\\'
          · subst hslash
            exact ⟨_, Spells.backslash hspells⟩
          · exact ⟨_, Spells.kept hn hquote hslash hspells⟩

/-- A string is closed if a quote stands after what can stand between quotes. -/
theorem Lexeme.isClosed_of_inner {raw : String} {w : List Char} (hw : Quoted.Inner w)
    (hraw : raw.toList = '\x22' :: (w ++ ['\x22'])) : (Lexeme.string raw).isClosed = true := by
  obtain ⟨content, hspells⟩ := hw.exists_spells
  have hdecode : Quoted.decode? raw.toList = some (content, []) := by
    rw [hraw]
    exact Quoted.decodeBody?_of_spells hspells []
  rw [isClosed, hdecode, Option.isSome_some]

/-! ## The result -/

/-- **A line break separates texts.** If every string of a text has its closing quote, and a line break follows the
text, then fillers and then another text, the tokens of the whole are those of the first text and after them those of
the other one, which start later by the bytes in front of that. -/
theorem scan_append_line_break {a gap b : String} {filler : List Char} (hgap : gap.toList = '\n' :: filler)
    (hfiller : Filler filler)
    (hclosed : ∀ t ∈ Token.scan a, ∀ raw, t.lexeme = .string raw →
      ∃ w, Quoted.Inner w ∧ raw.toList = '\x22' :: (w ++ ['\x22'])) :
    Token.scan (a ++ gap ++ b) =
      Token.scan a ++ (Token.scan b).map (Token.shift (byteLength a.toList + byteLength gap.toList)) := by
  have hclosed' : ∀ t ∈ Token.scanFrom 0 a.toList, t.lexeme.isClosed := by
    intro t ht
    cases hlexeme : t.lexeme with
    | string raw =>
        obtain ⟨w, hw, hraw⟩ := hclosed t ht raw hlexeme
        exact Lexeme.isClosed_of_inner hw hraw
    | _ => rfl
  have hgapFiller : Filler gap.toList := hgap ▸ Filler.blank (Or.inl (by decide)) hfiller
  calc Token.scan (a ++ gap ++ b)
      = Token.scanFrom 0 (a.toList ++ '\n' :: (filler ++ b.toList)) := by
        rw [Token.scan, String.toList_append, String.toList_append, hgap, List.append_assoc, List.cons_append]
    _ = Token.scanFrom 0 a.toList ++ Token.scanFrom (0 + byteLength a.toList) (gap.toList ++ b.toList) := by
        rw [Token.scanFrom_append hclosed', hgap, List.cons_append]
    _ = Token.scanFrom 0 a.toList ++
          Token.scanFrom (0 + byteLength a.toList + byteLength gap.toList) b.toList := by
        rw [Token.scanFrom_append_of_separates (hgapFiller.separates b.toList)]
    _ = Token.scan a ++ (Token.scan b).map (Token.shift (byteLength a.toList + byteLength gap.toList)) := by
        rw [Nat.add_assoc, Token.scanFrom_shift]
        rfl

/-- The comment at the end of the first text would take in the second text if no line break came between. -/
theorem scan_after_comment :
    let a := "\"\\\"é\" ~;c"
    let gap := "\n;~\n\u3000,"
    let b := "@x"
    Token.scan a = [⟨.string "\"\\\"é\"", 0, 6⟩, ⟨.mark .unquote, 7, 8⟩] ∧
    Token.scan b = [⟨.deref, 0, 1⟩, ⟨.atom "x", 1, 2⟩] ∧
    Token.scan (a ++ gap ++ b) =
      [⟨.string "\"\\\"é\"", 0, 6⟩, ⟨.mark .unquote, 7, 8⟩, ⟨.deref, 18, 19⟩, ⟨.atom "x", 19, 20⟩] := by
  intro a gap b
  have ha : Token.scan a = [⟨.string "\"\\\"é\"", 0, 6⟩, ⟨.mark .unquote, 7, 8⟩] := by
    simp only [a]
    cbv
  have hb : Token.scan b = [⟨.deref, 0, 1⟩, ⟨.atom "x", 1, 2⟩] := by
    simp only [b]
    cbv
  have hgap : gap.toList = '\n' :: [';', '~', '\n', '\u3000', ','] := by
    simp only [gap]
    cbv
  have hfiller : Filler [';', '~', '\n', '\u3000', ','] :=
    Filler.comment (w := ['~']) (by decide)
      (Filler.blank (Or.inl (by decide)) (Filler.blank (Or.inr rfl) Filler.nil))
  have hclosed : ∀ t ∈ Token.scan a, ∀ raw, t.lexeme = .string raw →
      ∃ w, Quoted.Inner w ∧ raw.toList = '\x22' :: (w ++ ['\x22']) := by
    rw [ha]
    intro t ht raw hraw
    rcases List.mem_cons.mp ht with rfl | ht
    · cases hraw
      have hinner : Quoted.Inner ['\\', '\x22', 'é'] :=
        Quoted.Inner.escaped (by decide) (Quoted.Inner.plain (by decide) (by decide) Quoted.Inner.nil)
      exact ⟨_, hinner, by cbv⟩
    · obtain rfl := List.mem_singleton.mp ht
      cases hraw
  refine ⟨ha, hb, ?_⟩
  rw [scan_append_line_break hgap hfiller hclosed, ha, hb]
  simp only [a, gap]
  cbv

end SmallLisp
