import SmallLisp.Proofs.Token.Cut

/-!
# `SmallLisp.Proofs.Token.Layout` — a text is its tokens and what stands between them

Cutting a text into tokens loses nothing of it and adds nothing to it. This is said by a relation, `Token.Layout`,
that puts a text together from gaps and lexemes and mentions no scanner: a gap is made of blanks, commas and
comments, and a lexeme ends where its kind says that it must. The relation holds between a text and its tokens, and
between that text and no others.

## Contents
* **Gaps** `Separates`.
* **Strings.** `Text.Quoted.Inner` and `Text.Quoted.Stops` say which characters a string takes, and that is what
  `cutString` computes (`cutString_cases`, `cutString_append_of_inner`).
* **Lexemes** `Lexeme.EndsBefore`, which is what a piece is (`Piece.endsBefore_first`, `Piece.exists_first_eq`).
* **Layouts** `Token.Layout`, their order and their parts, and `scanFrom_eq_iff_layout`.
* **The result** `scan_covers`.
-/

namespace SmallLisp

open Text

/-! ## Gaps -/

/-- The characters that end an atom: White_Space, the comma and the semicolon, all brackets and all quotes. -/
def IsDelimiter (c : Char) : Prop :=
  isBlank c = true ∨ c ∈ [',', ';', '(', ')', '[', ']', '{', '}', '\x27', '\x60', '\x22']

theorem isAtomChar_iff {c : Char} : isAtomChar c = true ↔ ¬ IsDelimiter c := by
  simp only [isAtomChar, isGap, isAtomStop, IsDelimiter, Bool.and_eq_true, Bool.not_eq_true', Bool.or_eq_false_iff,
    beq_eq_false_iff_ne, decide_eq_false_iff_not, List.mem_cons, List.not_mem_nil, or_false, not_or,
    Bool.not_eq_true]
  tauto

/-- Some characters say nothing where the text goes on with `rest`: blanks, commas and comments. -/
inductive Separates (rest : List Char) : List Char → Prop where
  | nil : Separates rest []
  | blank {c : Char} {gap : List Char} :
      isBlank c = true ∨ c = ',' → Separates rest gap → Separates rest (c :: gap)
  /-- A comment goes on to the end of its line, or of the text. -/
  | comment {w gap : List Char} :
      '\n' ∉ w → (∀ c, (gap ++ rest).head? = some c → c = '\n') → Separates rest gap →
      Separates rest (';' :: (w ++ gap))

theorem isGap_iff {c : Char} : isGap c = true ↔ isBlank c = true ∨ c = ',' := by
  rw [isGap, Bool.or_eq_true, beq_iff_eq]

theorem isCommentChar_iff {c : Char} : isCommentChar c = true ↔ c ≠ '\n' := by
  rw [isCommentChar, bne_iff_ne]

/-! ## Strings -/

namespace Text.Quoted

/-- The characters can stand between the quotes of a string: a quote is among them only if a backslash takes it
along, and a backslash takes any character but a line feed. -/
inductive Inner : List Char → Prop where
  | nil : Inner []
  | plain {c : Char} {w : List Char} : c ≠ '\x22' → c ≠ '\\' → Inner w → Inner (c :: w)
  | escaped {c : Char} {w : List Char} : c ≠ '\n' → Inner w → Inner ('\\' :: c :: w)

/-- A string that has found no closing quote stops here: at the end of the text, or before a backslash that has
nothing to take. -/
def Stops (rest : List Char) : Prop := rest = [] ∨ rest = ['\\'] ∨ ∃ more, rest = '\\' :: '\n' :: more

end Text.Quoted

open Text.Quoted in
/-- A string ends with its first free quote, or stops where there is none. -/
theorem cutString_cases (cs : List Char) :
    ∃ w, Inner w ∧ ((cutString cs).1 = w ++ ['\x22'] ∨ (cutString cs).1 = w ∧ Stops (cutString cs).2) := by
  fun_induction cutString cs with
  | case1 => exact ⟨[], Inner.nil, Or.inr ⟨rfl, Or.inl rfl⟩⟩
  | case2 rest => exact ⟨[], Inner.nil, Or.inl rfl⟩
  | case3 => exact ⟨[], Inner.nil, Or.inr ⟨rfl, Or.inr (Or.inl rfl)⟩⟩
  | case4 rest => exact ⟨[], Inner.nil, Or.inr ⟨rfl, Or.inr (Or.inr ⟨rest, rfl⟩)⟩⟩
  | case5 c rest hc ih =>
      obtain ⟨w, hw, hbody | ⟨hbody, hstops⟩⟩ := ih
      · exact ⟨'\\' :: c :: w, Inner.escaped hc hw, Or.inl (by rw [hbody]; rfl)⟩
      · exact ⟨'\\' :: c :: w, Inner.escaped hc hw, Or.inr ⟨by rw [hbody], hstops⟩⟩
  | case6 c rest hquote hslash hmore ih =>
      have hplain : c ≠ '\\' := by
        rintro rfl
        cases rest with
        | nil       => exact hslash rfl rfl
        | cons d ds => exact hmore d ds rfl rfl
      obtain ⟨w, hw, hbody | ⟨hbody, hstops⟩⟩ := ih
      · exact ⟨c :: w, Inner.plain hquote hplain hw, Or.inl (by rw [hbody]; rfl)⟩
      · exact ⟨c :: w, Inner.plain hquote hplain hw, Or.inr ⟨by rw [hbody], hstops⟩⟩

theorem cutString_append_of_inner {w : List Char} (h : Quoted.Inner w) (more : List Char) :
    cutString (w ++ more) = (w ++ (cutString more).1, (cutString more).2) := by
  induction h with
  | nil => rfl
  | plain hquote hslash _ ih => rw [List.cons_append, cutString_cons_plain hquote hslash, ih, List.cons_append]
  | escaped hc _ ih => simp [cutString, hc, ih]

theorem cutString_of_stops {rest : List Char} (h : Quoted.Stops rest) : cutString rest = ([], rest) := by
  rcases h with rfl | rfl | ⟨more, rfl⟩
  · rfl
  · rfl
  · simp [cutString]

/-! ## Lexemes -/

/-- What a lexeme looks like that ends just before `rest`. Brackets and most marks are the same before any text. -/
def Lexeme.EndsBefore (rest : List Char) : Lexeme → Prop
  | string raw    =>
    ∃ w, Quoted.Inner w ∧ (raw.toList = '\x22' :: (w ++ ['\x22']) ∨ raw.toList = '\x22' :: w ∧ Quoted.Stops rest)
  | atom text     =>
    (∃ c cs, text.toList = c :: cs ∧ c ∉ ['~', '^', '@']) ∧ (∀ c ∈ text.toList, ¬ IsDelimiter c) ∧
      ∀ c, rest.head? = some c → IsDelimiter c
  | mark .unquote => rest.head? ≠ some '@'
  | _             => True

/-- A string that ends where it must is cut off there. -/
theorem Lexeme.exists_cutString_eq {raw : String} {rest : List Char} (h : (string raw).EndsBefore rest) :
    ∃ body, raw.toList = '\x22' :: body ∧ cutString (body ++ rest) = (body, rest) := by
  obtain ⟨w, hw, hraw | ⟨hraw, hstops⟩⟩ := h
  · refine ⟨w ++ ['\x22'], hraw, ?_⟩
    rw [List.append_assoc, cutString_append_of_inner hw]
    rfl
  · refine ⟨w, hraw, ?_⟩
    rw [cutString_append_of_inner hw, cutString_of_stops hstops, List.append_nil]

namespace Piece

theorem endsBefore_of_ofChar? {c : Char} {lexeme : Lexeme} (h : Lexeme.ofChar? c = some lexeme) (rest : List Char) :
    lexeme.text.toList = [c] ∧ lexeme.EndsBefore rest := by
  unfold Lexeme.ofChar? at h
  split at h <;> cases h <;> exact ⟨rfl, trivial⟩

/-- A piece that makes a lexeme is its text, and it ends where the lexeme must end. -/
theorem endsBefore_first {c : Char} {cs : List Char} {lexeme : Lexeme} (h : (first c cs).lexeme? = some lexeme) :
    (first c cs).taken = lexeme.text.toList ∧ lexeme.EndsBefore (first c cs).rest := by
  rcases kind_cases c with hgap | rfl | rfl | rfl | ⟨single, hchar⟩ | hstart
  · rw [first_gap hgap] at h
    cases h
  · rw [first_comment] at h
    cases h
  · rw [first_string] at h ⊢
    cases h
    refine ⟨String.toList_ofList.symm, ?_⟩
    obtain ⟨w, hw, hbody | ⟨hbody, hstops⟩⟩ := cutString_cases cs
    · exact ⟨w, hw, Or.inl (by rw [String.toList_ofList, hbody])⟩
    · exact ⟨w, hw, Or.inr ⟨by rw [String.toList_ofList, hbody], hstops⟩⟩
  · by_cases hsplice : cs.head? = some '@'
    · obtain ⟨ds, rfl⟩ := List.head?_eq_some_iff.mp hsplice
      rw [first_splice] at h ⊢
      cases h
      exact ⟨rfl, trivial⟩
    · rw [first_unquote hsplice] at h ⊢
      cases h
      exact ⟨rfl, hsplice⟩
  · rw [first_ofChar? hchar] at h ⊢
    cases h
    obtain ⟨htext, hends⟩ := endsBefore_of_ofChar? hchar cs
    exact ⟨htext.symm, hends⟩
  · rw [first_atom hstart] at h ⊢
    cases h
    have htext : (String.ofList (c :: cs.takeWhile isAtomChar)).toList = c :: cs.takeWhile isAtomChar :=
      String.toList_ofList
    refine ⟨htext.symm, ⟨c, _, htext, ?_⟩, ?_, ?_⟩
    · rw [isAtomStart, Bool.and_eq_true] at hstart
      simpa using hstart.2
    · intro d hd
      rw [htext] at hd
      rcases List.mem_cons.mp hd with rfl | hd
      · exact isAtomChar_iff.mp (isAtomChar_of_isAtomStart hstart)
      · exact isAtomChar_iff.mp (List.mem_takeWhile_imp hd)
    · intro d hd
      have hstop := List.head?_dropWhile_not isAtomChar cs
      rw [hd] at hstop
      by_contra hdelimiter
      exact Bool.false_ne_true (hstop.symm.trans (isAtomChar_iff.mpr hdelimiter))

/-- A piece that makes no lexeme is a gap before whatever gap follows it. -/
theorem separates_first {c : Char} {cs gap rest : List Char} (h : (first c cs).lexeme? = none)
    (hrest : (first c cs).rest = gap ++ rest) (hgap : Separates rest gap) :
    Separates rest ((first c cs).taken ++ gap) := by
  rcases kind_cases c with hblank | rfl | rfl | rfl | ⟨single, hchar⟩ | hstart
  · rw [first_gap hblank]
    exact Separates.blank (isGap_iff.mp hblank) hgap
  · rw [first_comment] at hrest ⊢
    refine Separates.comment ?_ ?_ hgap
    · intro hmem
      exact isCommentChar_iff.mp (List.mem_takeWhile_imp hmem) rfl
    · intro d hd
      have hstop := List.head?_dropWhile_not isCommentChar cs
      rw [show cs.dropWhile isCommentChar = gap ++ rest from hrest, hd] at hstop
      by_contra hne
      exact Bool.false_ne_true (hstop.symm.trans (isCommentChar_iff.mpr hne))
  -- Any other character begins a lexeme.
  · rw [first_string] at h
    cases h
  · by_cases hsplice : cs.head? = some '@'
    · obtain ⟨ds, rfl⟩ := List.head?_eq_some_iff.mp hsplice
      rw [first_splice] at h
      cases h
    · rw [first_unquote hsplice] at h
      cases h
  · rw [first_ofChar? hchar] at h
    cases h
  · rw [first_atom hstart] at h
    cases h

/-- Where a lexeme ends, the piece that is cut off is that lexeme. -/
theorem exists_first_eq {lexeme : Lexeme} {rest : List Char} (h : lexeme.EndsBefore rest) :
    ∃ c tail, lexeme.text.toList = c :: tail ∧ first c (tail ++ rest) = ⟨some lexeme, c :: tail, rest⟩ := by
  cases lexeme with
  | opening b =>
      have hchar := Lexeme.ofChar?_opener b
      exact ⟨b.opener, [], (endsBefore_of_ofChar? hchar rest).1, first_ofChar? hchar rest⟩
  | closing b =>
      have hchar := Lexeme.ofChar?_closer b
      exact ⟨b.closer, [], (endsBefore_of_ofChar? hchar rest).1, first_ofChar? hchar rest⟩
  | mark m =>
      cases m with
      | quote         => exact ⟨'\x27', [], rfl, first_ofChar? rfl rest⟩
      | quasiquote    => exact ⟨'\x60', [], rfl, first_ofChar? rfl rest⟩
      | unquote       => exact ⟨'~', [], rfl, first_unquote h⟩
      | spliceUnquote => exact ⟨'~', ['@'], rfl, first_splice rest⟩
  | withMeta => exact ⟨'^', [], rfl, first_ofChar? rfl rest⟩
  | deref    => exact ⟨'@', [], rfl, first_ofChar? rfl rest⟩
  | string raw =>
      obtain ⟨body, hraw, hcut⟩ := Lexeme.exists_cutString_eq h
      exact ⟨'\x22', body, hraw, by rw [first_string, hcut, ← hraw, String.ofList_toList]⟩
  | atom text =>
      obtain ⟨⟨c, tail, htext, hc⟩, hchars, hrest⟩ := h
      rw [htext] at hchars
      obtain ⟨hfirst, htail⟩ := List.forall_mem_cons.mp hchars
      have hstart : isAtomStart c = true := by
        rw [isAtomStart, Bool.and_eq_true]
        exact ⟨isAtomChar_iff.mpr hfirst, by simpa using hc⟩
      have hends : ∀ d, rest.head? = some d → isAtomChar d = false := by
        intro d hd
        rw [Bool.eq_false_iff, ne_eq, isAtomChar_iff, not_not]
        exact hrest d hd
      obtain ⟨htake, hdrop⟩ := takeWhile_append_of_head? (fun d hd => isAtomChar_iff.mpr (htail d hd)) hends
      exact ⟨c, tail, htext, by rw [first_atom hstart, htake, hdrop, ← htext, String.ofList_toList]⟩

end Piece

/-! ## Layouts -/

namespace Token

/-- A text that starts at the byte offset `start` is put together from these tokens and the gaps around them. -/
inductive Layout : Nat → List Char → List Token → Prop where
  | done {start : Nat} {gap : List Char} : Separates [] gap → Layout start gap []
  | token {start : Nat} {gap rest : List Char} {t : Token} {ts : List Token} :
      Separates (t.lexeme.text.toList ++ rest) gap → t.lexeme.EndsBefore rest →
      t.start = start + byteLength gap → t.stop = t.start + byteLength t.lexeme.text.toList →
      Layout t.stop rest ts → Layout start (gap ++ (t.lexeme.text.toList ++ rest)) (t :: ts)

/-! ### A text has the layout of its tokens -/

/-- A gap may be put before a layout. -/
theorem Layout.append_left {start : Nat} {w cs : List Char} {ts : List Token}
    (h : Layout (start + byteLength w) cs ts)
    (hw : ∀ gap rest, cs = gap ++ rest → Separates rest gap → Separates rest (w ++ gap)) :
    Layout start (w ++ cs) ts := by
  cases h with
  | done hgap => exact Layout.done (hw cs [] (List.append_nil cs).symm hgap)
  | @token _ gap rest t ts hgap hends hstart hstop hrest =>
      rw [← List.append_assoc]
      refine Layout.token (hw gap _ rfl hgap) hends ?_ hstop hrest
      rw [hstart, byteLength_append, Nat.add_assoc]

theorem layout_scanFrom (start : Nat) (cs : List Char) : Layout start cs (scanFrom start cs) := by
  fun_induction scanFrom start cs with
  | case1 start => exact Layout.done Separates.nil
  | case2 start c cs piece stop hnone ih =>
      rw [← Piece.first_taken_append_rest c cs]
      exact ih.append_left fun gap rest hrest hgap => Piece.separates_first hnone hrest hgap
  | case3 start c cs piece stop lexeme hlexeme ih =>
      obtain ⟨htaken, hends⟩ := Piece.endsBefore_first hlexeme
      have hall := Piece.first_taken_append_rest c cs
      have hstop : stop = start + byteLength lexeme.text.toList := by rw [← htaken]
      rw [htaken] at hall
      rw [← hall]
      exact Layout.token (t := ⟨lexeme, start, stop⟩) Separates.nil hends rfl hstop ih

/-! ### It has no other -/

theorem scanFrom_append_of_separates {gap rest : List Char} (h : Separates rest gap) (start : Nat) :
    scanFrom start (gap ++ rest) = scanFrom (start + byteLength gap) rest := by
  induction h generalizing start with
  | nil => rfl
  | @blank c gap hc _ ih =>
      rw [List.cons_append, scanFrom_cons, Piece.first_gap (isGap_iff.mpr hc), byteLength, byteLength, byteLength]
      simp only [ofPiece, Option.toList_none, List.map_nil, List.nil_append, Nat.add_zero]
      rw [ih, Nat.add_assoc]
  | @comment w gap hw hnext _ ih =>
      have hchars : ∀ d ∈ w, isCommentChar d = true := by
        intro d hd
        rw [isCommentChar_iff]
        rintro rfl
        exact hw hd
      have hends : ∀ d, (gap ++ rest).head? = some d → isCommentChar d = false := by
        intro d hd
        rw [hnext d hd]
        decide
      obtain ⟨htake, hdrop⟩ := takeWhile_append_of_head? hchars hends
      rw [List.cons_append, List.append_assoc, scanFrom_cons, Piece.first_comment, htake, hdrop]
      simp only [ofPiece, Option.toList_none, List.map_nil, List.nil_append]
      rw [ih, ← List.cons_append, byteLength_append, Nat.add_assoc]

theorem scanFrom_of_layout {start : Nat} {cs : List Char} {ts : List Token} (h : Layout start cs ts) :
    scanFrom start cs = ts := by
  induction h with
  | @done start gap hgap =>
      have hscan := scanFrom_append_of_separates hgap start
      rw [List.append_nil] at hscan
      rw [hscan, scanFrom]
  | @token start gap rest t ts hgap hends hstart hstop _ ih =>
      obtain ⟨c, tail, htext, hfirst⟩ := Piece.exists_first_eq hends
      rw [scanFrom_append_of_separates hgap, ← hstart, htext, List.cons_append, scanFrom_cons, hfirst, ← htext,
        ← hstop, ih]
      simp only [ofPiece, Option.toList_some, List.map_cons, List.map_nil, List.cons_append, List.nil_append,
        ← hstop]

/-- **The tokens of a text are the ones that it can be put together from.** -/
theorem scanFrom_eq_iff_layout {start : Nat} {cs : List Char} {ts : List Token} :
    scanFrom start cs = ts ↔ Layout start cs ts := by
  constructor
  · rintro rfl
    exact layout_scanFrom start cs
  · exact scanFrom_of_layout

/-! ### Order and places -/

theorem byteLength_text_pos {lexeme : Lexeme} {rest : List Char} (h : lexeme.EndsBefore rest) :
    0 < byteLength lexeme.text.toList := by
  obtain ⟨c, tail, htext, -⟩ := Piece.exists_first_eq h
  rw [htext, byteLength]
  exact Nat.add_pos_left c.utf8Size_pos _

namespace Layout

variable {start : Nat} {cs : List Char} {ts : List Token}

theorem start_le (h : Layout start cs ts) : ∀ t ∈ ts, start ≤ t.start := by
  induction h with
  | done => nofun
  | token hgap hends hstart hstop hrest ih =>
      refine List.forall_mem_cons.mpr ⟨by omega, fun u hu => ?_⟩
      have hu := ih u hu
      omega

/-- Every token ends before the next one starts. -/
theorem pairwise (h : Layout start cs ts) : ts.Pairwise fun t u => t.stop ≤ u.start := by
  induction h with
  | done => exact List.Pairwise.nil
  | token hgap hends hstart hstop hrest ih => exact List.pairwise_cons.mpr ⟨hrest.start_le, ih⟩

/-- The text of a token stands in the source at the place of the token. -/
theorem exists_place (h : Layout start cs ts) : ∀ t ∈ ts, t.start < t.stop ∧
    ∃ before after, cs = before ++ (t.lexeme.text.toList ++ after) ∧ t.start = start + byteLength before ∧
      t.stop = t.start + byteLength t.lexeme.text.toList ∧ t.lexeme.EndsBefore after := by
  induction h with
  | done => nofun
  | @token start gap rest t ts hgap hends hstart hstop hrest ih =>
      refine List.forall_mem_cons.mpr ⟨⟨?_, gap, rest, rfl, hstart, hstop, hends⟩, fun u hu => ?_⟩
      · have hpos := byteLength_text_pos hends
        omega
      · obtain ⟨hlt, before, after, rfl, hustart, hustop, huends⟩ := ih u hu
        refine ⟨hlt, gap ++ (t.lexeme.text.toList ++ before), after, ?_, ?_, hustop, huends⟩
        · simp only [List.append_assoc]
        · rw [byteLength_append, byteLength_append]
          omega

end Layout

end Token

/-! ## The result -/

/-- **Cutting a text into tokens loses nothing and invents nothing.** The text is put together from its tokens and
the gaps around them, and from no other tokens in this way. The tokens come in order and do not overlap. Each takes
at least one byte, its text is what the source has from its first byte to its last, and it ends where its kind says
that it must: an atom before a delimiter, a string after its first free quote, or, when it has none, at the end of
the text or before a backslash that has nothing to take. -/
theorem scan_covers (source : String) :
    (∀ ts, Token.scan source = ts ↔ Token.Layout 0 source.toList ts) ∧
    (Token.scan source).Pairwise (fun t u => t.stop ≤ u.start) ∧
    ∀ t ∈ Token.scan source, t.start < t.stop ∧
      ∃ before after, source.toList = before ++ (t.lexeme.text.toList ++ after) ∧ t.start = byteLength before ∧
        t.stop = t.start + byteLength t.lexeme.text.toList ∧ t.lexeme.EndsBefore after := by
  have hlayout : Token.Layout 0 source.toList (Token.scan source) := Token.layout_scanFrom 0 source.toList
  refine ⟨fun ts => Token.scanFrom_eq_iff_layout, hlayout.pairwise, fun t ht => ?_⟩
  have hplace := hlayout.exists_place t ht
  simp only [Nat.zero_add] at hplace
  exact hplace

/-- A backslash at the end of a line takes nothing along, so the string before it stops without a closing quote. -/
example : Token.scan "a~b;c\n\"é\\\n~ @" =
    [⟨.atom "a~b", 0, 3⟩, ⟨.string "\"é", 6, 9⟩, ⟨.atom "\\", 9, 10⟩, ⟨.mark .unquote, 11, 12⟩,
      ⟨.deref, 13, 14⟩] := by
  cbv

end SmallLisp
