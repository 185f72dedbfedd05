import SmallLisp.Form.Read
import SmallLisp.Proofs.Token.LineBreak
import SmallLisp.Proofs.Token.Write

/-!
# `SmallLisp.Proofs.Form.Strings` — strings are decoded as they are cut

Backslashes are paired off twice. Where a string is cut from a text a pattern says which characters belong to it, and
there a backslash takes any character along but a line feed. Where the string is decoded a walk looks for the closing
quote, and there a backslash takes any character. The two never disagree, since the cut has already stopped before a
backslash that has nothing to take: a string that is cut off is a match of the pattern, and a match is decoded as a
whole or, if it has no closing quote, not at all.

## Contents
* **The pattern** `Text.Quoted.Matches`, of which `cutString` finds the longest match (`Matches.isPrefix_cutString`).
* **Decoding a match** `Matches.exists_decode?_iff`, `Matches.ne_half_escape`.
* **Reading a string** as a form or as a key succeeds where decoding does (`Reading.feed_string`).
* **Written strings** are cut off whatever follows them (`Token.scanFrom_encode_append`).
* **The result** `strings_decode_as_cut`, with a string that ends with a quote and is open.
-/

namespace SmallLisp

open Text

/-! ## The pattern -/

namespace Text.Quoted

/-- What the pattern of a string matches: an opening quote, characters that can stand inside, and the closing quote or
none. -/
inductive Matches : Bool → List Char → Prop where
  | closed {w : List Char} : Inner w → Matches true ('\x22' :: (w ++ ['\x22']))
  | unclosed {w : List Char} : Inner w → Matches false ('\x22' :: w)

variable {closed : Bool} {raw cs w : List Char}

/-- What is cut off is a match. -/
theorem exists_matches_cutString (cs : List Char) : ∃ closed, Matches closed ('\x22' :: (cutString cs).1) := by
  obtain ⟨w, hw, hbody | ⟨hbody, -⟩⟩ := cutString_cases cs
  · exact ⟨true, by rw [hbody]; exact Matches.closed hw⟩
  · exact ⟨false, by rw [hbody]; exact Matches.unclosed hw⟩

namespace Matches

/-- **It is the longest match** that the text begins with. -/
theorem isPrefix_cutString (h : Matches closed raw) (hraw : raw <+: '\x22' :: cs) :
    raw <+: '\x22' :: (cutString cs).1 := by
  obtain ⟨more, hmore⟩ := hraw
  cases h with
  | @closed w hw =>
      obtain rfl : w ++ ('\x22' :: more) = cs := by simpa using hmore
      rw [cutString_append_of_inner hw]
      exact List.prefix_refl _
  | @unclosed w hw =>
      obtain rfl : w ++ more = cs := by simpa using hmore
      rw [cutString_append_of_inner hw]
      exact ⟨(cutString more).1, rfl⟩

/-- A match is cut off whole. -/
theorem cutString_tail (h : Matches closed raw) : cutString raw.tail = (raw.tail, []) := by
  cases h with
  | closed hw   => exact cutString_append_of_inner hw ['\x22']
  | unclosed hw =>
      have hcut := cutString_append_of_inner hw []
      rwa [List.append_nil, cutString, List.append_nil] at hcut

/-- A match does not end in the middle of an escape: no backslash is left over at its end. -/
theorem ne_half_escape (h : Matches closed raw) (hw : Inner w) : raw ≠ '\x22' :: (w ++ ['\\']) := by
  rintro rfl
  have hcut := h.cutString_tail
  rw [List.tail_cons, cutString_append_of_inner hw] at hcut
  cases congrArg Prod.snd hcut

end Matches

/-! ## Decoding a match -/

/-- Among characters that can stand inside there is no closing quote. -/
theorem decodeBody?_of_inner (h : Inner w) : decodeBody? w = none := by
  induction h with
  | nil                    => rfl
  | plain hquote hslash _ ih => rw [decodeBody?_cons_plain hquote hslash, ih, Option.map_none]
  | escaped _ _ ih         => rw [decodeBody?, ih, Option.map_none]

namespace Matches

theorem exists_decode? (h : Matches true raw) : ∃ content, Denotes raw content ∧ decode? raw = some (content, []) := by
  cases h with
  | closed hw =>
      obtain ⟨content, hspells⟩ := hw.exists_spells
      exact ⟨content, ⟨_, rfl, hspells⟩, decodeBody?_of_spells hspells []⟩

theorem decode?_eq_none (h : Matches false raw) : decode? raw = none := by
  cases h with
  | unclosed hw => exact decodeBody?_of_inner hw

/-- Only a closed match is decoded, and then nothing of it is left over. -/
theorem of_decode? (h : Matches closed raw) {content rest : List Char} (hdecode : decode? raw = some (content, rest)) :
    Matches true raw ∧ Denotes raw content ∧ rest = [] := by
  cases closed with
  | true =>
      obtain ⟨content', hdenotes, hdecode'⟩ := h.exists_decode?
      rw [hdecode] at hdecode'
      cases hdecode'
      exact ⟨h, hdenotes, rfl⟩
  | false =>
      rw [h.decode?_eq_none] at hdecode
      cases hdecode

/-- **A match is decoded just if it has a closing quote.** -/
theorem exists_decode?_iff (h : Matches closed raw) :
    (∃ content rest, decode? raw = some (content, rest)) ↔ Matches true raw := by
  constructor
  · rintro ⟨content, rest, hdecode⟩
    exact (h.of_decode? hdecode).1
  · intro hclosed
    obtain ⟨content, -, hdecode⟩ := hclosed.exists_decode?
    exact ⟨content, [], hdecode⟩

/-- The pattern matches the same characters either with a closing quote or without one. -/
theorem unique {closed' : Bool} (h : Matches closed raw) (h' : Matches closed' raw) : closed' = closed := by
  have hnot : ¬ (Matches true raw ∧ Matches false raw) := by
    rintro ⟨hclosed, hopen⟩
    obtain ⟨content, -, hdecode⟩ := hclosed.exists_decode?
    rw [hopen.decode?_eq_none] at hdecode
    cases hdecode
  cases closed with
  | true  => cases closed' with
    | true  => rfl
    | false => exact absurd ⟨h, h'⟩ hnot
  | false => cases closed' with
    | true  => exact absurd ⟨h', h⟩ hnot
    | false => rfl

end Matches

end Text.Quoted

/-! ## Reading a string -/

/-- Wherever a string is read, it is taken if it can be decoded, and otherwise it is the error. -/
theorem Reading.feed_string {t : Token} {raw : String} (ht : t.lexeme = .string raw) (r : Reading) :
    (Quoted.decode? raw.toList = none ∧ r.feed t = .error (.unterminatedString t.start)) ∨
      ∃ content rest p, Quoted.decode? raw.toList = some (content, rest) ∧ r.feed t = .ok p := by
  cases hdecode : Quoted.decode? raw.toList with
  | none => cases r <;> simp [feed, feedForm, feedKey, ht, hdecode]
  | some pair =>
      obtain ⟨content, rest⟩ := pair
      cases r <;> simp [feed, feedForm, feedKey, ht, hdecode]

/-- So it is taken just if it has a closing quote. -/
theorem Reading.exists_feed_iff {closed : Bool} {t : Token} {raw : String} (ht : t.lexeme = .string raw)
    (h : Quoted.Matches closed raw.toList) (r : Reading) :
    ((∃ p, r.feed t = .ok p) ↔ Quoted.Matches true raw.toList) ∧
      ∀ e, r.feed t = .error e → e = .unterminatedString t.start := by
  rw [← h.exists_decode?_iff]
  rcases r.feed_string ht with ⟨hnone, hfeed⟩ | ⟨content, rest, p, hdecode, hfeed⟩
  · rw [hnone, hfeed]
    refine ⟨iff_of_false nofun nofun, fun e he => ?_⟩
    exact (Except.error.inj he).symm
  · rw [hfeed]
    exact ⟨iff_of_true ⟨p, rfl⟩ ⟨content, rest, hdecode⟩, nofun⟩

/-! ## Written strings -/

/-- A written string is the first token of a text that begins with it. -/
theorem Token.scanFrom_encode_append (start : Nat) (cs rest : List Char) :
    scanFrom start (Quoted.encode cs ++ rest) =
      ⟨.string (String.ofList (Quoted.encode cs)), start, start + byteLength (Quoted.encode cs)⟩ ::
        scanFrom (start + byteLength (Quoted.encode cs)) rest := by
  rw [Quoted.encode, List.cons_append, scanFrom_cons, Piece.first_string, List.append_assoc, List.singleton_append,
    cutString_flatMap_escape]
  rfl

/-! ## The result -/

/-- **Strings are decoded as they are cut.** A string that is cut from a text is the longest match of the pattern at
its place, either with a closing quote or without one, and does not end in the middle of an escape. It can be decoded
just if it is a match with a closing quote, and then it is decoded as a whole, up to this quote; reading it as a form
or as a key succeeds just then, too, and fails with the error that says so and where. The text that is written for a
string is cut off as one token before any text, and decoded to that string. -/
theorem strings_decode_as_cut :
    (∀ source, ∀ t ∈ Token.scan source, ∀ raw, t.lexeme = .string raw →
      (∃ closed before after, source.toList = before ++ (raw.toList ++ after) ∧ t.start = byteLength before ∧
        Quoted.Matches closed raw.toList ∧ (∀ closed', Quoted.Matches closed' raw.toList → closed' = closed) ∧
        ∀ closed' cs, Quoted.Matches closed' cs → cs <+: raw.toList ++ after → cs <+: raw.toList) ∧
      (∀ w, Quoted.Inner w → raw.toList ≠ '\x22' :: (w ++ ['\\'])) ∧
      ((∃ content rest, Quoted.decode? raw.toList = some (content, rest)) ↔ Quoted.Matches true raw.toList) ∧
      (∀ content rest, Quoted.decode? raw.toList = some (content, rest) →
        Quoted.Denotes raw.toList content ∧ rest = []) ∧
      ∀ r : Reading, ((∃ p, r.feed t = .ok p) ↔ Quoted.Matches true raw.toList) ∧
        ∀ e, r.feed t = .error e → e = .unterminatedString t.start) ∧
    ∀ s rest : String,
      let text := Value.print true (.string s)
      Token.scan (text ++ rest) =
        ⟨.string text, 0, byteLength text.toList⟩ :: Token.scanFrom (byteLength text.toList) rest.toList ∧
      Quoted.decode? text.toList = some (s.toList, []) := by
  constructor
  · intro source t ht raw hraw
    obtain ⟨-, before, after, hsource, hstart, -, hends⟩ := (Token.layout_scanFrom 0 source.toList).exists_place t ht
    rw [hraw] at hsource hends
    rw [Nat.zero_add] at hstart
    obtain ⟨body, hbody, hcut⟩ := Lexeme.exists_cutString_eq hends
    obtain ⟨closed, hmatch⟩ := Quoted.exists_matches_cutString (body ++ after)
    have hlongest : ∀ closed' cs, Quoted.Matches closed' cs → cs <+: raw.toList ++ after → cs <+: raw.toList := by
      intro closed' cs hcs hprefix
      rw [hbody, List.cons_append] at hprefix
      have hcs' := hcs.isPrefix_cutString hprefix
      rwa [hcut, ← hbody] at hcs'
    rw [hcut, ← hbody] at hmatch
    refine ⟨⟨closed, before, after, hsource, hstart, hmatch, ?_, hlongest⟩, ?_, hmatch.exists_decode?_iff, ?_, ?_⟩
    · intro closed' hmatch'
      exact hmatch.unique hmatch'
    · intro w hw
      exact hmatch.ne_half_escape hw
    · intro content rest hdecode
      exact (hmatch.of_decode? hdecode).2
    · exact Reading.exists_feed_iff hraw hmatch
  · intro s rest text
    have htext : text.toList = Quoted.encode s.toList := String.toList_ofList
    have hdecode := Quoted.decode?_encode_append s.toList []
    rw [List.append_nil, ← htext] at hdecode
    refine ⟨?_, hdecode⟩
    rw [Token.scan, String.toList_append, htext, Token.scanFrom_encode_append, Nat.zero_add, ← htext,
      String.ofList_toList]

/-- The first string holds a backslash. The second one ends with a quote, but its backslash has taken that along, so it
is open. -/
theorem escaped_quote_closes_nothing :
    let source := "\"\\\\\" \"a\\\""
    let first : Token := ⟨.string "\"\\\\\"", 0, 4⟩
    let second : Token := ⟨.string "\"a\\\"", 5, 9⟩
    Token.scan source = [first, second] ∧ (∃ p, Reading.start.feed first = .ok p) ∧
    Reading.start.feed second = .error (.unterminatedString 5) := by
  intro source first second
  have hscan : Token.scan source = [first, second] := by
    simp only [source, first, second]
    cbv
  have hfirst : Quoted.Matches true "\"\\\\\"".toList :=
    Quoted.Matches.closed (Quoted.Inner.escaped (c := '\\') (by decide) Quoted.Inner.nil)
  have hsecond : Quoted.Matches false "\"a\\\"".toList :=
    Quoted.Matches.unclosed (Quoted.Inner.plain (c := 'a') (by decide) (by decide)
      (Quoted.Inner.escaped (c := '\x22') (by decide) Quoted.Inner.nil))
  obtain ⟨htokens, -⟩ := strings_decode_as_cut
  obtain ⟨-, -, -, -, hfeed⟩ := htokens source first (by simp [hscan]) _ rfl
  obtain ⟨⟨closed, -, -, -, -, -, hunique, -⟩, -, -, -, hfeed'⟩ := htokens source second (by simp [hscan]) _ rfl
  refine ⟨hscan, (hfeed .start).1.mpr hfirst, ?_⟩
  cases hread : Reading.start.feed second with
  | error e => rw [(hfeed' .start).2 e hread]
  | ok p =>
      have hclosed := (hfeed' .start).1.mp ⟨p, hread⟩
      cases (hunique _ hclosed).trans (hunique _ hsecond).symm

end SmallLisp
