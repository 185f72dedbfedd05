import SmallLisp.Text.Quoted
import SmallLisp.Token.Scan

/-!
# `SmallLisp.Proofs.Token.Quoted` — where a string ends, and what it says

A written string is read twice, by two functions that know nothing of each other: `cutString` finds its end
when tokens are cut, and `Text.Quoted.decode?` finds its content when forms are read. Both are compared here
with one relation, `Text.Quoted.Spells`, between the characters inside the quotes and the content.

## Contents
* **The relation** `Text.Quoted.Spells`, which is what `decodeBody?` computes (`decodeBody?_eq_some_iff`).
* **The cut.** A string that has its closing quote is cut the same whatever follows it, and nothing of it is
  left unread (`cutString_of_decodeBody?`, `decode?_cutString_iff`).
-/

namespace SmallLisp

namespace Text.Quoted

/-! ## The relation -/

/-- The first characters, written inside quotes, spell the second ones. -/
inductive Spells : List Char → List Char → Prop where
  | nil : Spells [] []
  | plain {c : Char} {w cs : List Char} : c ≠ '\x22' → c ≠ '\\' → Spells w cs → Spells (c :: w) (c :: cs)
  | newline {w cs : List Char} : Spells w cs → Spells ('\\' :: 'n' :: w) ('\n' :: cs)
  | quote {w cs : List Char} : Spells w cs → Spells ('\\' :: '\x22' :: w) ('\x22' :: cs)
  | backslash {w cs : List Char} : Spells w cs → Spells ('\\' :: '\\' :: w) ('\\' :: cs)
  /-- A backslash before any other character stands for itself, and so does that character. -/
  | kept {c : Char} {w cs : List Char} :
      c ≠ 'n' → c ≠ '\x22' → c ≠ '\\' → Spells w cs → Spells ('\\' :: c :: w) ('\\' :: c :: cs)

/-- A whole written string, from its opening to its closing quote, and its content. -/
def Denotes (raw content : List Char) : Prop := ∃ w, raw = '\x22' :: (w ++ ['\x22']) ∧ Spells w content

theorem decodeBody?_cons_plain {c : Char} (hquote : c ≠ '\x22') (hslash : c ≠ '\\') (rest : List Char) :
    decodeBody? (c :: rest) = (decodeBody? rest).map fun (content, after) => (c :: content, after) := by
  rw [decodeBody?.eq_def]
  split <;> simp_all

theorem decodeBody?_of_spells {w cs : List Char} (h : Spells w cs) (after : List Char) :
    decodeBody? (w ++ '\x22' :: after) = some (cs, after) := by
  induction h with
  | nil => simp [decodeBody?]
  | plain hquote hslash _ ih =>
      rw [List.cons_append, decodeBody?_cons_plain hquote hslash, ih]
      rfl
  | newline _ ih | quote _ ih | backslash _ ih => simp [decodeBody?, ih]
  | kept hn hquote hslash _ ih => simp [decodeBody?, ih, hn, hquote, hslash]

theorem spells_of_decodeBody? {xs content after : List Char} (h : decodeBody? xs = some (content, after)) :
    ∃ w, xs = w ++ '\x22' :: after ∧ Spells w content := by
  fun_induction decodeBody? xs generalizing content after with
  | case1 => cases h
  | case2 rest =>
      cases h
      exact ⟨[], rfl, Spells.nil⟩
  | case3 => cases h
  | case4 c rest meant =>
      rename_i ih
      obtain ⟨⟨cs, tail⟩, hrest, heq⟩ := Option.map_eq_some_iff.mp h
      cases heq
      obtain ⟨w, rfl, hw⟩ := ih hrest
      refine ⟨'\\' :: c :: w, rfl, ?_⟩
      -- Three characters have a meaning after a backslash.
      by_cases hn : c = 'n'
      · subst hn
        exact Spells.newline hw
      · by_cases hquote : c = '\x22'
        · subst hquote
          exact Spells.quote hw
        · by_cases hslash : c = '\\'
          · subst hslash
            exact Spells.backslash hw
          · simp only [meant, hn, hquote, hslash, or_self, if_false]
            exact Spells.kept hn hquote hslash hw
  | case5 c rest hquote hslash hmore ih =>
      obtain ⟨⟨cs, tail⟩, hrest, heq⟩ := Option.map_eq_some_iff.mp h
      cases heq
      obtain ⟨w, rfl, hw⟩ := ih hrest
      refine ⟨c :: w, rfl, Spells.plain ?_ ?_ hw⟩
      · rintro rfl
        exact hquote rfl
      · rintro rfl
        cases w <;> simp_all

/-- Reading finds the content that the characters before the closing quote spell, if there is such a quote. -/
theorem decodeBody?_eq_some_iff {xs content after : List Char} :
    decodeBody? xs = some (content, after) ↔ ∃ w, xs = w ++ '\x22' :: after ∧ Spells w content := by
  constructor
  · exact spells_of_decodeBody?
  · rintro ⟨w, rfl, hw⟩
    exact decodeBody?_of_spells hw after

/-- A written string has the content that has been written. -/
theorem denotes_encode (cs : List Char) : Denotes (encode cs) cs := by
  obtain ⟨w, hw, hspells⟩ := spells_of_decodeBody? (decodeBody?_flatMap_escape cs [])
  exact ⟨w, by rw [encode, hw], hspells⟩

end Text.Quoted

open Text

/-! ## The cut -/

theorem cutString_cons_plain {c : Char} (hquote : c ≠ '\x22') (hslash : c ≠ '\\') (rest : List Char) :
    cutString (c :: rest) = (c :: (cutString rest).1, (cutString rest).2) := by
  rw [cutString.eq_def]
  split <;> simp_all

/-- Where reading finds a closing quote, cutting has found the same one: nothing follows it, and the string is
cut there whatever comes next. -/
theorem cutString_of_decodeBody? {cs content after : List Char}
    (h : Quoted.decodeBody? (cutString cs).1 = some (content, after)) :
    after = [] ∧ ∀ more, cutString ((cutString cs).1 ++ more) = ((cutString cs).1, more) := by
  fun_induction cutString cs generalizing content after with
  | case1 => cases h
  | case2 rest =>
      cases h
      exact ⟨rfl, fun more => rfl⟩
  | case3 => cases h
  | case4 rest => cases h
  | case5 c rest hc ih =>
      obtain ⟨⟨_, _⟩, hrest, heq⟩ := Option.map_eq_some_iff.mp h
      cases heq
      obtain ⟨hafter, hcut⟩ := ih hrest
      refine ⟨hafter, fun more => ?_⟩
      simp [cutString, hc, hcut more]
  | case6 c rest hquote hslash hmore ih =>
      have hc : c ≠ '\\' := by
        rintro rfl
        cases rest with
        | nil       => exact hslash rfl rfl
        | cons d ds => exact hmore d ds rfl rfl
      rw [Quoted.decodeBody?_cons_plain hquote hc] at h
      obtain ⟨⟨_, _⟩, hrest, heq⟩ := Option.map_eq_some_iff.mp h
      cases heq
      obtain ⟨hafter, hcut⟩ := ih hrest
      refine ⟨hafter, fun more => ?_⟩
      rw [List.cons_append, cutString_cons_plain hquote hc, hcut more]

/-- A string as it is cut from a text has the content that it denotes, and nothing follows that. -/
theorem decode?_cutString_iff {cs content after : List Char} :
    Quoted.decode? ('\x22' :: (cutString cs).1) = some (content, after) ↔
      Quoted.Denotes ('\x22' :: (cutString cs).1) content ∧ after = [] := by
  constructor
  · intro h
    obtain ⟨rfl, _⟩ := cutString_of_decodeBody? h
    obtain ⟨w, hw, hspells⟩ := Quoted.spells_of_decodeBody? h
    exact ⟨⟨w, by rw [hw], hspells⟩, rfl⟩
  · rintro ⟨⟨w, hw, hspells⟩, rfl⟩
    rw [hw]
    exact Quoted.decodeBody?_of_spells hspells []

end SmallLisp
