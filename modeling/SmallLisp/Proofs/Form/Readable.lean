import SmallLisp.Proofs.Form.Prefix
import SmallLisp.Proofs.Form.Reader
import SmallLisp.Proofs.Numeral.RoundTrip

/-!
# `SmallLisp.Proofs.Form.Readable` — the values that the reader can give

Not every value can be read. A symbol with a space in it cannot, nor a keyword with a bracket, nor a NaN, and the
keys of a map are written atoms and strings. `Readable` says so by the structure of the value, without any text.

## Contents
* **Where a value comes from** `FromReader`: any answer of the reader, to any text.
* **What it is then** `Readable`, which is kept by every rule of the grammar (`IsForm.readable`), hence
  `FromReader.readable`.
-/

namespace SmallLisp

open Binary64

/-! ## Where a value comes from -/

/-- The reader gives the value for some text: as its first form, as one of all its forms, or as one of those that it
goes on to after errors. -/
inductive FromReader (v : Value) : Prop where
  | first {source : String} : Form.read source = .ok (some v) → FromReader v
  | all {source : String} {vs : List Value} : Form.readAll source = .ok vs → v ∈ vs → FromReader v
  | several {source : String} {limit : Nat} :
      .ok (some v) ∈ Form.several limit (Token.scan source) → FromReader v

theorem isForm_of_run {ts : List Token} {v : Value} (hcut : ∀ t ∈ ts, t.lexeme.WellCut)
    (hrun : Progress.Run (.unfinished .start) ts (.finished v)) : IsForm (ts.map Token.lexeme) v := by
  have hstart : (Progress.unfinished .start).Reached [] := Progress.Reached.form Opened.nil
  have hreached := reached_run hrun hcut hstart
  cases hreached with
  | finished hform => exact hform

/-- What is left after a form, or an error, is the end of what there was. -/
theorem Form.finish_suffix (r : Reading) (ts : List Token) : (finish r ts).2 <:+ ts := by
  induction ts generalizing r with
  | nil => exact List.suffix_refl []
  | cons t ts ih =>
      cases hfeed : r.feed t with
      | error e =>
          rw [finish, hfeed]
          exact List.suffix_cons t ts
      | ok p =>
          rw [finish_cons hfeed]
          cases p with
          | finished v => exact List.suffix_cons t ts
          | unfinished next => exact (ih next).trans (List.suffix_cons t ts)

theorem exists_isForm_of_several {limit : Nat} {ts : List Token} {v : Value}
    (hcut : ∀ t ∈ ts, t.lexeme.WellCut) (h : .ok (some v) ∈ Form.several limit ts) :
    ∃ ls, (∀ l ∈ ls, l.WellCut) ∧ IsForm ls v := by
  induction limit generalizing ts with
  | zero => cases h
  | succ limit ih =>
      rw [Form.several, Form.next] at h
      by_cases hempty : ts.isEmpty = true
      · rw [if_pos hempty] at h
        simp at h
      · rw [if_neg hempty] at h
        -- Whether the first form is read or not, what follows begins with a token of the same text.
        have hsuffix := Form.finish_suffix .start ts
        cases hfinish : Form.finish .start ts with
        | mk result rest =>
            rw [hfinish] at h hsuffix
            have hrest : ∀ t ∈ rest, t.lexeme.WellCut := fun t ht => hcut t (hsuffix.subset ht)
            cases result with
            | error e =>
                rcases List.mem_cons.mp h with h | h
                · cases h
                · exact ih hrest h
            | ok w =>
                rcases List.mem_cons.mp h with h | h
                · cases h
                  obtain ⟨used, hts, hrun⟩ := Form.finish_eq_ok_iff.mp hfinish
                  have hused : ∀ t ∈ used, t.lexeme.WellCut := by
                    intro t ht
                    apply hcut
                    rw [hts]
                    exact List.mem_append_left _ ht
                  exact ⟨used.map Token.lexeme, List.forall_mem_map.mpr hused, isForm_of_run hused hrun⟩
                · exact ih hrest h

/-- A value that the reader gives is one that the grammar gives to lexemes that a text can have. -/
theorem FromReader.exists_isForm {v : Value} (h : FromReader v) : ∃ ls, (∀ l ∈ ls, l.WellCut) ∧ IsForm ls v := by
  cases h with
  | @first source h =>
      obtain ⟨used, rest, hscan, hrun⟩ := Form.read_eq_ok_iff.mp h
      have hcut : ∀ t ∈ used, t.lexeme.WellCut := by
        intro t ht
        apply Token.wellCut_scanFrom 0 source.toList
        rw [← Token.scan, hscan]
        exact List.mem_append_left _ ht
      exact ⟨used.map Token.lexeme, List.forall_mem_map.mpr hcut, isForm_of_run hcut hrun⟩
  | @all source vs h hv =>
      obtain ⟨parts, ⟨hforms, hflat⟩, rfl⟩ := (readAll_eq_ok_iff_areForms.mp h).exists_isReading
      obtain ⟨p, hp, rfl⟩ := List.mem_map.mp hv
      refine ⟨p.1, ?_, hforms p hp⟩
      intro l hl
      have hmem : l ∈ lexemes source := by
        rw [← hflat]
        exact List.mem_flatten.mpr ⟨p.1, List.mem_map.mpr ⟨p, hp, rfl⟩, hl⟩
      obtain ⟨t, ht, rfl⟩ := List.mem_map.mp hmem
      exact Token.wellCut_scanFrom 0 source.toList t ht
  | @several source limit h => exact exists_isForm_of_several (Token.wellCut_scanFrom 0 source.toList) h

/-! ## What it is then -/

/-- A key that the reader can have made: the text of an atom, or of a closed string. -/
def IsWrittenKey (key : String) : Prop := ∃ k : Lexeme, k.WellCut ∧ IsKey k key

/-- A value that could be read. -/
inductive Readable : Value → Prop where
  | nil : Readable .nil
  | boolean (b : Bool) : Readable (.boolean b)
  | integer (n : Int64) : Readable (.integer n)
  | float {x : Float} : magnitude x ≤ infinityMagnitude → Readable (.float x)
  | string (content : String) : Readable (.string content)
  | keyword {name : String} : (∀ c ∈ name.toList, isAtomChar c = true) → Readable (.keyword name)
  | symbol {name : String} : (Lexeme.atom name).WellCut → IsAtom name (.symbol name) → Readable (.symbol name)
  | list {items : List Value} : (∀ v ∈ items, Readable v) → Readable (.list items)
  | vector {items : List Value} : (∀ v ∈ items, Readable v) → Readable (.vector items)
  | map {entries : List (String × Value)} : Entries.Ordered entries →
      (∀ e ∈ entries, IsWrittenKey e.1) → (∀ e ∈ entries, Readable e.2) → Readable (.map entries)
  | marked (m : Mark) {v : Value} : Readable v → Readable (.marked m v)

theorem readable_of_number? {cs : List Char} {v : Value} (h : Numeral.number? cs = some v) : Readable v := by
  unfold Numeral.number? at h
  split at h
  · obtain ⟨x, hx, rfl⟩ := Option.map_eq_some_iff.mp h
    exact Readable.float (Numeral.magnitude_le_of_float? hx)
  · obtain ⟨n, _, rfl⟩ := Option.map_eq_some_iff.mp h
    exact Readable.integer n

theorem IsAtom.readable {text : String} {v : Value} (hcut : (Lexeme.atom text).WellCut) (h : IsAtom text v) :
    Readable v := by
  cases h with
  | number _ hv => exact readable_of_number? hv
  | keyword htext =>
      obtain ⟨c, cs, hcs, _, hchars⟩ := hcut
      rw [htext] at hcs
      cases hcs
      apply Readable.keyword
      rwa [String.toList_ofList]
  | nil => exact Readable.nil
  | true | false => exact Readable.boolean _
  | symbol hnumeric hcolon hconst => exact Readable.symbol hcut (IsAtom.symbol hnumeric hcolon hconst)

theorem readable_deref : Readable (.symbol "deref") :=
  Readable.symbol (Lexeme.wellCut_atom (by decide) (by decide))
    (IsAtom.symbol (by decide) (by decide) (by decide))

theorem readable_withMeta : Readable (.symbol "with-meta") :=
  Readable.symbol (Lexeme.wellCut_atom (by decide) (by decide))
    (IsAtom.symbol (by decide) (by decide) (by decide))

/-- The lexemes inside brackets are among those with the brackets. -/
theorem forall_mem_of_enclosed {p : Lexeme → Prop} {a b : Lexeme} {ls : List Lexeme}
    (h : ∀ l ∈ a :: (ls ++ [b]), p l) : ∀ l ∈ ls, p l :=
  fun l hl => h l (List.mem_cons_of_mem _ (List.mem_append_left _ hl))

mutual

/-- Every rule of the grammar gives a value that could be read. -/
theorem IsForm.readable {ls : List Lexeme} {v : Value} (h : IsForm ls v) (hcut : ∀ l ∈ ls, l.WellCut) :
    Readable v := by
  match h, hcut with
  | .string _, _ => exact Readable.string _
  | .atom hatom, hcut => exact hatom.readable (hcut _ List.mem_cons_self)
  | .list hforms, hcut => exact Readable.list (hforms.readable (forall_mem_of_enclosed hcut))
  | .vector hforms, hcut => exact Readable.vector (hforms.readable (forall_mem_of_enclosed hcut))
  | @IsForm.map _ es m hentries hordered hfind, hcut =>
      have hparts := hentries.readable (forall_mem_of_enclosed hcut)
      -- An entry of the map is one of those written, though not all of these are left.
      have hwritten : ∀ e ∈ m, e ∈ es := by
        intro e he
        have hfound := Entries.find?_of_mem hordered.nodup_keys he
        rw [hfind] at hfound
        exact List.mem_reverse.mp (Entries.mem_of_find? hfound)
      exact Readable.map hordered (fun e he => (hparts e (hwritten e he)).1)
        (fun e he => (hparts e (hwritten e he)).2)
  | .marked m hform, hcut =>
      exact Readable.marked m (hform.readable fun l hl => hcut l (List.mem_cons_of_mem _ hl))
  | .deref hform, hcut =>
      have hreadable := hform.readable fun l hl => hcut l (List.mem_cons_of_mem _ hl)
      apply Readable.list
      simp [readable_deref, hreadable]
  | .withMeta hmeta hform, hcut =>
      have hmetadata := hmeta.readable fun l hl =>
        hcut l (List.mem_cons_of_mem _ (List.mem_append_left _ hl))
      have hreadable := hform.readable fun l hl =>
        hcut l (List.mem_cons_of_mem _ (List.mem_append_right _ hl))
      apply Readable.list
      simp [readable_withMeta, hmetadata, hreadable]

theorem AreForms.readable {ls : List Lexeme} {vs : List Value} (h : AreForms ls vs) (hcut : ∀ l ∈ ls, l.WellCut) :
    ∀ v ∈ vs, Readable v := by
  match h, hcut with
  | .nil, _ => simp
  | .cons hform hforms, hcut =>
      have hhead := hform.readable fun l hl => hcut l (List.mem_append_left _ hl)
      have htail := hforms.readable fun l hl => hcut l (List.mem_append_right _ hl)
      exact List.forall_mem_cons.mpr ⟨hhead, htail⟩

theorem AreEntries.readable {ls : List Lexeme} {es : List (String × Value)} (h : AreEntries ls es)
    (hcut : ∀ l ∈ ls, l.WellCut) : ∀ e ∈ es, IsWrittenKey e.1 ∧ Readable e.2 := by
  match h, hcut with
  | .nil, _ => simp
  | .cons hkey hform hentries, hcut =>
      have hkeyCut := hcut _ List.mem_cons_self
      have hhead := hform.readable fun l hl => hcut l (List.mem_cons_of_mem _ (List.mem_append_left _ hl))
      have htail := hentries.readable fun l hl => hcut l (List.mem_cons_of_mem _ (List.mem_append_right _ hl))
      exact List.forall_mem_cons.mpr ⟨⟨⟨_, hkeyCut, hkey⟩, hhead⟩, htail⟩

end

/-- **What the reader gives could be read,** by the structure of the value alone. -/
theorem FromReader.readable {v : Value} (h : FromReader v) : Readable v := by
  obtain ⟨ls, hcut, hform⟩ := h.exists_isForm
  exact hform.readable hcut

end SmallLisp
