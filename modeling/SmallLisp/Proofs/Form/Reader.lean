import Mathlib
import SmallLisp.Proofs.Form.Grammar
import SmallLisp.Proofs.Form.Run
import SmallLisp.Proofs.Token.Cut

/-!
# `SmallLisp.Proofs.Form.Reader` — the reader obeys the grammar

Both directions are about the stack of unfinished forms. A derivation is followed by the reader at whatever place
it stands (`IsForm.run`), by induction on the derivation. Conversely every stack that the reader can build is
accounted for by the lexemes it has taken (`Opened`), and one token keeps it so (`reached_feed`), hence a whole
text does.

## Contents
* **From the grammar to the reader.** `IsForm.run`, `AreForms.ofTokens`.
* **From the reader to the grammar.** `Opened`, `Progress.Reached`, `reached_feed`, `reached_run`,
  `areForms_of_finishAll`.
* **Texts.** `readAll_eq_ok_iff_areForms`, `IsReading.unique` and, of both, `readAll_iff_isReading`.
-/

namespace SmallLisp

/-! ## From the grammar to the reader -/

/-- A text that denotes something is a string that is closed. -/
theorem decode?_of_denotes {raw content : List Char} (h : Text.Quoted.Denotes raw content) :
    Text.Quoted.decode? raw = some (content, []) := by
  obtain ⟨w, rfl, hspells⟩ := h
  exact Text.Quoted.decodeBody?_of_spells hspells []

theorem feed_key {k : Lexeme} {key : String} (h : IsKey k key) {t : Token} (ht : t.lexeme = k)
    (entries : List (String × Value)) (outer : List Frame) :
    (Reading.key entries outer).feed t = .ok (.unfinished (.form (.value entries key :: outer))) := by
  cases h with
  | atom text => simp [Reading.feed, Reading.feedKey, ht]
  | string hdenotes => simp [Reading.feed, Reading.feedKey, ht, decode?_of_denotes hdenotes]

/-- A bracketed sequence of tokens: the opening one, what is inside, the closing one. -/
theorem exists_of_map_eq_enclosed {ts : List Token} {a b : Lexeme} {ls : List Lexeme}
    (h : ts.map Token.lexeme = a :: (ls ++ [b])) :
    ∃ opening inner closing, ts = opening :: (inner ++ [closing]) ∧ opening.lexeme = a ∧
      inner.map Token.lexeme = ls ∧ closing.lexeme = b := by
  obtain ⟨opening, tail, rfl, hopening, htail⟩ := List.map_eq_cons_iff.mp h
  obtain ⟨inner, last, rfl, hinner, hlast⟩ := List.map_eq_append_iff.mp htail
  obtain ⟨closing, rfl, hclosing⟩ := List.map_eq_singleton_iff.mp hlast
  exact ⟨opening, inner, closing, rfl, hopening, hinner, hclosing⟩

mutual

/-- At any place where a form may stand the reader takes the lexemes of a form and hands on its value. -/
theorem IsForm.run {ls : List Lexeme} {v : Value} (h : IsForm ls v) {ts : List Token}
    (hts : ts.map Token.lexeme = ls) (outer : List Frame) :
    Progress.Run (.unfinished (.form outer)) ts (deliver v outer) := by
  match h, hts with
  | .string hdenotes, hts =>
      obtain ⟨t, rfl, ht⟩ := List.map_eq_singleton_iff.mp hts
      apply Progress.Run.one
      simp [Reading.feed, Reading.feedForm, ht, decode?_of_denotes hdenotes]
  | .atom hatom, hts =>
      obtain ⟨t, rfl, ht⟩ := List.map_eq_singleton_iff.mp hts
      apply Progress.Run.one
      simp [Reading.feed, Reading.feedForm, ht, ofAtom?_eq_some_iff.mpr hatom]
  | .list hforms, hts =>
      obtain ⟨opening, inner, closing, rfl, hopening, hinner, hclosing⟩ := exists_of_map_eq_enclosed hts
      have hrun := hforms.run hinner .list outer (fun _ _ => rfl) []
      apply Progress.Run.cons _ (hrun.append (Progress.Run.one _))
      · simp [Reading.feed, Reading.feedForm, hopening]
      · simp [Reading.feed, Reading.feedForm, Reading.close, hclosing]
  | .vector hforms, hts =>
      obtain ⟨opening, inner, closing, rfl, hopening, hinner, hclosing⟩ := exists_of_map_eq_enclosed hts
      have hrun := hforms.run hinner .vector outer (fun _ _ => rfl) []
      apply Progress.Run.cons _ (hrun.append (Progress.Run.one _))
      · simp [Reading.feed, Reading.feedForm, hopening]
      · simp [Reading.feed, Reading.feedForm, Reading.close, hclosing]
  | .map hentries hordered hfind, hts =>
      obtain ⟨opening, inner, closing, rfl, hopening, hinner, hclosing⟩ := exists_of_map_eq_enclosed hts
      have hrun := hentries.run hinner [] outer
      apply Progress.Run.cons _ (hrun.append (Progress.Run.one _))
      · simp [Reading.feed, Reading.feedForm, hopening]
      · simp [Reading.feed, Reading.feedKey, Reading.close, hclosing, ← ofList_eq_of_find? hordered hfind,
          Entries.ofList]
  | .marked m hform, hts =>
      obtain ⟨t, ts, rfl, ht, hts⟩ := List.map_eq_cons_iff.mp hts
      apply Progress.Run.cons _ (hform.run hts (.marked m :: outer))
      simp [Reading.feed, Reading.feedForm, ht]
  | .deref hform, hts =>
      obtain ⟨t, ts, rfl, ht, hts⟩ := List.map_eq_cons_iff.mp hts
      apply Progress.Run.cons _ (hform.run hts (.deref :: outer))
      simp [Reading.feed, Reading.feedForm, ht]
  | @IsForm.withMeta _ _ m _ hmeta hform, hts =>
      obtain ⟨t, ts, rfl, ht, hts⟩ := List.map_eq_cons_iff.mp hts
      obtain ⟨ts₁, ts₂, rfl, hts₁, hts₂⟩ := List.map_eq_append_iff.mp hts
      have hhead := hmeta.run hts₁ (.metadata :: outer)
      have htail := hform.run hts₂ (.withMeta m :: outer)
      apply Progress.Run.cons _ (hhead.append htail)
      simp [Reading.feed, Reading.feedForm, ht]

theorem AreForms.run {ls : List Lexeme} {vs : List Value} (h : AreForms ls vs) {ts : List Token}
    (hts : ts.map Token.lexeme = ls) (frame : List Value → Frame) (outer : List Frame)
    (hframe : ∀ v items, deliver v (frame items :: outer) = .unfinished (.form (frame (v :: items) :: outer)))
    (items : List Value) :
    Progress.Run (.unfinished (.form (frame items :: outer))) ts
      (.unfinished (.form (frame (vs.reverse ++ items) :: outer))) := by
  match h, hts with
  | .nil, hts =>
      obtain rfl := List.map_eq_nil_iff.mp hts
      exact Progress.Run.nil
  | @AreForms.cons _ _ v vs hform hforms, hts =>
      obtain ⟨ts₁, ts₂, rfl, hts₁, hts₂⟩ := List.map_eq_append_iff.mp hts
      have hhead := hform.run hts₁ (frame items :: outer)
      rw [hframe] at hhead
      have htail := hforms.run hts₂ frame outer hframe (v :: items)
      rw [List.reverse_cons, List.append_assoc]
      exact hhead.append htail

theorem AreEntries.run {ls : List Lexeme} {es : List (String × Value)} (h : AreEntries ls es) {ts : List Token}
    (hts : ts.map Token.lexeme = ls) (entries : List (String × Value)) (outer : List Frame) :
    Progress.Run (.unfinished (.key entries outer)) ts
      (.unfinished (.key (es.foldl (fun acc e => Entries.insert e.1 e.2 acc) entries) outer)) := by
  match h, hts with
  | .nil, hts =>
      obtain rfl := List.map_eq_nil_iff.mp hts
      exact Progress.Run.nil
  | .cons hkey hform hentries, hts =>
      obtain ⟨t, ts, rfl, ht, hts⟩ := List.map_eq_cons_iff.mp hts
      obtain ⟨ts₁, ts₂, rfl, hts₁, hts₂⟩ := List.map_eq_append_iff.mp hts
      apply Progress.Run.cons (feed_key hkey ht entries outer)
      exact (hform.run hts₁ _).append (hentries.run hts₂ _ outer)

end

/-- The reader takes a form that comes next, and no token more. -/
theorem IsForm.finish {ts : List Token} {v : Value} (h : IsForm (ts.map Token.lexeme) v) (rest : List Token) :
    Form.finish .start (ts ++ rest) = (.ok v, rest) :=
  (h.run rfl []).finish_append rest

theorem AreForms.ofTokens {vs : List Value} {ts : List Token} (h : AreForms (ts.map Token.lexeme) vs) :
    Form.ofTokens ts = .ok vs := by
  unfold Form.ofTokens
  induction vs generalizing ts with
  | nil =>
      have hnil : ts.map Token.lexeme = [] := by
        generalize ts.map Token.lexeme = ls at h
        cases h
        rfl
      obtain rfl := List.map_eq_nil_iff.mp hnil
      rfl
  | cons v vs ih =>
      generalize hls : ts.map Token.lexeme = ls at h
      cases h with
      | cons hform hforms =>
          obtain ⟨ts₁, ts₂, rfl, hts₁, rfl⟩ := List.map_eq_append_iff.mp hls
          have hrun : Progress.Run (.unfinished .start) ts₁ (.finished v) := hform.run hts₁ []
          have hsplit : Form.finishAll .start (ts₁ ++ ts₂) = (Form.finishAll .start ts₂).map (v :: ·) :=
            hrun.finishAll_append ts₂
          rw [hsplit, ih hforms]
          rfl

/-! ## From the reader to the grammar -/

/-- The unfinished forms, the innermost first, have been begun by the lexemes given. -/
inductive Opened : List Frame → List Lexeme → Prop where
  | nil : Opened [] []
  | list {outer : List Frame} {pre ls : List Lexeme} {items : List Value} :
      Opened outer pre → AreForms ls items.reverse → Opened (.list items :: outer) (pre ++ .opening .round :: ls)
  | vector {outer : List Frame} {pre ls : List Lexeme} {items : List Value} :
      Opened outer pre → AreForms ls items.reverse →
      Opened (.vector items :: outer) (pre ++ .opening .square :: ls)
  | value {outer : List Frame} {pre ls : List Lexeme} {es : List (String × Value)} {k : Lexeme} {key : String} :
      Opened outer pre → AreEntries ls es → IsKey k key →
      Opened (.value (Entries.ofList es) key :: outer) (pre ++ .opening .curly :: (ls ++ [k]))
  | marked {outer : List Frame} {pre : List Lexeme} (m : Mark) :
      Opened outer pre → Opened (.marked m :: outer) (pre ++ [.mark m])
  | deref {outer : List Frame} {pre : List Lexeme} : Opened outer pre → Opened (.deref :: outer) (pre ++ [.deref])
  | metadata {outer : List Frame} {pre : List Lexeme} :
      Opened outer pre → Opened (.metadata :: outer) (pre ++ [.withMeta])
  | withMeta {outer : List Frame} {pre ls : List Lexeme} {m : Value} :
      Opened outer pre → IsForm ls m → Opened (.withMeta m :: outer) (pre ++ .withMeta :: ls)

/-- The lexemes given lead to the place where reading stands, or are the form that it has finished. -/
inductive Progress.Reached : Progress → List Lexeme → Prop where
  | form {outer : List Frame} {pre : List Lexeme} : Opened outer pre → Reached (.unfinished (.form outer)) pre
  | key {outer : List Frame} {pre ls : List Lexeme} {es : List (String × Value)} :
      Opened outer pre → AreEntries ls es →
      Reached (.unfinished (.key (Entries.ofList es) outer)) (pre ++ .opening .curly :: ls)
  | finished {ls : List Lexeme} {v : Value} : IsForm ls v → Reached (.finished v) ls

/-- A form that is handed inwards is accounted for with the lexemes before it. -/
theorem reached_deliver {outer : List Frame} {pre ls : List Lexeme} {v : Value} (h : Opened outer pre)
    (hv : IsForm ls v) : (deliver v outer).Reached (pre ++ ls) := by
  induction h generalizing ls v with
  | nil => exact Progress.Reached.finished hv
  | list houter hitems =>
      have hsnoc := hitems.snoc hv
      rw [← List.reverse_cons] at hsnoc
      rw [List.append_assoc]
      exact Progress.Reached.form (Opened.list houter hsnoc)
  | vector houter hitems =>
      have hsnoc := hitems.snoc hv
      rw [← List.reverse_cons] at hsnoc
      rw [List.append_assoc]
      exact Progress.Reached.form (Opened.vector houter hsnoc)
  | value houter hentries hkey =>
      have hsnoc := hentries.snoc hkey hv
      have hreached := Progress.Reached.key houter hsnoc
      rw [Entries.ofList_snoc] at hreached
      simpa [deliver] using hreached
  | marked m _ ih =>
      -- A prefix ends together with its form, so the outcome is handed on at once.
      rw [List.append_assoc]
      exact ih (IsForm.marked m hv)
  | deref _ ih =>
      rw [List.append_assoc]
      exact ih (IsForm.deref hv)
  | metadata houter _ =>
      rw [List.append_assoc]
      exact Progress.Reached.form (Opened.withMeta houter hv)
  | withMeta _ hmeta ih =>
      rw [List.append_assoc]
      exact ih (IsForm.withMeta hmeta hv)

/-- A closing bracket finishes what it closes. -/
theorem reached_close {r : Reading} {t : Token} {b : Bracket} {p : Progress} {pre : List Lexeme}
    (hr : (Progress.unfinished r).Reached pre) (h : r.close t b = .ok p) : p.Reached (pre ++ [.closing b]) := by
  unfold Reading.close at h
  -- Only the bracket that fits gives no error.
  split at h <;> cases h
  · rename_i items outer
    cases hr with
    | form hopened =>
        cases hopened with
        | list houter hitems =>
            rw [List.append_assoc]
            exact reached_deliver houter (IsForm.list hitems)
  · rename_i items outer
    cases hr with
    | form hopened =>
        cases hopened with
        | vector houter hitems =>
            rw [List.append_assoc]
            exact reached_deliver houter (IsForm.vector hitems)
  · rename_i entries outer
    cases hr with
    | key houter hentries =>
        rw [List.append_assoc]
        exact reached_deliver houter (IsForm.map_ofList hentries)

theorem denotes_of_decode? {raw : String} {content after : List Char} (hcut : Lexeme.WellCut (.string raw))
    (h : Text.Quoted.decode? raw.toList = some (content, after)) : Text.Quoted.Denotes raw.toList content := by
  obtain ⟨cs, hraw⟩ := hcut
  rw [hraw] at h ⊢
  exact (decode?_cutString_iff.mp h).1

theorem reached_feedForm {outer : List Frame} {t : Token} {p : Progress} {pre : List Lexeme}
    (hcut : t.lexeme.WellCut) (hopened : Opened outer pre) (h : Reading.feedForm outer t = .ok p) :
    p.Reached (pre ++ [t.lexeme]) := by
  unfold Reading.feedForm at h
  split at h
  · rename_i ht
    cases h
    rw [ht]
    exact Progress.Reached.form (Opened.list hopened AreForms.nil)
  · rename_i ht
    cases h
    rw [ht]
    exact Progress.Reached.form (Opened.vector hopened AreForms.nil)
  · rename_i ht
    cases h
    rw [ht]
    exact Progress.Reached.key hopened AreEntries.nil
  · rename_i b ht
    rw [ht]
    exact reached_close (Progress.Reached.form hopened) h
  · rename_i m ht
    cases h
    rw [ht]
    exact Progress.Reached.form (Opened.marked m hopened)
  · rename_i ht
    cases h
    rw [ht]
    exact Progress.Reached.form (Opened.deref hopened)
  · rename_i ht
    cases h
    rw [ht]
    exact Progress.Reached.form (Opened.metadata hopened)
  · rename_i raw ht
    rw [ht] at hcut ⊢
    split at h <;> cases h
    rename_i content after hdecode
    exact reached_deliver hopened (IsForm.string (denotes_of_decode? hcut hdecode))
  · rename_i text ht
    rw [ht]
    split at h <;> cases h
    rename_i v hv
    exact reached_deliver hopened (IsForm.atom (ofAtom?_eq_some_iff.mp hv))

theorem reached_feedKey {entries : List (String × Value)} {outer : List Frame} {t : Token} {p : Progress}
    {pre : List Lexeme} (hcut : t.lexeme.WellCut)
    (hr : (Progress.unfinished (.key entries outer)).Reached pre)
    (h : Reading.feedKey entries outer t = .ok p) : p.Reached (pre ++ [t.lexeme]) := by
  unfold Reading.feedKey at h
  split at h
  · rename_i b ht
    rw [ht]
    exact reached_close hr h
  · rename_i raw ht
    rw [ht] at hcut ⊢
    split at h <;> cases h
    rename_i hdecodes
    obtain ⟨⟨content, after⟩, hdecode⟩ := Option.isSome_iff_exists.mp hdecodes
    cases hr with
    | key houter hentries =>
        rw [List.append_assoc]
        exact Progress.Reached.form
          (Opened.value houter hentries (IsKey.string (denotes_of_decode? hcut hdecode)))
  · rename_i text ht
    cases h
    rw [ht]
    cases hr with
    | key houter hentries =>
        rw [List.append_assoc]
        exact Progress.Reached.form (Opened.value houter hentries (IsKey.atom text))
  · cases h

/-- **One token keeps the account.** -/
theorem reached_feed {r : Reading} {t : Token} {p : Progress} {pre : List Lexeme} (hcut : t.lexeme.WellCut)
    (hr : (Progress.unfinished r).Reached pre) (h : r.feed t = .ok p) : p.Reached (pre ++ [t.lexeme]) := by
  cases r with
  | form outer =>
      cases hr with
      | form hopened => exact reached_feedForm hcut hopened h
  | key entries outer => exact reached_feedKey hcut hr h

theorem reached_run {p q : Progress} {ts : List Token} {pre : List Lexeme} (hrun : p.Run ts q)
    (hcut : ∀ t ∈ ts, t.lexeme.WellCut) (hp : p.Reached pre) : q.Reached (pre ++ ts.map Token.lexeme) := by
  induction hrun generalizing pre with
  | nil => rwa [List.map_nil, List.append_nil]
  | @cons r t p q ts hfeed _ ih =>
      have hstep := reached_feed (hcut t List.mem_cons_self) hp hfeed
      rw [List.map_cons, List.append_cons]
      exact ih (fun t ht => hcut t (List.mem_cons_of_mem _ ht)) hstep

/-- Whatever the reader makes of some tokens, they are the forms that it gives. -/
theorem areForms_of_finishAll {r : Reading} {ts : List Token} {pre : List Lexeme} {vs : List Value}
    (hcut : ∀ t ∈ ts, t.lexeme.WellCut) (hr : (Progress.unfinished r).Reached pre)
    (h : Form.finishAll r ts = .ok vs) : AreForms (pre ++ ts.map Token.lexeme) vs := by
  induction ts generalizing r pre vs with
  | nil =>
      -- All forms have been read only if none is open at the end.
      unfold Form.finishAll at h
      split at h <;> cases h
      cases hr with
      | form hopened =>
          cases hopened
          exact AreForms.nil
  | cons t ts ih =>
      have hcutTail : ∀ t ∈ ts, t.lexeme.WellCut := fun t ht => hcut t (List.mem_cons_of_mem _ ht)
      have hkeep := fun p => reached_feed (p := p) (hcut t List.mem_cons_self) hr
      rw [List.map_cons, List.append_cons]
      rw [Form.finishAll] at h
      split at h
      · cases h
      · rename_i v hfeed
        cases hrest : Form.finishAll .start ts with
        | error e =>
            rw [hrest] at h
            cases h
        | ok ws =>
            rw [hrest] at h
            cases h
            cases hkeep _ hfeed with
            | finished hform =>
                -- The next form has no lexemes before it.
                have htail := ih hcutTail (Progress.Reached.form Opened.nil) hrest
                exact AreForms.cons hform htail
      · rename_i next hfeed
        exact ih hcutTail (hkeep _ hfeed) h

/-! ## Texts -/

/-- The lexemes of a text, in order. -/
def lexemes (source : String) : List Lexeme := (Token.scan source).map Token.lexeme

theorem readAll_eq_ok_iff_areForms {source : String} {vs : List Value} :
    Form.readAll source = .ok vs ↔ AreForms (lexemes source) vs := by
  constructor
  · intro h
    exact areForms_of_finishAll (Token.wellCut_scanFrom 0 source.toList) (Progress.Reached.form Opened.nil) h
  · intro h
    exact h.ofTokens

/-- A lexeme as a token whose place does not matter. -/
def Token.anywhere (lexeme : Lexeme) : Token := ⟨lexeme, 0, 0⟩

theorem Token.map_lexeme_anywhere (ls : List Lexeme) : (ls.map Token.anywhere).map Token.lexeme = ls := by
  rw [List.map_map]
  exact List.map_id ls

/-- Where a form comes next, it is known which lexemes it takes and what its value is. -/
theorem IsForm.unique {ls ls' rest rest' : List Lexeme} {v v' : Value} (h : IsForm ls v) (h' : IsForm ls' v')
    (heq : ls ++ rest = ls' ++ rest') : ls = ls' ∧ v = v' ∧ rest = rest' := by
  -- The reader looks at tokens, but their places do not matter to it, so any will do.
  have hfinish : ∀ {ls rest : List Lexeme} {v : Value}, IsForm ls v →
      Form.finish .start ((ls ++ rest).map Token.anywhere) = (.ok v, rest.map Token.anywhere) := by
    intro ls rest v h
    rw [← Token.map_lexeme_anywhere ls] at h
    rw [List.map_append, h.finish]
  -- Both forms are what the reader takes from the same lexemes.
  have hboth : _ = (Except.ok v, rest.map Token.anywhere) := hfinish h
  rw [heq, hfinish h'] at hboth
  injection hboth with hvalue hrest
  injection hvalue with hvalue
  have hrest := congrArg (List.map Token.lexeme) hrest
  rw [Token.map_lexeme_anywhere, Token.map_lexeme_anywhere] at hrest
  subst hrest
  exact ⟨List.append_cancel_right heq, hvalue.symm, rfl⟩

theorem IsForm.ne_nil {ls : List Lexeme} {v : Value} (h : IsForm ls v) : ls ≠ [] := by
  cases h <;> simp

theorem IsReading.unique {ls : List Lexeme} {parts parts' : List (List Lexeme × Value)} (h : IsReading ls parts)
    (h' : IsReading ls parts') : parts = parts' := by
  obtain ⟨hforms, rfl⟩ := h
  obtain ⟨hforms', heq⟩ := h'
  induction parts generalizing parts' with
  | nil =>
      cases parts' with
      | nil => rfl
      | cons p parts' =>
          have hnil : p.1 = [] := by simp_all
          exact absurd hnil (hforms' p List.mem_cons_self).ne_nil
  | cons q parts ih =>
      cases parts' with
      | nil =>
          have hnil : q.1 = [] := by simp_all
          exact absurd hnil (hforms q List.mem_cons_self).ne_nil
      | cons p parts' =>
          simp only [List.map_cons, List.flatten_cons] at heq
          obtain ⟨hls, hv, hrest⟩ :=
            (hforms' p List.mem_cons_self).unique (hforms q List.mem_cons_self) heq
          have htail := ih (fun r hr => hforms r (List.mem_cons_of_mem _ hr))
            (fun r hr => hforms' r (List.mem_cons_of_mem _ hr)) hrest
          rw [htail, Prod.ext hls hv]

/-- **The reader obeys the grammar.** All forms of a text can be read just if its lexemes can be cut into forms
of the grammar, and then they are read with the values of these. There is never more than one way to cut them,
and the first form by itself is the first of them. -/
theorem readAll_iff_isReading (source : String) :
    (∀ vs, Form.readAll source = .ok vs ↔ ∃ parts, IsReading (lexemes source) parts ∧ parts.map Prod.snd = vs) ∧
    (∀ parts parts', IsReading (lexemes source) parts → IsReading (lexemes source) parts' → parts = parts') ∧
    (∀ parts, IsReading (lexemes source) parts → Form.read source = .ok (parts.map Prod.snd).head?) := by
  refine ⟨?_, fun _ _ h h' => h.unique h', ?_⟩
  · intro vs
    rw [readAll_eq_ok_iff_areForms]
    constructor
    · intro h
      exact h.exists_isReading
    · rintro ⟨parts, hparts, rfl⟩
      exact hparts.areForms
  · rintro parts ⟨hforms, hflat⟩
    rw [Form.read, Form.next]
    cases parts with
    | nil =>
        have hnil : Token.scan source = [] := List.map_eq_nil_iff.mp hflat.symm
        rw [hnil]
        rfl
    | cons p parts =>
        obtain ⟨used, rest, hscan, hused, -⟩ := List.map_eq_append_iff.mp hflat.symm
        have hform : IsForm (used.map Token.lexeme) p.2 := by
          rw [hused]
          exact hforms p List.mem_cons_self
        have hne : used ≠ [] := by
          rintro rfl
          exact hform.ne_nil rfl
        rw [hscan, if_neg (by simp [hne]), hform.finish]
        rfl

theorem reading_of_repeated_key :
    ∃ parts, IsReading (lexemes "\x7bk a k b\x7d ^m @d") parts ∧
      parts.map Prod.snd = [.map [("k", .symbol "b")],
        .list [.symbol "with-meta", .list [.symbol "deref", .symbol "d"], .symbol "m"]] ∧
      Form.read "\x7bk a k b\x7d ^m @d" = .ok (some (.map [("k", .symbol "b")])) := by
  obtain ⟨hreads, _, hfirst⟩ := readAll_iff_isReading "\x7bk a k b\x7d ^m @d"
  have hread : Form.readAll "\x7bk a k b\x7d ^m @d" = .ok [.map [("k", .symbol "b")],
      .list [.symbol "with-meta", .list [.symbol "deref", .symbol "d"], .symbol "m"]] := by cbv
  obtain ⟨parts, hparts, hvalues⟩ := (hreads _).mp hread
  refine ⟨parts, hparts, hvalues, ?_⟩
  rw [hfirst parts hparts, hvalues]
  rfl

end SmallLisp
