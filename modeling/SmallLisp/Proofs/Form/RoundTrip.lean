import SmallLisp.Proofs.Form.Number
import SmallLisp.Proofs.Form.Readable
import SmallLisp.Proofs.Token.Write
import SmallLisp.Proofs.Value.Written

/-!
# `SmallLisp.Proofs.Form.RoundTrip` — written values read back

The readable text of a value is cut into lexemes that are a form of the grammar, and the value of this form is the
written one without its marks. This is shown by the structure of a value that the reader can give; what the reader
does with the text then follows from the grammar alone.

## Contents
* **Leaves** `WritesForm`: a text is cut into a form, for the texts of atoms, strings and keys.
* **Sequences** `exists_areForms`, `exists_areEntries`, and **brackets** `writesForm_map`, `WritesForm.marked`.
* **Values** `Readable.writesForm`.
* **Texts** `readAll_printAll`.
-/

namespace SmallLisp

open Text Binary64

/-! ## Leaves -/

/-- The text `cs` is cut, before anything that may follow it, into the lexemes of a form with the value `v`. -/
def WritesForm (cs : List Char) (v : Value) : Prop := ∃ ls, CutsTo cs ls ∧ IsForm ls v

theorem writesForm_atom {text : String} {v : Value} (hcut : (Lexeme.atom text).WellCut) (hatom : IsAtom text v) :
    WritesForm text.toList v :=
  ⟨[.atom text], cutsTo_atom hcut, IsForm.atom hatom⟩

theorem writesForm_chars {cs : List Char} {v : Value} (hcut : (Lexeme.atom (String.ofList cs)).WellCut)
    (hatom : IsAtom (String.ofList cs) v) : WritesForm cs v := by
  have hwrites := writesForm_atom hcut hatom
  rwa [String.toList_ofList] at hwrites

theorem writesForm_string (content : String) : WritesForm (Quoted.encode content.toList) (.string content) := by
  have hdenotes : Quoted.Denotes (String.ofList (Quoted.encode content.toList)).toList content.toList := by
    rw [String.toList_ofList]
    exact Quoted.denotes_encode content.toList
  have hform := IsForm.string hdenotes
  rw [String.ofList_toList] at hform
  exact ⟨_, cutsTo_encode content.toList, hform⟩

theorem writesForm_keyword {name : String} (h : ∀ c ∈ name.toList, isAtomChar c = true) :
    WritesForm (':' :: name.toList) (.keyword name) := by
  have htext : (String.ofList (':' :: name.toList)).toList = ':' :: name.toList := String.toList_ofList
  have hatom := IsAtom.keyword htext
  rw [String.ofList_toList] at hatom
  exact writesForm_chars ⟨':', name.toList, htext, by decide, h⟩ hatom

/-- The long names of the marks are symbols. -/
theorem writesForm_name (m : Mark) : WritesForm m.name.toList (.symbol m.name) := by
  cases m with
  | quote | quasiquote | unquote | spliceUnquote =>
      exact writesForm_atom (Lexeme.wellCut_atom (by decide) (by decide))
        (IsAtom.symbol (by decide) (by decide) (by decide))

/-- A key is written as the lexeme that it has been read from. -/
theorem IsWrittenKey.exists_cutsTo {key : String} (h : IsWrittenKey key) :
    ∃ k, CutsTo key.toList [k] ∧ IsKey k key := by
  obtain ⟨k, hcut, hkey⟩ := h
  cases hkey with
  | atom text => exact ⟨.atom key, cutsTo_atom hcut, IsKey.atom key⟩
  | string hdenotes =>
      have hclosed : (Lexeme.string key).isClosed = true := by
        rw [Lexeme.isClosed, decode?_of_denotes hdenotes]
        rfl
      exact ⟨.string key, cutsTo_closed hcut hclosed, IsKey.string hdenotes⟩

/-! ## Sequences and brackets -/

/-- Texts of forms with spaces between them are the text of the forms. -/
theorem exists_areForms {vs ws : List Value} (horder : ReorderedItems vs ws)
    (hforms : ∀ v ∈ vs, ∀ w, Reordered v w → WritesForm (w.chars true) v.desugar) :
    ∃ ls, CutsTo (Value.charsItems true ws) ls ∧ AreForms ls (Value.desugarItems vs) := by
  induction vs generalizing ws with
  | nil =>
      cases horder
      exact ⟨[], cutsTo_nil, AreForms.nil⟩
  | cons v vs ih =>
      cases horder with
      | @cons _ w _ ws hhead htail =>
          obtain ⟨ls, hcut, hform⟩ := hforms v List.mem_cons_self w hhead
          obtain ⟨ms, hcuts, hareForms⟩ := ih htail fun v hv => hforms v (List.mem_cons_of_mem _ hv)
          refine ⟨ls ++ ms, ?_, AreForms.cons hform hareForms⟩
          cases htail with
          | nil =>
              -- The last text has no space after it.
              cases hareForms
              rw [List.append_nil]
              exact hcut
          | cons _ _ => exact hcut.space hcuts

/-- Texts of entries with spaces between them are the text of the entries. -/
theorem exists_areEntries {fs gs : List (String × Value)} (horder : ReorderedEntries fs gs)
    (hkeys : ∀ f ∈ fs, IsWrittenKey f.1)
    (hforms : ∀ f ∈ fs, ∀ w, Reordered f.2 w → WritesForm (w.chars true) f.2.desugar) :
    ∃ ls, CutsTo (Value.charsEntries true gs) ls ∧ AreEntries ls (Value.desugarEntries fs) := by
  induction fs generalizing gs with
  | nil =>
      cases horder
      exact ⟨[], cutsTo_nil, AreEntries.nil⟩
  | cons f fs ih =>
      cases horder with
      | @cons key v w _ gs hhead htail =>
          obtain ⟨k, hkeyCut, hkey⟩ := (hkeys _ List.mem_cons_self).exists_cutsTo
          obtain ⟨ls, hcut, hform⟩ := hforms _ List.mem_cons_self w hhead
          obtain ⟨ms, hcuts, hareEntries⟩ := ih htail (fun f hf => hkeys f (List.mem_cons_of_mem _ hf))
            fun f hf => hforms f (List.mem_cons_of_mem _ hf)
          refine ⟨k :: (ls ++ ms), ?_, AreEntries.cons hkey hform hareEntries⟩
          have hentry := hkeyCut.space hcut
          cases htail with
          | nil =>
              cases hareEntries
              rw [List.append_nil]
              exact hentry
          | cons _ _ _ => exact hentry.space hcuts

/-- Entries may be written in any order: the map of the form has them in key order again. -/
theorem writesForm_map {es fs gs : List (String × Value)} (hordered : Entries.Ordered es) (hperm : es.Perm fs)
    (horder : ReorderedEntries fs gs) (hkeys : ∀ f ∈ fs, IsWrittenKey f.1)
    (hforms : ∀ f ∈ fs, ∀ w, Reordered f.2 w → WritesForm (w.chars true) f.2.desugar) :
    WritesForm (Value.enclosed .curly (Value.charsEntries true gs)) (.map (Value.desugarEntries es)) := by
  obtain ⟨ls, hcut, hareEntries⟩ := exists_areEntries horder hkeys hforms
  have hordered' : Entries.Ordered (Value.desugarEntries es) := by
    rw [Value.desugarEntries_eq_map]
    exact hordered.map_snd Value.desugar
  have hperm' : (Value.desugarEntries es).Perm (Value.desugarEntries fs).reverse := by
    rw [Value.desugarEntries_eq_map, Value.desugarEntries_eq_map]
    exact (hperm.map _).trans (List.reverse_perm _).symm
  -- No key is repeated, so it does not matter that the last value of a key counts.
  have hfind := Entries.find?_perm hperm' hordered'.nodup_keys
  exact ⟨_, hcut.enclosed .curly, IsForm.map hareEntries hordered' hfind⟩

/-- A form under a mark is written as a list of two. -/
theorem WritesForm.marked {cs : List Char} {v : Value} (h : WritesForm cs v) (m : Mark) :
    WritesForm (Value.enclosed .round (m.name.toList ++ ' ' :: cs)) (.list [.symbol m.name, v]) := by
  obtain ⟨ls, hnameCut, hname⟩ := writesForm_name m
  obtain ⟨ms, hcut, hform⟩ := h
  have hareForms := AreForms.cons hname (AreForms.cons hform AreForms.nil)
  rw [List.append_nil] at hareForms
  exact ⟨_, (hnameCut.space hcut).enclosed .round, IsForm.list hareForms⟩

/-! ## Values -/

/-- **The text of a value that can be read is a form of the grammar,** and its value is the one that has been
written, without its marks. -/
theorem Readable.writesForm {v w : Value} (hv : Readable v) (horder : Reordered v w)
    (hfinite : ∀ x, Occurs (.float x) v → x.isInf = false) : WritesForm (w.chars true) v.desugar := by
  induction hv generalizing w with
  | nil =>
      cases horder
      exact writesForm_atom (Lexeme.wellCut_atom (by decide) (by decide)) (IsAtom.nil rfl)
  | boolean b =>
      cases horder
      cases b with
      | true => exact writesForm_atom (Lexeme.wellCut_atom (by decide) (by decide)) (IsAtom.true rfl)
      | false => exact writesForm_atom (Lexeme.wellCut_atom (by decide) (by decide)) (IsAtom.false rfl)
  | integer n =>
      cases horder
      exact writesForm_chars (wellCut_integer n.toInt) (isAtom_integer n)
  | @float x hx =>
      cases horder
      have hx' : isFinite x = true := isFinite_of_isInf_eq_false hx (hfinite x Occurs.self)
      exact writesForm_chars (wellCut_float hx') (isAtom_float hx')
  | string content =>
      cases horder
      exact writesForm_string content
  | keyword hname =>
      cases horder
      exact writesForm_keyword hname
  | symbol hcut hatom =>
      cases horder
      exact writesForm_atom hcut hatom
  | @list items _ ih =>
      obtain ⟨ws, rfl, hitems⟩ := horder.of_list
      obtain ⟨ls, hcut, hforms⟩ := exists_areForms hitems fun v hv w hw =>
        ih v hv hw fun x hx => hfinite x (Occurs.list hv hx)
      exact ⟨_, hcut.enclosed .round, IsForm.list hforms⟩
  | @vector items _ ih =>
      obtain ⟨ws, rfl, hitems⟩ := horder.of_vector
      obtain ⟨ls, hcut, hforms⟩ := exists_areForms hitems fun v hv w hw =>
        ih v hv hw fun x hx => hfinite x (Occurs.vector hv hx)
      exact ⟨_, hcut.enclosed .square, IsForm.vector hforms⟩
  | @map entries hordered hkeys _ ih =>
      obtain ⟨fs, gs, rfl, hperm, hentries⟩ := horder.of_map
      have hmem : ∀ f ∈ fs, f ∈ entries := fun f hf => hperm.mem_iff.mpr hf
      exact writesForm_map hordered hperm hentries (fun f hf => hkeys f (hmem f hf)) fun f hf w hw =>
        ih f (hmem f hf) hw fun x hx => hfinite x (Occurs.map (hmem f hf) hx)
  | @marked m v _ ih =>
      obtain ⟨w, rfl, hreordered⟩ := horder.of_marked
      exact (ih hreordered fun x hx => hfinite x (Occurs.marked hx)).marked m

/-! ## Texts -/

theorem charsItems_cons_cons (readable : Bool) (v w : Value) (vs : List Value) :
    Value.charsItems readable (v :: w :: vs) = v.chars readable ++ ' ' :: Value.charsItems readable (w :: vs) := rfl

theorem toList_printAll (vs : List Value) : (Value.printAll true " " vs).toList = Value.charsItems true vs := by
  unfold Value.printAll
  induction vs with
  | nil => rfl
  | cons v vs ih =>
      cases vs with
      | nil =>
          rw [List.map_singleton, String.intercalate_singleton, Value.print, String.toList_ofList, Value.charsItems]
      | cons w vs =>
          rw [List.map_cons] at ih
          rw [List.map_cons, List.map_cons, String.intercalate_cons_cons, String.toList_append, String.toList_append,
            ih, Value.print, String.toList_ofList, charsItems_cons_cons]
          exact List.append_assoc _ _ _

/-- **Written values read back.** The texts of any values that the reader can give, with spaces between them and
the entries of maps in any order, are read as just these values, without their marks; values without marks are read
as they were. Only an infinite float has a text that is no number. -/
theorem readAll_printAll {vs ws : List Value} (hread : ∀ v ∈ vs, FromReader v)
    (hfinite : ∀ v ∈ vs, ∀ x, Occurs (.float x) v → x.isInf = false) (horder : ReorderedItems vs ws) :
    Form.readAll (Value.printAll true " " ws) = .ok (vs.map Value.desugar) ∧
    ((∀ v ∈ vs, ∀ m u, ¬ Occurs (.marked m u) v) → Form.readAll (Value.printAll true " " ws) = .ok vs) := by
  obtain ⟨ls, hcut, hforms⟩ := exists_areForms horder fun v hv w hw =>
    (hread v hv).readable.writesForm hw (hfinite v hv)
  have hlexemes : lexemes (Value.printAll true " " ws) = ls := by
    have hend := hcut [] endsAtom_nil
    rw [List.append_nil, lexemesOf_nil, List.append_nil] at hend
    rw [lexemes, Token.scan, toList_printAll]
    exact hend
  rw [Value.desugarItems_eq_map, ← hlexemes] at hforms
  have hall : Form.readAll (Value.printAll true " " ws) = .ok (vs.map Value.desugar) :=
    readAll_eq_ok_iff_areForms.mpr hforms
  refine ⟨hall, ?_⟩
  intro hmarks
  have hsame : vs.map Value.desugar = vs := by
    rw [← Value.desugarItems_eq_map]
    exact Value.desugarItems_eq_self hmarks
  rw [hall, hsame]

/-- A form under a quote comes back as a list; its map, written the other way round, comes back as it was. -/
theorem readAll_print_of_swapped_entries :
    Form.readAll (Value.printAll true " " [.marked .quote (.map
      [("a", .float (ofMagnitude true 0)), ("\"b c\"", .vector [.symbol "x"])])]) =
    .ok [.list [.symbol "quote", .map
      [("\"b c\"", .vector [.symbol "x"]), ("a", .float (ofMagnitude true 0))]]] := by
  have hfirst : Form.read "\x27\x7ba -0.0 \"b c\" [x]\x7d" = .ok (some (.marked .quote (.map
      [("\"b c\"", .vector [.symbol "x"]), ("a", .float (ofMagnitude true 0))]))) := by cbv
  have hswap := List.Perm.swap ("a", Value.float (ofMagnitude true 0)) ("\"b c\"", .vector [.symbol "x"]) []
  have horder := Reordered.marked .quote (Reordered.map hswap (ReorderedEntries.refl _))
  have hall := readAll_printAll (List.forall_mem_singleton.mpr (FromReader.first hfirst)) ?_
    (ReorderedItems.cons horder ReorderedItems.nil)
  · rw [hall.1]
    simp [Value.desugar, Value.desugarItems, Value.desugarEntries, Mark.name]
  · intro v hv x hx
    cases List.mem_singleton.mp hv
    cases hx with
    | marked hx =>
        cases hx with
        | map he hx =>
            -- The only float is the value of the second entry.
            rcases List.mem_cons.mp he with rfl | he
            · cases hx with
              | vector hitem hx =>
                  cases List.mem_singleton.mp hitem
                  cases hx
            · cases List.mem_singleton.mp he
              cases hx
              show (ofMagnitude true 0).isInf = false
              decide

end SmallLisp
