import SmallLisp.Form.Read
import SmallLisp.Proofs.Entries
import SmallLisp.Proofs.Token.Quoted

/-!
# `SmallLisp.Proofs.Form.Grammar` — what a sequence of lexemes says

The grammar of forms, as a relation between lexemes and values that mentions no reader: `IsForm ls v` says that
the lexemes `ls` are a form whose value is `v`. `SmallLisp.Proofs.Form.Reader` compares the reader with it.

## Contents
* **Atoms** `IsAtom`, which is what `Value.ofAtom?` computes (`ofAtom?_eq_some_iff`).
* **Forms** `IsForm`, `AreForms`, `AreEntries` and **whole sequences** `IsReading`.
* **More** forms or entries at the end: `AreForms.append`, `AreForms.snoc`, `AreEntries.snoc`.
* **Maps.** Of a repeated key the last value is kept (`IsForm.map_ofList`, `ofList_eq_of_find?`).
-/

namespace SmallLisp

/-! ## Atoms -/

/-- What the text of an atom says. One that looks like a number says something only if it is a number. -/
inductive IsAtom (text : String) : Value → Prop where
  | number {v : Value} :
      Numeral.looksNumeric text.toList = true → Numeral.number? text.toList = some v → IsAtom text v
  | keyword {name : List Char} : text.toList = ':' :: name → IsAtom text (.keyword (String.ofList name))
  | nil : text = "nil" → IsAtom text .nil
  | true : text = "true" → IsAtom text (.boolean Bool.true)
  | false : text = "false" → IsAtom text (.boolean Bool.false)
  | symbol : Numeral.looksNumeric text.toList = Bool.false → text.toList.head? ≠ some ':' →
      text ∉ ["nil", "true", "false"] → IsAtom text (.symbol text)

theorem ofName_eq_symbol {text : String} (hcolon : text.toList.head? ≠ some ':')
    (hconst : text ∉ ["nil", "true", "false"]) : Value.ofName text = .symbol text := by
  simp only [List.mem_cons, List.not_mem_nil, or_false, not_or] at hconst
  unfold Value.ofName
  split
  · rename_i name htext
    rw [htext] at hcolon
    exact absurd rfl hcolon
  · rename_i htext
    exact absurd (String.toList_inj.mp htext) hconst.1
  · rename_i htext
    exact absurd (String.toList_inj.mp htext) hconst.2.1
  · rename_i htext
    exact absurd (String.toList_inj.mp htext) hconst.2.2
  · rfl

theorem isAtom_ofName {text : String} (h : Numeral.looksNumeric text.toList = false) :
    IsAtom text (Value.ofName text) := by
  by_cases hcolon : text.toList.head? = some ':'
  · obtain ⟨name, hname⟩ := List.head?_eq_some_iff.mp hcolon
    have hvalue : Value.ofName text = .keyword (String.ofList name) := by simp [Value.ofName, hname]
    rw [hvalue]
    exact IsAtom.keyword hname
  · by_cases hconst : text ∈ ["nil", "true", "false"]
    · simp only [List.mem_cons, List.not_mem_nil, or_false] at hconst
      rcases hconst with rfl | rfl | rfl
      · exact IsAtom.nil rfl
      · exact IsAtom.true rfl
      · exact IsAtom.false rfl
    · rw [ofName_eq_symbol hcolon hconst]
      exact IsAtom.symbol h hcolon hconst

theorem looksNumeric_cons_colon (cs : List Char) : Numeral.looksNumeric (':' :: cs) = false := by
  rw [Numeral.looksNumeric.eq_def]
  rfl

theorem ofAtom?_eq_some_iff {text : String} {v : Value} : Value.ofAtom? text = some v ↔ IsAtom text v := by
  constructor
  · intro h
    unfold Value.ofAtom? at h
    split at h
    · rename_i hnumeric
      exact IsAtom.number hnumeric h
    · rename_i hnumeric
      cases h
      exact isAtom_ofName (Bool.eq_false_iff.mpr hnumeric)
  · intro h
    unfold Value.ofAtom?
    cases h with
    | number hnumeric hv => rw [if_pos hnumeric, hv]
    | keyword hname => simp [hname, looksNumeric_cons_colon, Value.ofName]
    | nil htext | true htext | false htext =>
        subst htext
        rfl
    | symbol hnumeric hcolon hconst =>
        rw [hnumeric, if_neg Bool.false_ne_true, ofName_eq_symbol hcolon hconst]

/-! ## Forms -/

/-- The lexemes that may be the key of a map, and the key that each of them is: its text, as written. -/
inductive IsKey : Lexeme → String → Prop where
  | atom (text : String) : IsKey (.atom text) text
  | string {raw : String} {content : List Char} :
      Text.Quoted.Denotes raw.toList content → IsKey (.string raw) raw

mutual

/-- Some lexemes are one form, with the value given. -/
inductive IsForm : List Lexeme → Value → Prop where
  | string {raw : String} {content : List Char} :
      Text.Quoted.Denotes raw.toList content → IsForm [.string raw] (.string (String.ofList content))
  | atom {text : String} {v : Value} : IsAtom text v → IsForm [.atom text] v
  | list {ls : List Lexeme} {vs : List Value} :
      AreForms ls vs → IsForm (.opening .round :: (ls ++ [.closing .round])) (.list vs)
  | vector {ls : List Lexeme} {vs : List Value} :
      AreForms ls vs → IsForm (.opening .square :: (ls ++ [.closing .square])) (.vector vs)
  /-- A map has the keys that are written, each with the last of the values written for it. -/
  | map {ls : List Lexeme} {es m : List (String × Value)} :
      AreEntries ls es → Entries.Ordered m → (∀ key, Entries.find? key m = Entries.find? key es.reverse) →
      IsForm (.opening .curly :: (ls ++ [.closing .curly])) (.map m)
  | marked (m : Mark) {ls : List Lexeme} {v : Value} : IsForm ls v → IsForm (.mark m :: ls) (.marked m v)
  | deref {ls : List Lexeme} {v : Value} : IsForm ls v → IsForm (.deref :: ls) (.list [.symbol "deref", v])
  /-- The metadata comes before the form that it belongs to. -/
  | withMeta {ls ls' : List Lexeme} {m v : Value} :
      IsForm ls m → IsForm ls' v → IsForm (.withMeta :: (ls ++ ls')) (.list [.symbol "with-meta", v, m])

/-- Some lexemes are keys of a map, each followed by its value. -/
inductive AreEntries : List Lexeme → List (String × Value) → Prop where
  | nil : AreEntries [] []
  | cons {k : Lexeme} {key : String} {ls ls' : List Lexeme} {v : Value} {es : List (String × Value)} :
      IsKey k key → IsForm ls v → AreEntries ls' es → AreEntries (k :: (ls ++ ls')) ((key, v) :: es)

/-- Some lexemes are forms, one after another. -/
inductive AreForms : List Lexeme → List Value → Prop where
  | nil : AreForms [] []
  | cons {ls ls' : List Lexeme} {v : Value} {vs : List Value} :
      IsForm ls v → AreForms ls' vs → AreForms (ls ++ ls') (v :: vs)

end

/-- A whole sequence of lexemes is cut into parts, and each part is a form with the value that goes with it. -/
def IsReading (ls : List Lexeme) (parts : List (List Lexeme × Value)) : Prop :=
  (∀ p ∈ parts, IsForm p.1 p.2) ∧ (parts.map Prod.fst).flatten = ls

theorem IsReading.areForms {ls : List Lexeme} {parts : List (List Lexeme × Value)} (h : IsReading ls parts) :
    AreForms ls (parts.map Prod.snd) := by
  obtain ⟨hforms, rfl⟩ := h
  induction parts with
  | nil => exact AreForms.nil
  | cons p parts ih =>
      have hhead : IsForm p.1 p.2 := hforms p List.mem_cons_self
      have htail := ih fun q hq => hforms q (List.mem_cons_of_mem _ hq)
      exact AreForms.cons hhead htail

theorem AreForms.exists_isReading {ls : List Lexeme} {vs : List Value} (h : AreForms ls vs) :
    ∃ parts, IsReading ls parts ∧ parts.map Prod.snd = vs := by
  induction vs generalizing ls with
  | nil =>
      cases h
      exact ⟨[], ⟨by simp, rfl⟩, rfl⟩
  | cons v vs ih =>
      cases h with
      | @cons ls₁ _ _ _ hform hforms =>
          obtain ⟨parts, ⟨hparts, hflat⟩, hvalues⟩ := ih hforms
          refine ⟨(ls₁, v) :: parts, ⟨?_, ?_⟩, ?_⟩
          · intro p hp
            rcases List.mem_cons.mp hp with rfl | hp
            · exact hform
            · exact hparts p hp
          · rw [List.map_cons, List.flatten_cons, hflat]
          · rw [List.map_cons, hvalues]

/-! ## More at the end -/

theorem AreForms.append {ls ls' : List Lexeme} {vs ws : List Value} (h : AreForms ls vs) (h' : AreForms ls' ws) :
    AreForms (ls ++ ls') (vs ++ ws) := by
  induction vs generalizing ls with
  | nil =>
      cases h
      exact h'
  | cons v vs ih =>
      cases h with
      | cons hv hvs =>
          rw [List.append_assoc]
          exact AreForms.cons hv (ih hvs)

theorem AreForms.snoc {ls ls' : List Lexeme} {vs : List Value} {v : Value} (h : AreForms ls vs)
    (hv : IsForm ls' v) : AreForms (ls ++ ls') (vs ++ [v]) := by
  have hone := AreForms.cons hv AreForms.nil
  rw [List.append_nil] at hone
  exact h.append hone

theorem AreEntries.snoc {ls ls' : List Lexeme} {es : List (String × Value)} {k : Lexeme} {key : String} {v : Value}
    (h : AreEntries ls es) (hk : IsKey k key) (hv : IsForm ls' v) :
    AreEntries (ls ++ k :: ls') (es ++ [(key, v)]) := by
  induction es generalizing ls with
  | nil =>
      cases h
      have hone := AreEntries.cons hk hv AreEntries.nil
      rwa [List.append_nil] at hone
  | cons e es ih =>
      cases h with
      | cons hl hw hes =>
          rw [List.cons_append, List.append_assoc]
          exact AreEntries.cons hl hw (ih hes)

/-! ## Maps -/

theorem Entries.find?_ofList {α : Type} (key : String) (es : List (String × α)) :
    (Entries.ofList es).find? key = Entries.find? key es.reverse := by
  rw [Entries.ofList, Entries.find?_foldl_insert, Entries.find?, Option.or_none]

theorem Entries.ordered_ofList {α : Type} (es : List (String × α)) : (Entries.ofList es).Ordered :=
  Entries.Ordered.foldl_insert List.Pairwise.nil es

theorem Entries.ofList_snoc {α : Type} (es : List (String × α)) (key : String) (v : α) :
    Entries.ofList (es ++ [(key, v)]) = (Entries.ofList es).insert key v := by
  simp [Entries.ofList]

theorem IsForm.map_ofList {ls : List Lexeme} {es : List (String × Value)} (h : AreEntries ls es) :
    IsForm (.opening .curly :: (ls ++ [.closing .curly])) (.map (Entries.ofList es)) :=
  IsForm.map h (Entries.ordered_ofList es) fun key => Entries.find?_ofList key es

/-- The look-ups of a map leave no choice. -/
theorem ofList_eq_of_find? {es m : List (String × Value)} (hordered : Entries.Ordered m)
    (hfind : ∀ key, Entries.find? key m = Entries.find? key es.reverse) : Entries.ofList es = m := by
  apply Entries.Ordered.ext (Entries.ordered_ofList es) hordered
  intro key
  rw [Entries.find?_ofList, hfind]

end SmallLisp
