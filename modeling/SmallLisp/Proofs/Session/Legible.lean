import Mathlib.Logic.Relation
import SmallLisp.Proofs.Form.RoundTrip
import SmallLisp.Proofs.Session.Invariant

/-!
# `SmallLisp.Proofs.Session.Legible` — what a session prints can be read back

A session puts values together that have never been a text, but it makes no names: every symbol, keyword, key and
parameter in them has been read somewhere. So a value that is written, if it is neither a function nor under a mark
nor holds an infinity or a NaN, is one that the reader could have given, and reads back as itself.

## Contents
* **Names** `ReadsFromToken`, `Mention.FromToken`: what the reader makes from one token.
* **Values** `Value.Legible`, which reading gives (`Readable.legible`), and which mention such names only.
* **Plain data** `Value.Plain`, which reads back if it is legible (`Value.Legible.read_print`).
* **The invariant** `Invariant.legible`, and runs `Session.TextStep`.
* **The result** `echo_reads_back`, with a session that shows it.
-/

namespace SmallLisp

open Relation (ReflTransGen)

open Binary64

/-! ## Names -/

/-- The reader makes the value from a text of one token. -/
def ReadsFromToken (v : Value) : Prop := ∃ source t, Token.scan source = [t] ∧ Form.read source = .ok (some v)

/-- The reader makes the name from a text of one token. For a key it does so where it expects one, in whatever map. -/
def Mention.FromToken : Mention → Prop
  | symbol name        => ReadsFromToken (.symbol name)
  | keyword name       => ReadsFromToken (.keyword name)
  | key text           => ∃ source t, Token.scan source = [t] ∧ ∀ entries outer,
      (Reading.key entries outer).feed t = .ok (.unfinished (.form (.value entries text :: outer)))
  | closure params _ _ => ∀ param ∈ params, ReadsFromToken (.symbol param)

theorem CutsTo.exists_scan_eq {cs : List Char} {l : Lexeme} (h : CutsTo cs [l]) :
    ∃ t, Token.scan (String.ofList cs) = [t] ∧ t.lexeme = l :=
  List.map_eq_singleton_iff.mp h.map_lexeme_scan

theorem WritesForm.read_eq {cs : List Char} {v : Value} (h : WritesForm cs v) :
    Form.read (String.ofList cs) = .ok (some v) := by
  obtain ⟨ls, hcut, hform⟩ := h
  have hrun : Progress.Run (.unfinished .start) (Token.scan (String.ofList cs)) (.finished v) :=
    hform.run hcut.map_lexeme_scan []
  exact Form.read_eq_ok_iff.mpr ⟨_, [], (List.append_nil _).symm, hrun⟩

theorem readsFromToken_of_atom {text : String} {v : Value} (hcut : (Lexeme.atom text).WellCut) (h : IsAtom text v) :
    ReadsFromToken v := by
  obtain ⟨t, hscan, -⟩ := (cutsTo_atom hcut).exists_scan_eq
  exact ⟨_, t, hscan, (writesForm_atom hcut h).read_eq⟩

theorem readsFromToken_keyword {name : String} (h : ∀ c ∈ name.toList, isAtomChar c = true) :
    ReadsFromToken (.keyword name) := by
  have htext : (String.ofList (':' :: name.toList)).toList = ':' :: name.toList := String.toList_ofList
  have hatom := IsAtom.keyword htext
  rw [String.ofList_toList] at hatom
  exact readsFromToken_of_atom ⟨':', name.toList, htext, by decide, h⟩ hatom

theorem IsWrittenKey.fromToken {text : String} (h : IsWrittenKey text) : Mention.FromToken (.key text) := by
  obtain ⟨k, hcut, hkey⟩ := h.exists_cutsTo
  obtain ⟨t, hscan, ht⟩ := hcut.exists_scan_eq
  exact ⟨_, t, hscan, fun entries outer => feed_key hkey ht entries outer⟩

/-! ## Values -/

namespace Value

/-- A value that can be come across in a session: every name in it has been read, also in the bodies of closures. -/
inductive Legible : Value → Prop where
  | scalar {v : Value} : v.isScalar = true → Legible v
  | keyword {name : String} : (∀ c ∈ name.toList, isAtomChar c = true) → Legible (keyword name)
  | symbol {name : String} : (Lexeme.atom name).WellCut → IsAtom name (.symbol name) → Legible (symbol name)
  | list {items : List Value} : (∀ v ∈ items, Legible v) → Legible (list items)
  | vector {items : List Value} : (∀ v ∈ items, Legible v) → Legible (vector items)
  | map {entries : List (String × Value)} : Entries.Ordered entries →
      (∀ e ∈ entries, IsWrittenKey e.1) → (∀ e ∈ entries, Legible e.2) → Legible (map entries)
  | builtin (b : Builtin) : Legible (builtin b)
  | closure {params : List String} {body : Value} (scope : ScopeId) :
      (∀ param ∈ params, Legible (.symbol param)) → Legible body → Legible (closure params body scope)
  | marked (m : Mark) {v : Value} : Legible v → Legible (marked m v)

end Value

theorem Readable.legible {v : Value} (h : Readable v) : v.Legible := by
  induction h with
  | nil | boolean _ | integer _ | float _ | string _ => exact Value.Legible.scalar rfl
  | keyword hname => exact Value.Legible.keyword hname
  | symbol hcut hatom => exact Value.Legible.symbol hcut hatom
  | list _ ih => exact Value.Legible.list ih
  | vector _ ih => exact Value.Legible.vector ih
  | map hordered hkeys _ ih => exact Value.Legible.map hordered hkeys ih
  | marked m _ ih => exact Value.Legible.marked m ih

namespace Value

theorem legible_list {items : List Value} : Legible (list items) ↔ ∀ v ∈ items, Legible v := by
  refine ⟨fun h => ?_, Legible.list⟩
  cases h with
  | scalar h => cases h
  | list h   => exact h

theorem legible_vector {items : List Value} : Legible (vector items) ↔ ∀ v ∈ items, Legible v := by
  refine ⟨fun h => ?_, Legible.vector⟩
  cases h with
  | scalar h => cases h
  | vector h => exact h

theorem legible_map {entries : List (String × Value)} (h : Legible (map entries)) :
    Entries.Ordered entries ∧ (∀ e ∈ entries, IsWrittenKey e.1) ∧ ∀ e ∈ entries, Legible e.2 := by
  cases h with
  | scalar h => cases h
  | map hordered hkeys hvalues => exact ⟨hordered, hkeys, hvalues⟩

/-- Order and spelling are those of the keys. -/
theorem legible_map_of_keys {es fs : List (String × Value)} (h : Legible (map es))
    (hkeys : fs.map Prod.fst = es.map Prod.fst) (hvalues : ∀ f ∈ fs, Legible f.2) : Legible (map fs) := by
  obtain ⟨hordered, hwritten, -⟩ := legible_map h
  refine Legible.map ?_ (fun f hf => ?_) hvalues
  · have hpairwise : (es.map Prod.fst).Pairwise (· < ·) := List.pairwise_map.mpr hordered
    rw [← hkeys] at hpairwise
    exact List.pairwise_map.mp hpairwise
  · have hmem : f.1 ∈ es.map Prod.fst := hkeys ▸ List.mem_map_of_mem hf
    obtain ⟨e, he, heq⟩ := List.mem_map.mp hmem
    exact heq ▸ hwritten e he

theorem legible_body {params : List String} {body : Value} {scope : ScopeId} (h : Legible (closure params body scope)) :
    Legible body := by
  cases h with
  | scalar h => cases h
  | closure _ _ hbody => exact hbody

theorem legible_marked {m : Mark} {v : Value} : Legible (marked m v) ↔ Legible v := by
  refine ⟨fun h => ?_, Legible.marked m⟩
  cases h with
  | scalar h => cases h
  | marked _ h => exact h

/-- **All names of a legible value are made by the reader.** -/
theorem Legible.fromToken {v : Value} (h : v.Legible) : v.OnlyMentions Mention.FromToken := by
  induction h with
  | scalar h => exact onlyMentions_of_isScalar h
  | keyword hname => exact onlyMentions_keyword.mpr (readsFromToken_keyword hname)
  | symbol hcut hatom => exact onlyMentions_symbol.mpr (readsFromToken_of_atom hcut hatom)
  | list _ ih => exact onlyMentions_list.mpr ih
  | vector _ ih => exact onlyMentions_vector.mpr ih
  | map _ hkeys _ ih => exact onlyMentions_map.mpr fun e he => ⟨(hkeys e he).fromToken, ih e he⟩
  | builtin b => exact onlyMentions_builtin b
  | closure scope _ _ hparams hbody =>
      refine onlyMentions_closure.mpr ⟨?_, hbody⟩
      intro param hparam
      exact onlyMentions_symbol.mp (hparams param hparam)
  | marked m _ ih => exact onlyMentions_marked.mpr ih

/-! ## Plain data -/

/-- The value holds no functions, nothing under a mark, and no float but finite ones, at any depth. -/
structure Plain (v : Value) : Prop where
  no_builtin : ∀ b, ¬ Occurs (builtin b) v
  no_closure : ∀ params body scope, ¬ Occurs (closure params body scope) v
  no_mark : ∀ m u, ¬ Occurs (marked m u) v
  finite : ∀ x, Occurs (float x) v → isFinite x = true

/-- Parts of plain data are plain. -/
theorem Plain.part {v u : Value} (h : v.Plain) (hu : ∀ w, Occurs w u → Occurs w v) : u.Plain :=
  ⟨fun b hb => h.no_builtin b (hu _ hb), fun params body scope hc => h.no_closure params body scope (hu _ hc),
    fun m w hm => h.no_mark m w (hu _ hm), fun x hx => h.finite x (hu _ hx)⟩

theorem Legible.readable {v : Value} (h : v.Legible) (hplain : v.Plain) : Readable v := by
  induction h with
  | @scalar v h =>
      cases v with
      | nil            => exact Readable.nil
      | boolean b      => exact Readable.boolean b
      | integer n      => exact Readable.integer n
      | float x        => exact Readable.float (Nat.le_of_lt (of_decide_eq_true (hplain.finite x Occurs.self)))
      | string content => exact Readable.string content
      | _              => cases h
  | keyword hname => exact Readable.keyword hname
  | symbol hcut hatom => exact Readable.symbol hcut hatom
  | list _ ih => exact Readable.list fun v hv => ih v hv (hplain.part fun _ hw => Occurs.list hv hw)
  | vector _ ih => exact Readable.vector fun v hv => ih v hv (hplain.part fun _ hw => Occurs.vector hv hw)
  | map hordered hkeys _ ih =>
      exact Readable.map hordered hkeys fun e he => ih e he (hplain.part fun _ hw => Occurs.map he hw)
  | builtin b => exact absurd Occurs.self (hplain.no_builtin b)
  | closure scope _ _ _ _ => exact absurd Occurs.self (hplain.no_closure _ _ scope)
  | marked m _ _ => exact absurd Occurs.self (hplain.no_mark m _)

/-- **Legible plain data reads back,** with the entries of its maps written in any order. -/
theorem Legible.read_print {v w : Value} (h : v.Legible) (hplain : v.Plain) (horder : Reordered v w) :
    Form.read (w.print true) = .ok (some v) := by
  have hwrites := (h.readable hplain).writesForm horder fun x hx => isInf_eq_false (hplain.finite x hx)
  rw [desugar_eq_self hplain.no_mark] at hwrites
  exact hwrites.read_eq

end Value

/-! ## The invariant -/

/-- All values are legible. -/
def Invariant.legible : Invariant where
  good st := ∀ s name v, st.own? s name = some v → v.Legible
  fits _ v := v.Legible
  fits_grows hv _ := hv
  good_newScope h _ s name v hv := h s name v (by rwa [Store.own?_newScope] at hv)
  good_newScope_closure h _ s name v hv := h s name v (by rwa [Store.own?_newScope] at hv)
  good_set s name h hv o k w hw := by
    rw [Store.own?_set] at hw
    split at hw
    · exact Option.some.inj hw ▸ hv
    · exact h o k w hw
  fits_get? h hget := by
    obtain ⟨o, hown⟩ := Store.exists_own?_of_get? hget
    exact h o _ _ hown
  fits_scalar := Value.Legible.scalar
  fits_list := Value.legible_list
  fits_vector := Value.legible_vector
  fits_marked := Value.legible_marked
  fits_entry h := (Value.legible_map h).2.2
  fits_map h hkeys hvalues := Value.legible_map_of_keys h hkeys hvalues
  fits_body := Value.legible_body
  fits_closure _ hparams hbody _ := Value.Legible.closure _ hparams hbody

theorem Invariant.legible_fitsForms : legible.FitsForms := fun _ hv _ => hv.readable.legible

namespace Session

/-- One operation of a session on a text. -/
inductive TextStep : Session → Session → Prop where
  | evaluateFirst (s : Session) (source : String) : TextStep s (s.evaluateFirst source).session
  | echo (s : Session) (source : String) : TextStep s (s.echo source).session
  | evaluateText (s : Session) (source : String) : TextStep s (s.evaluateText source).session

variable {s t : Session}

theorem TextStep.good {I : Invariant} (hI : I.FitsForms) (h : TextStep s t) (hs : s.Good I) : t.Good I := by
  cases h with
  | evaluateFirst source | echo source => exact (good_evaluateFirst hI hs source).session
  | evaluateText source                => exact (good_evaluateText hI hs source).session

theorem good_of_textSteps {I : Invariant} (hI : I.FitsForms) (h : ReflTransGen TextStep s t) (hs : s.Good I) :
    t.Good I := by
  induction h with
  | refl => exact hs
  | tail _ hstep ih => exact hstep.good hI ih

theorem legible_root (limit : Nat) : (root limit).Good Invariant.legible := by
  refine good_root Invariant.legible_fitsForms ?_ (fun b _ => Value.Legible.builtin b) limit
  intro s name v hv
  rw [Store.own?_newScope, Store.own?_eq_none (Nat.not_lt_zero _)] at hv
  cases hv

end Session

/-! ## The result -/

/-- All names in the result of the reply, a value or an error, are made by the reader from single tokens. -/
def Reply.FromToken {α : Type} (values : α → List Value) (r : Reply α) : Prop :=
  (∀ a, r.result = .ok a → ∀ v ∈ values a, v.OnlyMentions Mention.FromToken) ∧
  (∀ e, r.result = .error (.eval e) → ∀ v ∈ e.values, v.OnlyMentions Mention.FromToken)

theorem Reply.Good.fromToken {α : Type} {ok : Store → α → Prop} {values : α → List Value} {r : Reply α}
    (h : r.Good Invariant.legible ok) (hvalues : ∀ st a, ok st a → ∀ v ∈ values a, v.Legible) :
    r.FromToken values := by
  refine ⟨?_, ?_⟩
  · intro a ha v hv
    have hlegible : v.Legible := hvalues _ a (h.result_ok a ha) v hv
    exact hlegible.fromToken
  · intro e he v hv
    have hlegible : v.Legible := h.error_fits e he v hv
    exact hlegible.fromToken

/-- An answer is the text of a value. -/
theorem Session.exists_of_echo {s : Session} {source text : String} (h : (s.echo source).result = .ok (some text)) :
    ∃ v, (s.evaluateFirst source).result = .ok (some v) ∧ text = v.print true := by
  have hmap : (s.evaluateFirst source).result.map (Option.map (Value.print true)) = .ok (some text) := h
  cases hresult : (s.evaluateFirst source).result with
  | error f =>
      rw [hresult] at hmap
      cases hmap
  | ok v? =>
      rw [hresult] at hmap
      cases v? with
      | none => cases hmap
      | some v =>
          cases hmap
          exact ⟨v, rfl, rfl⟩

/-- **What a session prints can be read back.** Whatever texts have been evaluated in a root session, with success or
not, all names in the values that are bound or given are made by the reader from single tokens. And if an answer is
the text of plain data, then this text reads back as just these data, in whatever order the entries of maps are
written. -/
theorem echo_reads_back {limit : Nat} {s : Session} (h : ReflTransGen Session.TextStep (Session.root limit) s) :
    s.store.OnlyBinds Mention.FromToken ∧
    (∀ source, (s.evaluateFirst source).FromToken Option.toList) ∧
    (∀ source, (s.evaluateText source).FromToken fun v => [v]) ∧
    (∀ source text, (s.echo source).result = .ok (some text) →
      ∃ v, (s.evaluateFirst source).result = .ok (some v) ∧ text = v.print true ∧
        (v.Plain → ∀ w, Reordered v w → Form.read (w.print true) = .ok (some v))) := by
  have hgood : s.Good Invariant.legible :=
    Session.good_of_textSteps Invariant.legible_fitsForms h (Session.legible_root limit)
  have hfirst := fun source => Session.good_evaluateFirst Invariant.legible_fitsForms hgood source
  have htext := fun source => Session.good_evaluateText Invariant.legible_fitsForms hgood source
  refine ⟨?_, ?_, ?_, ?_⟩
  · intro o name v hv
    exact (hgood.store o name v hv).fromToken
  · intro source
    exact (hfirst source).fromToken fun _ v? hv? v hv => hv? v (Option.mem_toList.mp hv)
  · intro source
    exact (htext source).fromToken fun _ v hv => List.forall_mem_singleton.mpr hv
  · intro source text hecho
    obtain ⟨v, hv, hprint⟩ := Session.exists_of_echo hecho
    have hlegible : v.Legible := (hfirst source).result_ok (some v) hv v rfl
    refine ⟨v, hv, hprint, ?_⟩
    intro hplain w horder
    exact hlegible.read_print hplain horder

/-- After a definition and a call that fails, a call gives a list of names that comes back from its text. -/
theorem list_of_names_reads_back :
    let s := ((Session.root 9).evaluateText "(def! f (fn* (a) (list a :k))) (f)").session
    let v := Value.list [.symbol "x", .keyword "k"]
    ReflTransGen Session.TextStep (Session.root 9) s ∧
    (s.echo "(f 'x)").result = .ok (some "(x :k)") ∧ v.Plain ∧ Form.read "(x :k)" = .ok (some v) := by
  intro s v
  have hsteps : ReflTransGen Session.TextStep (Session.root 9) s :=
    ReflTransGen.single (Session.TextStep.evaluateText _ _)
  have hvalue : (s.evaluateFirst "(f 'x)").result = .ok (some v) := by
    simp only [s, v]
    cbv
  have hprint : v.print true = "(x :k)" := by decide +kernel
  have hecho : (s.echo "(f 'x)").result = .ok (some "(x :k)") := by
    show (s.evaluateFirst "(f 'x)").result.map (Option.map (Value.print true)) = _
    rw [hvalue, ← hprint]
    rfl
  have hparts : ∀ u, Occurs u (.list [.symbol "x", .keyword "k"]) → u = v ∨ u = .symbol "x" ∨ u = .keyword "k" := by
    intro u hu
    cases hu with
    | self => exact Or.inl rfl
    | list hitem hu =>
        simp only [List.mem_cons, List.not_mem_nil, or_false] at hitem
        rcases hitem with rfl | rfl <;> cases hu <;> simp
  have hplain : v.Plain := by
    refine ⟨fun b hb => ?_, fun params body scope hc => ?_, fun m u hm => ?_, fun x hx => ?_⟩
    · simpa [v] using hparts _ hb
    · simpa [v] using hparts _ hc
    · simpa [v] using hparts _ hm
    · simpa [v] using hparts _ hx
  obtain ⟨-, -, -, hreads⟩ := echo_reads_back hsteps
  obtain ⟨w, hw, -, hread⟩ := hreads "(f 'x)" _ hecho
  rw [hvalue] at hw
  cases hw
  refine ⟨hsteps, hecho, hplain, ?_⟩
  rw [← hprint]
  exact hread hplain v (Reordered.same v)

end SmallLisp
