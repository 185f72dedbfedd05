import SmallLisp.Proofs.Eval.Nesting
import SmallLisp.Proofs.Session.Scopes

/-!
# `SmallLisp.Proofs.Session.Nesting` — programs that make no functions end

Evaluation can go on forever only by calls of functions, and a function is made by a form that says `fn*`. Where no
text of a session says so, the only functions are the builtins and the one that the prelude defines, under whatever
names they come to be bound. Its body is a conditional between constants, which nests twice. So the evaluation of such
a text nests no more than once deeper than its forms do.

## Contents
* **Texts** `Form.nesting`, `Form.MakesNoFunctions`.
* **The invariant** `Invariant.functionless` of a root session, kept by `Session.PlainStep`.
* **The prelude's function** evaluates its body at every bound from two on alike.
* **The result** `ends_without_functions`, with a session that needs the whole bound.
-/

namespace SmallLisp

open Relation (ReflTransGen)

/-! ## Texts -/

namespace Form

/-- How deeply the forms of a text are nested; zero where it has none or cannot be read. -/
def nesting (source : String) : Nat :=
  match readAll source with
  | .ok forms => Value.depthItems forms
  | .error _  => 0

/-- The symbol `fn*` occurs nowhere in the forms of the text, data and templates included. -/
def MakesNoFunctions (source : String) : Prop :=
  ∀ forms, readAll source = .ok forms → ∀ form ∈ forms, .symbol SpecialForm.function.name ∉ form.mentions

end Form

/-! ## The invariant -/

/-- A mention that is not of `fn*`, nor of a closure other than that of the prelude, over any scope. -/
def Mention.Functionless : Mention → Prop
  | symbol name           => name ≠ SpecialForm.function.name
  | closure params body _ => params = ["a"] ∧ body = Session.notBody
  | _                     => True

/-- There are no closures but that of the prelude, and no symbol `fn*`. -/
def Invariant.functionless : Invariant where
  good st := st.OnlyBinds Mention.Functionless
  fits _ v := v.OnlyMentions Mention.Functionless
  fits_grows hv _ := hv
  good_newScope h _ := h.newScope _
  good_newScope_closure h _ := h.newScope _
  good_set s name h hv := h.set hv s name
  fits_get? h hget := h.get? hget
  fits_scalar h := Value.onlyMentions_of_isScalar h
  fits_list := Value.onlyMentions_list
  fits_vector := Value.onlyMentions_vector
  fits_marked := Value.onlyMentions_marked
  fits_entry h e he := (Value.onlyMentions_map.mp h e he).2
  fits_map _ _ h := Value.onlyMentions_map.mpr fun e he => ⟨trivial, h e he⟩
  fits_body h := (Value.onlyMentions_closure.mp h).2
  fits_closure hname _ _ _ := absurd rfl (Value.onlyMentions_symbol.mp hname)

/-- The reader makes no closures, so a form that does not say `fn*` fits. -/
theorem FromReader.functionless {form : Value} (h : FromReader form)
    (hform : .symbol SpecialForm.function.name ∉ form.mentions) : form.OnlyMentions Mention.Functionless := by
  intro m hm
  cases m with
  | symbol name =>
      rintro rfl
      exact hform hm
  | closure params body scope =>
      have hscope : Store.empty.Has scope := h.readable.inStore Store.empty _ hm
      exact absurd hscope (Nat.not_lt_zero _)
  | keyword _ | key _ => trivial

namespace Session

theorem notFunction_functionless : notFunction.OnlyMentions Mention.Functionless := by
  simp [notFunction, notBody, Mention.Functionless, SpecialForm.name]

theorem good_root_functionless (limit : Nat) : (root limit).Good Invariant.functionless :=
  good_root_of_fits_not (Store.onlyBinds_empty.newScope none) (fun b _ => Value.onlyMentions_builtin b)
    (fun _ => notFunction_functionless) limit

/-- The session with another bound on the nesting. -/
def withLimit (s : Session) (limit : Nat) : Session := { s with limit := limit }

/-- A text that makes no functions is evaluated, with any bound on the nesting. -/
inductive PlainStep : Session → Session → Prop where
  | evaluateText (s : Session) (limit : Nat) {source : String} :
      Form.MakesNoFunctions source → PlainStep s ((s.withLimit limit).evaluateText source).session

theorem fits_of_makesNoFunctions {source : String} (h : Form.MakesNoFunctions source) :
    ∀ forms, Form.readAll source = .ok forms → ∀ form ∈ forms, form.OnlyMentions Mention.Functionless :=
  fun forms hread form hmem => (FromReader.all hread hmem).functionless (h forms hread form hmem)

theorem PlainStep.good {s t : Session} (h : PlainStep s t) (hs : s.Good Invariant.functionless) :
    t.Good Invariant.functionless := by
  cases h with
  | evaluateText limit hsource =>
      have hlimit : (s.withLimit limit).Good Invariant.functionless := ⟨hs.store, hs.has_scope⟩
      exact (good_evaluateText_of_fits hlimit (fits_of_makesNoFunctions hsource)).session

theorem good_of_plainSteps {limit : Nat} {s : Session} (h : ReflTransGen PlainStep (root limit) s) :
    s.Good Invariant.functionless := by
  induction h with
  | refl             => exact good_root_functionless limit
  | tail _ hstep ih => exact hstep.good ih

end Session

/-! ## The prelude's function -/

/-- A symbol and two constants take one nesting, and the conditional between them another one. -/
theorem Invariant.settlesBodies_functionless {n m : Nat} (hn : 2 ≤ n) (hm : 2 ≤ m) :
    functionless.SettlesBodies (eval n) (eval m) := by
  intro params body scope s st hst hs hclosure
  obtain ⟨n, rfl⟩ := Nat.exists_eq_add_of_le' hn
  obtain ⟨m, rfl⟩ := Nat.exists_eq_add_of_le' hm
  obtain ⟨⟨-, rfl⟩, hbody⟩ := Value.onlyMentions_closure.mp hclosure
  have hatoms : functionless.SettlesForms 1 (eval (n + 1)) (eval (m + 1)) :=
    settlesForms_evalForm (keptBy_eval n) (settlesForms_zero (eval n) (eval m)) nofun
  have hparts : ∀ part ∈ [.symbol "a", .boolean false, .boolean true], functionless.Within 1 st part := by
    intro part hpart
    refine ⟨Value.onlyMentions_list.mp hbody part (List.mem_cons_of_mem _ hpart), ?_⟩
    exact Value.depthItems_le_iff.mp (by decide) part hpart
  exact settles_evalConditional (keptBy_eval (n + 1)) hatoms hst hs hparts

/-! ## The result -/

namespace Session

/-- An operation that settles ends in the same way at another bound. -/
theorem perform_of_settles {α : Type} {s : Session} {x x' : Action α} (h : Action.Settles x x' s.store) (n : Nat) :
    (s.perform x).result ≠ .error .tooDeep ∧
      (s.withLimit n).perform x' = { s.perform x with session := (s.perform x).session.withLimit n } := by
  obtain ⟨hsame, hends⟩ := h
  unfold perform
  rw [show (s.withLimit n).store = s.store from rfl, hsame]
  generalize x s.store = run at hends
  rcases run with ⟨a | e | _, store, text⟩
  · exact ⟨nofun, rfl⟩
  · exact ⟨nofun, rfl⟩
  · exact absurd rfl hends

/-- One text of a good session. -/
theorem evaluateText_settles {s : Session} (hs : s.Good Invariant.functionless) {source : String}
    (hsource : Form.MakesNoFunctions source) {n : Nat} (hn : Form.nesting source + 1 ≤ n) :
    let reply := (s.withLimit (Form.nesting source + 1)).evaluateText source
    reply.result ≠ .error .tooDeep ∧
      (s.withLimit n).evaluateText source = { reply with session := reply.session.withLimit n } := by
  intro reply
  unfold reply evaluateText
  cases hread : Form.readAll source with
  | error e => exact ⟨nofun, rfl⟩
  | ok forms =>
      have hdepth : Value.depthItems forms ≤ Form.nesting source := by rw [Form.nesting, hread]
      have hwithin : ∀ form ∈ forms, Invariant.functionless.Within (Form.nesting source) s.store form :=
        Invariant.within_items (fits_of_makesNoFunctions hsource forms hread) hdepth
      have hforms := Invariant.settlesForms_eval (fun _ _ => Invariant.settlesBodies_functionless)
        (Form.nesting source) _ n (Nat.le_refl _) hn
      exact perform_of_settles (s := s.withLimit (Form.nesting source + 1))
        (Invariant.settles_evalSequence (Invariant.keptBy_eval _) hforms hs.store hs.has_scope hwithin) n

end Session

/-- **Programs without functions end.** In a root session, and after any texts that make no functions, let a text that
makes none be evaluated with one nesting more than its forms are deep. It ends with a value or an error, never because
it nests too deeply, and any higher bound gives the same result, the same bindings and the same output. -/
theorem ends_without_functions {limit : Nat} {s : Session} (hs : ReflTransGen Session.PlainStep (Session.root limit) s)
    {source : String} (hsource : Form.MakesNoFunctions source) :
    let reply := (s.withLimit (Form.nesting source + 1)).evaluateText source
    reply.result ≠ .error .tooDeep ∧
    ∀ n, Form.nesting source + 1 ≤ n →
      (s.withLimit n).evaluateText source = { reply with session := reply.session.withLimit n } := by
  have hgood := Session.good_of_plainSteps hs
  refine ⟨(Session.evaluateText_settles hgood hsource (Nat.le_refl _)).1, fun n hn => ?_⟩
  exact (Session.evaluateText_settles hgood hsource hn).2

/-- After `(def! no not)` the text `(no (no nil))` is three deep and ends at every bound from four on. Three is too low
for it, so the one nesting more is needed. -/
theorem renamed_not_ends :
    let s := (((Session.root 2).withLimit 3).evaluateText "(def! no not)").session
    let source := "(no (no nil))"
    ReflTransGen Session.PlainStep (Session.root 2) s ∧ Form.MakesNoFunctions source ∧ Form.nesting source = 3 ∧
      (∀ n, 4 ≤ n → ((s.withLimit n).evaluateText source).result = .ok (.boolean false)) ∧
      ((s.withLimit 3).evaluateText source).result = .error .tooDeep := by
  intro s source
  have hname : Form.readAll "(def! no not)" = .ok [.list [.symbol "def!", .symbol "no", .symbol "not"]] := by cbv
  have hread : Form.readAll source = .ok [.list [.symbol "no", .list [.symbol "no", .nil]]] := by
    simp only [source]
    cbv
  have hdefinition : Form.MakesNoFunctions "(def! no not)" := by
    intro forms hforms
    cases hname.symm.trans hforms
    simp [Value.mentionsItems, SpecialForm.name]
  have hsource : Form.MakesNoFunctions source := by
    intro forms hforms
    cases hread.symm.trans hforms
    simp [Value.mentionsItems, SpecialForm.name]
  have hnesting : Form.nesting source = 3 := by
    rw [Form.nesting, hread]
    rfl
  have hsteps : ReflTransGen Session.PlainStep (Session.root 2) s :=
    ReflTransGen.single (Session.PlainStep.evaluateText (Session.root 2) 3 hdefinition)
  obtain ⟨-, hhigher⟩ := ends_without_functions hsteps hsource
  rw [hnesting] at hhigher
  refine ⟨hsteps, hsource, hnesting, fun n hn => ?_, ?_⟩
  · rw [hhigher n hn]
    simp only [s, source]
    cbv
  · simp only [s, source]
    cbv

end SmallLisp
