import Mathlib
import SmallLisp.Proofs.Eval.Frame
import SmallLisp.Proofs.Eval.Likeness
import SmallLisp.Session

/-!
# `SmallLisp.Proofs.Eval.Shape` — special forms of the wrong shape

A special form looks at its own shape before it evaluates anything, with one exception: a `let*` list looks at each
name only when it has come to it, and by then it has evaluated the forms of the names before. So a form of the wrong
shape is refused without a trace, or it is a `let*` list that does what the bindings before the first wrong name do in
its own new scope, and is refused then.

## Contents
* **Shapes** `SpecialForm.WellShaped`, and what can be wrong with them, `SpecialForm.Misshapen`.
* **Names in lists.** A list of parameters or bindings is one of names, or has a first item that should be a name and
  is none (`Eval.exists_of_paramNames_eq_error`, `bindingItems_cases`). So a form is not of both shapes
  (`SpecialForm.Misshapen.not_wellShaped`).
* **Refusals** of forms (`refusal_of_not_wellShaped`) and of `let*` lists (`evalLet_of_breaksAt`).
* **The result** `misshapen_form_has_no_effect`, with a binding list of odd length, and
  `let_evaluates_before_wrong_name`.
-/

namespace SmallLisp

/-! ## Shapes -/

/-- The items of a binding list: names and forms in turn. -/
def bindingItems (bindings : List (String × Value)) : List Value := bindings.flatMap fun b => [.symbol b.1, b.2]

/-- The marker stands in a parameter list with no name after it. -/
def Params.AnnouncesNothing (params : List String) : Prop :=
  ∃ before, restMarker ∉ before ∧ params = before ++ [restMarker]

/-- The binding list has an even number of items; the first of them that should be a symbol and is none is `target`,
and what stands before it are the bindings `before`. -/
def Value.BreaksAt (bindings : Value) (before : List (String × Value)) (target : Value) : Prop :=
  target.symbol? = none ∧
    ∃ form rest, bindings.items? = some (bindingItems before ++ target :: form :: rest) ∧ rest.length % 2 = 0

namespace SpecialForm

/-- The parts that a special form should have. -/
inductive WellShaped : SpecialForm → List Value → Prop where
  | define (name : String) (form : Value) : WellShaped .define [.symbol name, form]
  | letIn {bindings : Value} (bs : List (String × Value)) (body : Value) :
      bindings.items? = some (bindingItems bs) → WellShaped .letIn [bindings, body]
  | sequence (form : Value) (forms : List Value) : WellShaped .sequence (form :: forms)
  | conditional (condition thenForm : Value) : WellShaped .conditional [condition, thenForm]
  | conditionalElse (condition thenForm elseForm : Value) :
      WellShaped .conditional [condition, thenForm, elseForm]
  | function {params : Value} (names : List String) (body : Value) :
      params.items? = some (names.map Value.symbol) → ¬ Params.AnnouncesNothing names →
      WellShaped .function [params, body]
  | quote (form : Value) : WellShaped .quote [form]
  | quasiquote (form : Value) : WellShaped .quasiquote [form]

/-- Whether a special form can have so many parts. -/
def Takes : SpecialForm → Nat → Prop
  | sequence, n    => 0 < n
  | conditional, n => n = 2 ∨ n = 3
  | quote, n       => n = 1
  | quasiquote, n  => n = 1
  | _, n           => n = 2

/-- What is wrong with the parts of a special form. -/
inductive Misshapen : SpecialForm → List Value → Fault → Prop where
  | parts {f : SpecialForm} {parts : List Value} : ¬ f.Takes parts.length → Misshapen f parts (.parts f)
  | definedTarget {target : Value} (form : Value) :
      target.symbol? = none → Misshapen .define [target, form] (.bindingTarget .define target)
  | bindings {bindings : Value} (body : Value) :
      bindings.items? = none → Misshapen .letIn [bindings, body] (.bindingsNotAList bindings)
  | odd {bindings : Value} {items : List Value} (body : Value) :
      bindings.items? = some items → items.length % 2 = 1 → Misshapen .letIn [bindings, body] .oddBindings
  | boundTarget {bindings target : Value} {before : List (String × Value)} (body : Value) :
      bindings.BreaksAt before target → Misshapen .letIn [bindings, body] (.bindingTarget .letIn target)
  | params {params : Value} (body : Value) :
      params.items? = none → Misshapen .function [params, body] (.paramsNotAList params)
  /-- Of several parameters that are no symbols the first is blamed. -/
  | param {params param : Value} {before : List String} {rest : List Value} (body : Value) :
      params.items? = some (before.map Value.symbol ++ param :: rest) → param.symbol? = none →
      Misshapen .function [params, body] (.paramNotASymbol param)
  | marker {params : Value} {names : List String} (body : Value) :
      params.items? = some (names.map Value.symbol) → Params.AnnouncesNothing names →
      Misshapen .function [params, body] .markerAnnouncesNothing

/-- A fault is reported under the name of the form that has it. -/
theorem Misshapen.form_eq {f : SpecialForm} {parts : List Value} {fault : Fault} (h : f.Misshapen parts fault) :
    fault.form = f.name := by
  cases h <;> rfl

end SpecialForm

/-! ## Names in lists -/

theorem Params.marksNothing_iff (params : List String) : marksNothing params = true ↔ AnnouncesNothing params := by
  rw [marksNothing, beq_iff_eq]
  constructor
  · intro hone
    obtain ⟨marker, hmarker⟩ := List.length_eq_one_iff.mp hone
    have hsplit : fixed params ++ fromMarker params = params := List.takeWhile_append_dropWhile
    have hstop := List.head?_dropWhile_not (· != restMarker) params
    rw [← fromMarker, hmarker] at hstop
    obtain rfl : marker = restMarker := by simpa using hstop
    have hfixed := List.all_eq_true.mp (List.all_takeWhile (p := (· != restMarker)) (l := params))
    refine ⟨fixed params, fun hmem => ?_, by rw [← hmarker, hsplit]⟩
    exact bne_iff_ne.mp (hfixed restMarker hmem) rfl
  · rintro ⟨before, hbefore, rfl⟩
    have hall : ∀ param ∈ before, (param != restMarker) = true := by
      intro param hparam
      rw [bne_iff_ne]
      rintro rfl
      exact hbefore hparam
    rw [fromMarker, List.dropWhile_append_of_pos hall]
    rfl

theorem Value.eq_symbol_of_symbol? {v : Value} {name : String} (h : v.symbol? = some name) : v = .symbol name := by
  cases v with
  | symbol n =>
      cases h
      rfl
  | _ => cases h

/-- The parameters in front of the one that is blamed are all names. -/
theorem Eval.exists_of_paramNames_eq_error {params : List Value} {fault : Fault}
    (h : paramNames params = .error fault) :
    ∃ (before : List String) (param : Value) (rest : List Value),
      params = before.map Value.symbol ++ param :: rest ∧ param.symbol? = none ∧ fault = .paramNotASymbol param := by
  induction params generalizing fault with
  | nil => cases h
  | cons param params ih =>
      rw [paramNames] at h
      cases hname : param.symbol? with
      | none =>
          rw [hname] at h
          cases h
          exact ⟨[], param, params, rfl, hname, rfl⟩
      | some name =>
          rw [hname] at h
          cases hrest : paramNames params with
          | ok names =>
              rw [hrest] at h
              cases h
          | error fault' =>
              rw [hrest] at h
              cases h
              obtain ⟨before, param', rest, rfl, hparam, rfl⟩ := ih hrest
              refine ⟨name :: before, param', rest, ?_, hparam, rfl⟩
              rw [Value.eq_symbol_of_symbol? hname]
              rfl

theorem length_bindingItems (bs : List (String × Value)) : (bindingItems bs).length = 2 * bs.length := by
  induction bs with
  | nil => rfl
  | cons b bs ih =>
      show (bindingItems bs).length + 2 = 2 * (bs.length + 1)
      omega

/-- An even number of items are names and forms in turn, up to the first that should be a name and is none. -/
theorem bindingItems_cases : ∀ {items : List Value}, items.length % 2 = 0 →
    (∃ bs, items = bindingItems bs) ∨
      ∃ before target form rest, target.symbol? = none ∧ rest.length % 2 = 0 ∧
        items = bindingItems before ++ target :: form :: rest
  | [], _ => Or.inl ⟨[], rfl⟩
  | [_], h => by cases h
  | target :: form :: rest, h => by
      have hrest : rest.length % 2 = 0 := by
        simp only [List.length_cons] at h
        omega
      cases hname : target.symbol? with
      | none => exact Or.inr ⟨[], target, form, rest, hname, hrest, rfl⟩
      | some name =>
          obtain rfl := Value.eq_symbol_of_symbol? hname
          rcases bindingItems_cases hrest with ⟨bs, rfl⟩ | ⟨before, target', form', rest', hnone, heven, rfl⟩
          · exact Or.inl ⟨(name, form) :: bs, rfl⟩
          · exact Or.inr ⟨(name, form) :: before, target', form', rest', hnone, heven, rfl⟩

/-- Names and forms in turn have no wrong name among the names. -/
theorem bindingItems_ne_append {target : Value} (htarget : target.symbol? = none) (form : Value) (rest : List Value) :
    ∀ before bs : List (String × Value), bindingItems bs ≠ bindingItems before ++ target :: form :: rest
  | [], [], h             => by cases h
  | [], b :: bs, h        => by
      cases h
      cases htarget
  | _ :: _, [], h         => by cases h
  | b :: before, c :: bs, h => by
      obtain ⟨-, h⟩ := List.cons.inj h
      obtain ⟨-, h⟩ := List.cons.inj h
      exact bindingItems_ne_append htarget form rest before bs h

namespace SpecialForm

/-- What is misshapen does not have the shape that it should have. -/
theorem Misshapen.not_wellShaped {f : SpecialForm} {parts : List Value} {fault : Fault} (h : f.Misshapen parts fault) :
    ¬ f.WellShaped parts := by
  intro hshape
  cases h with
  | parts htakes => cases hshape <;> simp [Takes] at htakes
  | definedTarget form htarget =>
      cases hshape
      cases htarget
  | bindings body hitems =>
      cases hshape with
      | letIn bs _ hbs => cases hitems.symm.trans hbs
  | odd body hitems hodd =>
      cases hshape with
      | letIn bs _ hbs =>
          obtain rfl := Option.some.inj (hitems.symm.trans hbs)
          rw [length_bindingItems] at hodd
          omega
  | boundTarget body hbreaks =>
      obtain ⟨htarget, form, rest, hitems, -⟩ := hbreaks
      cases hshape with
      | letIn bs _ hbs => exact bindingItems_ne_append htarget form rest _ bs (Option.some.inj (hbs.symm.trans hitems))
  | params body hitems =>
      cases hshape with
      | function names _ hnames _ => cases hitems.symm.trans hnames
  | param body hitems hparam =>
      cases hshape with
      | function names _ hnames _ =>
          obtain ⟨_, _, -, -, hrest⟩ := List.map_eq_append_iff.mp (Option.some.inj (hnames.symm.trans hitems))
          obtain ⟨name, _, -, rfl, -⟩ := List.map_eq_cons_iff.mp hrest
          cases hparam
  | marker body hitems hmarker =>
      cases hshape with
      | function names _ hnames hannounces =>
          have hsymbol : ∀ m n, Value.symbol m = Value.symbol n → m = n := fun _ _ heq => Value.symbol.inj heq
          rw [(List.map_inj_right hsymbol).mp (Option.some.inj (hnames.symm.trans hitems))] at hannounces
          exact hannounces hmarker

end SpecialForm

/-! ## Refusals -/

namespace Eval

open SmallLisp.Action

variable {f : SpecialForm} {parts : List Value}

/-- An error ends an action, whatever should come after it. -/
theorem fail_then {α β : Type} (e : EvalError) (k : α → Action β) : (fail e : Action α) >>= k = fail e := rfl

/-- The evaluation of the bindings in front of a wrong name goes on until it is met. -/
theorem evalBindings_append (ev : Evaluator) (s : ScopeId) (before : List (String × Value)) {target : Value}
    (htarget : target.symbol? = none) (form : Value) (rest : List Value) :
    evalBindings ev s (bindingItems before ++ target :: form :: rest) =
      (do evalBindings ev s (bindingItems before); fail (.malformed (.bindingTarget .letIn target))) := by
  induction before with
  | nil =>
      show evalBindings ev s (target :: form :: rest) = _
      rw [evalBindings, htarget]
      rfl
  | cons b before ih =>
      obtain ⟨name, value⟩ := b
      show evalBindings ev s (.symbol name :: value :: (bindingItems before ++ target :: form :: rest)) =
        evalBindings ev s (.symbol name :: value :: bindingItems before) >>= _
      simp only [evalBindings, Value.symbol?, ih, bind_assoc]

/-- A `let*` list with a wrong name does what the bindings in front of it do, in a new scope, and no more. -/
theorem evalLet_of_breaksAt {bindings target : Value} {before : List (String × Value)}
    (h : bindings.BreaksAt before target) (ev : Evaluator) (s : ScopeId) (body : Value) :
    evalLet ev s [bindings, body] = (do
      let inner ← enclose s []
      evalBindings ev inner (bindingItems before)
      fail (.malformed (.bindingTarget .letIn target))) := by
  obtain ⟨htarget, form, rest, hitems, heven⟩ := h
  have hlength : (bindingItems before ++ target :: form :: rest).length % 2 = 0 := by
    simp only [List.length_append, List.length_cons, length_bindingItems]
    omega
  simp only [evalLet, hitems, if_pos hlength, evalBindings_append ev _ before htarget, bind_assoc, fail_then]

/-- The parts are counted first. -/
theorem evalSpecial_of_not_takes (h : ¬ f.Takes parts.length) (ev : Evaluator) (s : ScopeId) :
    evalSpecial ev s parts f = fail (.malformed (.parts f)) := by
  cases f with
  | define | letIn | function =>
      rcases parts with _ | ⟨first, _ | ⟨second, _ | ⟨third, more⟩⟩⟩
      · rfl
      · rfl
      · exact absurd rfl h
      · rfl
  | sequence =>
      cases parts with
      | nil             => rfl
      | cons form forms => exact absurd (Nat.succ_pos forms.length) h
  | conditional =>
      rcases parts with _ | ⟨first, _ | ⟨second, _ | ⟨third, _ | ⟨fourth, more⟩⟩⟩⟩
      · rfl
      · rfl
      · exact absurd (Or.inl rfl) h
      · exact absurd (Or.inr rfl) h
      · rfl
  | quote | quasiquote =>
      rcases parts with _ | ⟨only, _ | ⟨second, more⟩⟩
      · rfl
      · exact absurd rfl h
      · rfl

theorem refusal_of_not_wellShaped_define {target form : Value} (h : ¬ SpecialForm.define.WellShaped [target, form]) :
    ∃ fault, SpecialForm.define.Misshapen [target, form] fault ∧
      ∀ ev s, evalDefine ev s [target, form] = fail (.malformed fault) := by
  cases htarget : target.symbol? with
  | some name =>
      obtain rfl := Value.eq_symbol_of_symbol? htarget
      exact absurd (.define name form) h
  | none => exact ⟨_, .definedTarget form htarget, fun ev s => by simp only [evalDefine, htarget]⟩

theorem refusal_of_not_wellShaped_function {params body : Value}
    (h : ¬ SpecialForm.function.WellShaped [params, body]) :
    ∃ fault, SpecialForm.function.Misshapen [params, body] fault ∧
      ∀ s, evalFunction s [params, body] = fail (.malformed fault) := by
  cases hitems : params.items? with
  | none => exact ⟨_, .params body hitems, fun s => by simp only [evalFunction, hitems]⟩
  | some items =>
      cases hnames : paramNames items with
      | error fault =>
          obtain ⟨before, param, rest, rfl, hparam, rfl⟩ := exists_of_paramNames_eq_error hnames
          exact ⟨_, .param body hitems hparam, fun s => by simp only [evalFunction, hitems, hnames]⟩
      | ok names =>
          obtain rfl := paramNames_eq_ok hnames
          by_cases hmarker : Params.AnnouncesNothing names
          · have hnothing := (Params.marksNothing_iff names).mpr hmarker
            exact ⟨_, .marker body hitems hmarker, fun s => by
              simp only [evalFunction, hitems, hnames, if_pos hnothing]⟩
          · exact absurd (.function names body hitems hmarker) h

/-- Every special form but `let*` finds its fault before it evaluates anything. -/
theorem refusal_of_not_wellShaped (hlet : f ≠ .letIn) (h : ¬ f.WellShaped parts) :
    ∃ fault, f.Misshapen parts fault ∧ ∀ ev s, evalSpecial ev s parts f = fail (.malformed fault) := by
  by_cases hcount : ¬ f.Takes parts.length
  · exact ⟨_, .parts hcount, evalSpecial_of_not_takes hcount⟩
  have htakes := Classical.not_not.mp hcount
  -- With the right number of parts only a name or a list can be wrong.
  cases f with
  | define =>
      obtain ⟨target, form, rfl⟩ := List.length_eq_two.mp htakes
      exact refusal_of_not_wellShaped_define h
  | letIn => exact absurd rfl hlet
  | sequence =>
      obtain ⟨form, forms, rfl⟩ := List.exists_cons_of_length_pos htakes
      exact absurd (.sequence form forms) h
  | conditional =>
      rcases htakes with htwo | hthree
      · obtain ⟨condition, thenForm, rfl⟩ := List.length_eq_two.mp htwo
        exact absurd (.conditional condition thenForm) h
      · obtain ⟨condition, thenForm, elseForm, rfl⟩ := List.length_eq_three.mp hthree
        exact absurd (.conditionalElse condition thenForm elseForm) h
  | function =>
      obtain ⟨params, body, rfl⟩ := List.length_eq_two.mp htakes
      obtain ⟨fault, hfault, hrefused⟩ := refusal_of_not_wellShaped_function h
      exact ⟨fault, hfault, fun _ s => hrefused s⟩
  | quote =>
      obtain ⟨form, rfl⟩ := List.length_eq_one_iff.mp htakes
      exact absurd (.quote form) h
  | quasiquote =>
      obtain ⟨form, rfl⟩ := List.length_eq_one_iff.mp htakes
      exact absurd (.quasiquote form) h

/-- A `let*` list of the wrong shape finds its fault before it evaluates anything, or has a wrong name. -/
theorem refusal_of_not_wellShaped_let (h : ¬ SpecialForm.letIn.WellShaped parts) :
    (∃ fault, SpecialForm.letIn.Misshapen parts fault ∧ ∀ ev s, evalLet ev s parts = fail (.malformed fault)) ∨
      ∃ bindings body before target, parts = [bindings, body] ∧ bindings.BreaksAt before target := by
  by_cases hcount : ¬ SpecialForm.letIn.Takes parts.length
  · exact Or.inl ⟨_, .parts hcount, evalSpecial_of_not_takes hcount⟩
  have htakes := Classical.not_not.mp hcount
  obtain ⟨bindings, body, rfl⟩ := List.length_eq_two.mp htakes
  cases hitems : bindings.items? with
  | none => exact Or.inl ⟨_, .bindings body hitems, fun ev s => by simp only [evalLet, hitems]⟩
  | some items =>
      by_cases heven : items.length % 2 = 0
      · rcases bindingItems_cases heven with ⟨bs, rfl⟩ | ⟨before, target, form, rest, htarget, hrest, rfl⟩
        · exact absurd (.letIn bs body hitems) h
        · exact Or.inr ⟨bindings, body, before, target, rfl, htarget, form, rest, hitems, hrest⟩
      · exact Or.inl ⟨_, .odd body hitems (by omega), fun ev s => by simp only [evalLet, hitems, if_neg heven]⟩

/-- A list with the head of a special form is evaluated by the rule of this form. -/
theorem evalForm_special (ev : Evaluator) (f : SpecialForm) (parts : List Value) (s : ScopeId) :
    evalForm ev (.list (.symbol f.name :: parts)) s = evalSpecial ev s parts f := by
  have hhead : specialHead? (.symbol f.name) = some f := SpecialForm.ofName?_name f
  simp only [evalForm, evalList, hhead]

end Eval

/-! ## The result -/

open SmallLisp.Action in
/-- **A form of the wrong shape is refused, and leaves no trace, unless a `let*` list meets a wrong name late.** Let the
parts of a special form have the wrong shape. Then it has a fault, reported under its own name, and one of two things
holds. Whatever evaluates the forms inside it, it ends with this fault as its error, prints nothing and leaves every
scope as it was, so none of these forms is evaluated. Or it is a `let*` list with a wrong name behind some bindings:
then it changes no scope that was there before, and it evaluates these bindings in a new scope and no other form; if
they all have values then it ends with its fault as its error. -/
theorem misshapen_form_has_no_effect {f : SpecialForm} {parts : List Value} (h : ¬ f.WellShaped parts) :
    let form := Value.list (.symbol f.name :: parts)
    ∃ fault : Fault, f.Misshapen parts fault ∧ fault.form = f.name ∧
      ((∀ s st, ∃ after, Store.Unchanged st after ∧
          ∀ ev : Evaluator, Eval.evalForm ev form s st = ⟨.error (.malformed fault), after, ""⟩) ∨
        ∃ bindings body before target, f = .letIn ∧ parts = [bindings, body] ∧ bindings.BreaksAt before target ∧
          before ≠ [] ∧ fault = .bindingTarget .letIn target ∧ (∀ depth s, Preserves (eval depth form s)) ∧
          ∀ (ev : Evaluator) s, Eval.evalForm ev form s = (do
            let inner ← enclose s []
            Eval.evalBindings ev inner (bindingItems before)
            fail (.malformed fault))) := by
  intro form
  by_cases hlet : f = .letIn
  · subst hlet
    rcases Eval.refusal_of_not_wellShaped_let h with
      ⟨fault, hfault, hrefused⟩ | ⟨bindings, body, before, target, rfl, hbreaks⟩
    · refine ⟨fault, hfault, hfault.form_eq, Or.inl fun s st => ⟨st, fun _ _ hsc => hsc, fun ev => ?_⟩⟩
      rw [Eval.evalForm_special, Eval.evalSpecial, hrefused]
      rfl
    · refine ⟨_, .boundTarget body hbreaks, rfl, ?_⟩
      have hrun (ev : Evaluator) (s : ScopeId) :=
        (Eval.evalForm_special ev .letIn [bindings, body] s).trans (Eval.evalLet_of_breaksAt hbreaks ev s body)
      by_cases hfirst : before = []
      · -- There is nothing to evaluate, and all that has been made is the new scope.
        subst hfirst
        refine Or.inl fun s st => ⟨st.newScope (some s), ?_, fun ev => by rw [hrun]; rfl⟩
        have hframe : Store.Frame st.nextId [] (st.newScope (some s)) (st.newScope (some s)) := Store.Frame.refl _
        exact Store.unchanged_of_frame_nextId hframe
      · exact Or.inr ⟨bindings, body, before, target, rfl, rfl, hbreaks, hfirst, rfl,
          fun depth s => preserves_eval_let depth _ s, hrun⟩
  · obtain ⟨fault, hfault, hrefused⟩ := Eval.refusal_of_not_wellShaped hlet h
    refine ⟨fault, hfault, hfault.form_eq, Or.inl fun s st => ⟨st, fun _ _ hsc => hsc, fun ev => ?_⟩⟩
    rw [Eval.evalForm_special, hrefused]
    rfl

/-- `(let* (a (println 1) b) a)` is refused before it prints anything. -/
theorem odd_let_prints_nothing :
    let parts := [Value.list [.symbol "a", .list [.symbol "println", .integer 1], .symbol "b"], .symbol "a"]
    ¬ SpecialForm.letIn.WellShaped parts ∧ ∃ fault : Fault, fault.form = "let*" ∧ ∀ s st, ∃ after,
      Store.Unchanged st after ∧ ∀ ev : Evaluator,
        Eval.evalForm ev (.list (.symbol "let*" :: parts)) s st = ⟨.error (.malformed fault), after, ""⟩ := by
  have hodd : SpecialForm.letIn.Misshapen
      [.list [.symbol "a", .list [.symbol "println", .integer 1], .symbol "b"], .symbol "a"] .oddBindings :=
    .odd (.symbol "a") rfl rfl
  have hshape := hodd.not_wellShaped
  refine ⟨hshape, ?_⟩
  obtain ⟨fault, -, hform, hrefused | ⟨bindings, body, before, target, -, hparts, hbreaks, -⟩⟩ :=
    misshapen_form_has_no_effect hshape
  · exact ⟨fault, hform, hrefused⟩
  · -- A list with a wrong name has an even number of items.
    cases hparts
    obtain ⟨-, form, rest, hitems, heven⟩ := hbreaks
    have hlength := congrArg List.length (Option.some.inj hitems)
    simp only [List.length_append, List.length_cons, List.length_nil, length_bindingItems] at hlength
    omega

/-- `(let* (a (println 1) 2 3) a)` prints before it is refused, and `(let* (a b 2 3) a)` ends with another error than
that for the name `2`, which it does not come to. -/
theorem let_evaluates_before_wrong_name :
    let parts (form : Value) := [Value.list [.symbol "a", form, .integer 2, .integer 3], .symbol "a"]
    let run (form : Value) := (Session.builtins 3).evaluate (.list (.symbol "let*" :: parts form))
    (∀ form, ¬ SpecialForm.letIn.WellShaped (parts form)) ∧
      (run (.list [.symbol "println", .integer 1])).printed = "1\n" ∧
      (run (.symbol "b")).result = .error (.eval (.symbolNotFound "b")) := by
  intro parts run
  have hbreaks (form : Value) :
      Value.BreaksAt (.list [.symbol "a", form, .integer 2, .integer 3]) [("a", form)] (.integer 2) :=
    ⟨rfl, .integer 3, [], rfl, rfl⟩
  refine ⟨fun form => (SpecialForm.Misshapen.boundTarget _ (hbreaks form)).not_wellShaped, ?_, ?_⟩
  · simp only [run, parts]
    decide +kernel
  · simp only [run, parts]
    cbv

end SmallLisp
