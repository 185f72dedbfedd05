import Mathlib.Logic.Relation
import SmallLisp.Proofs.Eval.Frame
import SmallLisp.Session

/-!
# `SmallLisp.Proofs.Session.Frame` — which scopes a session may change

All operations of a session work in one scope. What `SmallLisp.Proofs.Eval.Frame` says of one evaluation
therefore holds of a whole session: every other scope, once the operation that made it is over, stays as it is.

## Contents
* **Runs of a session** `Session.Step` and its closure.
* **The result** `frame_of_eval`, with a session that shows it, and `not_frame_anywhere`, which shows why
  templates have to be told from code.
-/

namespace SmallLisp

open Relation (ReflTransGen)

namespace Session

/-! ## Runs of a session -/

/-- One operation of a session. -/
inductive Step : Session → Session → Prop where
  | evaluate (s : Session) (form : Value) : Step s (s.evaluate form).session
  | evaluateAll (s : Session) (forms : List Value) : Step s (s.evaluateAll forms).session
  | call (s : Session) (f : Value) (args : List Value) : Step s (s.call f args).session
  | evaluateFirst (s : Session) (source : String) : Step s (s.evaluateFirst source).session
  | evaluateText (s : Session) (source : String) : Step s (s.evaluateText source).session

/-- The second session works in the scope of the first one and has all other scopes as they were there. -/
def KeepsOthers (s t : Session) : Prop :=
  t.scope = s.scope ∧ ∀ o sc, o ≠ s.scope → s.store.scope? o = some sc → t.store.scope? o = some sc

theorem KeepsOthers.refl (s : Session) : KeepsOthers s s := ⟨rfl, fun _ _ _ h => h⟩

theorem KeepsOthers.trans {s t u : Session} (hst : KeepsOthers s t) (htu : KeepsOthers t u) : KeepsOthers s u := by
  refine ⟨htu.1.trans hst.1, ?_⟩
  intro o sc ho h
  have ho' : o ≠ t.scope := by rwa [hst.1]
  exact htu.2 o sc ho' (hst.2 o sc ho h)

variable {α : Type}

theorem keepsOthers_perform {s : Session} {names : List String} {x : Action α} (h : Action.Frames s.scope names x) :
    KeepsOthers s (s.perform x).session := by
  have hstore := (h s.store).others
  unfold perform
  generalize x s.store = run at hstore
  rcases run with ⟨a | e | _, store, text⟩
  all_goals exact ⟨rfl, hstore⟩

theorem keepsOthers_evaluate (s : Session) (form : Value) : KeepsOthers s (s.evaluate form).session :=
  keepsOthers_perform (frames_eval s.limit form s.scope)

theorem keepsOthers_evaluateAll (s : Session) (forms : List Value) : KeepsOthers s (s.evaluateAll forms).session :=
  keepsOthers_perform (Eval.frames_evalSequence (frames_eval s.limit) (List.Subset.refl _))

/-- What one operation changes. -/
theorem Step.keepsOthers {s t : Session} (h : Step s t) : KeepsOthers s t := by
  cases h with
  | evaluate form    => exact keepsOthers_evaluate s form
  | evaluateAll forms => exact keepsOthers_evaluateAll s forms
  | call f args =>
      have hcall : Action.Frames s.scope [] (Eval.apply (eval s.limit) f args) :=
        (Eval.preserves_apply (frames_eval s.limit) f args).frames
      exact keepsOthers_perform hcall
  | evaluateFirst source =>
      unfold Session.evaluateFirst
      split
      · exact KeepsOthers.refl s
      · exact KeepsOthers.refl s
      · exact keepsOthers_evaluate s _
  | evaluateText source =>
      unfold Session.evaluateText
      split
      · exact KeepsOthers.refl s
      · exact keepsOthers_evaluateAll s _

/-- What any number of operations changes. -/
theorem keepsOthers_of_steps {s t : Session} (h : ReflTransGen Step s t) : KeepsOthers s t := by
  induction h with
  | refl => exact KeepsOthers.refl s
  | tail _ hstep ih => exact ih.trans hstep.keepsOthers

end Session

/-! ## The result -/

/-- **An evaluation changes one scope only.** However it ends, the evaluation of a form in the scope `s` leaves
all other scopes as they were; `s` keeps its outer scope and its names, and only names that the form itself
defines, outside its `let*` and `fn*` lists, can be bound anew. Calls and `let*` lists change no scope at all
that was there before, and in a session no operation changes a scope that an earlier one has made. -/
theorem frame_of_eval :
    (∀ depth form s st, Store.Frame s (form.definitions .code) st (eval depth form s st).store) ∧
    (∀ depth f args st, Store.Unchanged st (Eval.apply (eval depth) f args st).store) ∧
    (∀ depth parts s st,
      Store.Unchanged st (eval depth (.list (.symbol SpecialForm.letIn.name :: parts)) s st).store) ∧
    (∀ session later, ReflTransGen Session.Step session later → ∀ o sc, o ≠ session.scope →
      session.store.scope? o = some sc → later.store.scope? o = some sc) :=
  ⟨frames_eval, fun depth => Eval.preserves_apply (frames_eval depth), preserves_eval_let,
    fun _ _ h => (Session.keepsOthers_of_steps h).2⟩

/-- The scope of `(def! f (let* (a 1) (fn* () a)))` is still the same after `(do (f) (def! a 2))`. -/
theorem frame_of_closure_scope :
    let a := Value.symbol "a"
    let closure := Value.list [.symbol "let*", .list [a, .integer 1], .list [.symbol "fn*", .list [], a]]
    let session := ((Session.empty 5).evaluate (.list [.symbol "def!", .symbol "f", closure])).session
    let call := Value.list [.symbol "do", .list [.symbol "f"], .list [.symbol "def!", a, .integer 2]]
    (⟨1⟩ : ScopeId) ≠ session.scope ∧
    session.store.scope? ⟨1⟩ = some ⟨some ⟨0⟩, [("a", .integer 1)]⟩ ∧
    (session.evaluate call).session.store.scope? ⟨1⟩ = some ⟨some ⟨0⟩, [("a", .integer 1)]⟩ := by
  intro a closure session call
  have hother : (⟨1⟩ : ScopeId) ≠ session.scope := by decide
  have hbefore : session.store.scope? ⟨1⟩ = some ⟨some ⟨0⟩, [("a", .integer 1)]⟩ := by
    with_unfolding_all rfl
  have hsteps : ReflTransGen Session.Step session (session.evaluate call).session :=
    ReflTransGen.single (Session.Step.evaluate session call)
  exact ⟨hother, hbefore, frame_of_eval.2.2.2 session _ hsteps ⟨1⟩ _ hother hbefore⟩

/-- A `let*` list in a template hides nothing: filling `(let* ~(def! x 1))` binds `x`, although the definition
stands inside a `let*` list. -/
theorem not_frame_anywhere :
    let st := Store.empty.newScope none
    let definition := Value.list [.symbol "def!", .symbol "x", .integer 1]
    let form := Value.marked .quasiquote (.list [.symbol "let*", .marked .unquote definition])
    (eval 3 form ⟨0⟩ st).outcome = .value (.list [.symbol "let*", .integer 1]) ∧
    form.definitions .anywhere = [] ∧
    ¬ Store.Frame ⟨0⟩ (form.definitions .anywhere) st (eval 3 form ⟨0⟩ st).store := by
  intro st definition form
  refine ⟨rfl, rfl, ?_⟩
  intro hframe
  obtain ⟨sc, hsc, hext⟩ := hframe.own ⟨none, []⟩ rfl
  have hafter : (eval 3 form ⟨0⟩ st).store.scope? ⟨0⟩ = some ⟨none, [("x", .integer 1)]⟩ := rfl
  obtain rfl : (⟨none, [("x", .integer 1)]⟩ : Scope) = sc := Option.some.inj (hafter.symm.trans hsc)
  have hx : (none : Option Value) = some (.integer 1) := (hext.find?_eq "x" (by simp [form, definition]; decide)).symm
  cases hx

end SmallLisp
