import SmallLisp.Builtin.Call
import SmallLisp.Store

/-!
# `SmallLisp.Action` — what a run does

An action starts in a store and ends with an outcome, the store as it is then, and the text printed on the
way. An error undoes nothing: what was bound and printed before it stays.

## Contents
* **Outcomes and runs** `Outcome`, `Run`, `Action`.
* **Sequencing.** The monad `Action`, which is lawful: `bind_pure_self`, `pure_then`, `bind_then`.
* **Single steps.** `fail`, `giveUp`, `answer`, `lookup`, `define`, `enclose`.
-/

namespace SmallLisp

/-- How a run ends: with a value, with an error, or without either because it would nest too deeply. -/
inductive Outcome (α : Type) where
  | value (a : α)
  | error (e : EvalError)
  | tooDeep

/-- The end of a run: its outcome, the store that it leaves and the text that it has printed. -/
structure Run (α : Type) where
  outcome : Outcome α
  store : Store
  printed : String

/-- A computation that may read and change the store, print, and fail. -/
def Action (α : Type) := Store → Run α

namespace Action

variable {α β : Type}

/-! ## Sequencing -/

/-- Ends with a value. -/
protected def pure (a : α) : Action α := fun st => ⟨.value a, st, ""⟩

/-- Goes on with the value of an action in the store that it leaves. -/
protected def bind (x : Action α) (f : α → Action β) : Action β := fun st =>
  match x st with
  | ⟨.value a, after, text⟩ =>
    match f a after with
    | ⟨outcome, last, more⟩ => ⟨outcome, last, text ++ more⟩
  | ⟨.error e, after, text⟩ => ⟨.error e, after, text⟩
  | ⟨.tooDeep, after, text⟩ => ⟨.tooDeep, after, text⟩

instance : Monad Action where
  pure := Action.pure
  bind := Action.bind

@[ext] theorem ext {x y : Action α} (h : ∀ st, x st = y st) : x = y := funext h

theorem pure_apply (a : α) (st : Store) : (pure a : Action α) st = ⟨.value a, st, ""⟩ := rfl

/-- What a sequence of two actions does, by the outcome of the first. -/
theorem bind_apply (x : Action α) (f : α → Action β) (st : Store) :
    (x >>= f) st =
      match x st with
      | ⟨.value a, after, text⟩ => ⟨(f a after).outcome, (f a after).store, text ++ (f a after).printed⟩
      | ⟨.error e, after, text⟩ => ⟨.error e, after, text⟩
      | ⟨.tooDeep, after, text⟩ => ⟨.tooDeep, after, text⟩ := rfl

/-- A value handed on unchanged changes nothing. -/
theorem bind_pure_self (x : Action α) : x >>= pure = x := by
  ext st
  rw [bind_apply]
  rcases x st with ⟨a | e | _, after, text⟩
  · simp [pure_apply]
  · rfl
  · rfl

/-- An action that only gives a value prints nothing and leaves the store alone. -/
theorem pure_then (a : α) (f : α → Action β) : pure a >>= f = f a := by
  ext st
  simp [bind_apply, pure_apply]

/-- Of three actions it makes no difference which two are taken together. -/
theorem bind_then {γ : Type} (x : Action α) (f : α → Action β) (g : β → Action γ) :
    x >>= f >>= g = x >>= fun a => f a >>= g := by
  ext st
  simp only [bind_apply]
  rcases x st with ⟨a | e | _, after, text⟩
  · dsimp only
    rcases f a after with ⟨b | e | _, last, more⟩
    · simp [String.append_assoc]
    · rfl
    · rfl
  · rfl
  · rfl

instance : LawfulMonad Action := LawfulMonad.mk' Action bind_pure_self pure_then bind_then

/-! ## Single steps -/

/-- Ends with an error. -/
def fail (e : EvalError) : Action α := fun st => ⟨.error e, st, ""⟩

/-- Ends because the nesting is too deep. -/
def giveUp : Action α := fun st => ⟨.tooDeep, st, ""⟩

/-- Ends as the call of a builtin does. -/
def answer : Except EvalError Answer → Action Value
  | .ok a    => fun st => ⟨.value a.value, st, a.printed⟩
  | .error e => fail e

/-- The value of a name as seen from a scope. -/
def lookup (s : ScopeId) (name : String) : Action Value := fun st =>
  match st.get? s name with
  | some v => ⟨.value v, st, ""⟩
  | none   => ⟨.error (.symbolNotFound name), st, ""⟩

/-- Binds a name in a scope. -/
def define (s : ScopeId) (name : String) (v : Value) : Action Unit := fun st =>
  ⟨.value (), st.set s name v, ""⟩

/-- Makes a scope inside another one, with some bindings. -/
def enclose (outer : ScopeId) (bindings : List (String × Value)) : Action ScopeId := fun st =>
  ⟨.value st.nextId, (st.newScope (some outer)).setAll st.nextId bindings, ""⟩

end Action

end SmallLisp
