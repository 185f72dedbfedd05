import SmallLisp.Eval.Template

/-!
# `SmallLisp.Eval` — the values of forms

`Eval.evalForm` gives the value of a form by means of an evaluator for the forms inside it, and `eval` closes
the knot: `eval n` nests at most `n` evaluations and ends as too deep where it would need more. Every rule
nests by one, so the bound counts nested forms and calls, not steps.

## Contents
* **Lists.** `evalSpecial`, `evalList`.
* **All forms** `evalForm`, and `eval`.
-/

namespace SmallLisp

namespace Eval

open SmallLisp.Action

variable (ev : Evaluator)

/-- The value of a special form with its parts. -/
def evalSpecial (s : ScopeId) (parts : List Value) : SpecialForm → Action Value
  | .define      => evalDefine ev s parts
  | .letIn       => evalLet ev s parts
  | .sequence    => if parts.isEmpty then fail (.malformed (.parts .sequence)) else evalSequence ev s parts
  | .conditional => evalConditional ev s parts
  | .function    => evalFunction s parts
  | .quote       =>
    match parts with
    | [form] => pure form
    | _      => fail (.malformed (.parts .quote))
  | .quasiquote  =>
    match parts with
    | [form] => fill ev s form
    | _      => fail (.malformed (.parts .quasiquote))

/-- The special form that a list head names, whatever the name is bound to. -/
def specialHead? (head : Value) : Option SpecialForm := head.symbol?.bind SpecialForm.ofName?

theorem symbol_of_specialHead? {head : Value} {f : SpecialForm} (h : specialHead? head = some f) :
    head = .symbol f.name := by
  cases head with
  | symbol name => rw [SpecialForm.name_of_ofName? h]
  | _           => cases h

/-- The value of a list with a head: that of a special form, or of a call. -/
def evalList (s : ScopeId) (head : Value) (parts : List Value) : Action Value :=
  match specialHead? head with
  | some special => evalSpecial ev s parts special
  | none         => do
    let f ← ev head s
    let args ← evalItems ev s parts
    apply ev f args

/-- The value of a form. -/
def evalForm (form : Value) (s : ScopeId) : Action Value :=
  match form with
  | .symbol name             => lookup s name
  | .vector items            => do return .vector (← evalItems ev s items)
  | .map entries             => do return .map (← evalEntries ev s entries)
  | .list (head :: parts)    => evalList ev s head parts
  | .marked .quote form      => pure form
  | .marked .quasiquote form => fill ev s form
  | .marked m _              => fail (.malformed (.outsideTemplate m))
  | form                     => pure form

end Eval

/-- The value of a form, with at most so many evaluations nested in one another. -/
def eval : Nat → Evaluator
  | 0         => fun _ _ => Action.giveUp
  | depth + 1 => Eval.evalForm (eval depth)

end SmallLisp
