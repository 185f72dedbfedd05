import SmallLisp.Action

/-!
# `SmallLisp.Eval.Special` — calls and special forms

The rules here are stated over an evaluator `ev`, which gives the values of the forms inside; closing the knot
is left to `SmallLisp.Eval`.

## Contents
* **Several forms.** `evalItems`, `evalEntries`, `evalSequence`.
* **Calls** `apply`.
* **Special forms.** `evalDefine`, `evalLet`, `evalConditional`, `evalFunction`.
-/

namespace SmallLisp

/-- What gives the value of a form in a scope. -/
abbrev Evaluator := Value → ScopeId → Action Value

namespace Eval

open SmallLisp.Action

variable (ev : Evaluator)

/-! ## Several forms -/

/-- The values of some forms, from left to right. -/
def evalItems (s : ScopeId) : List Value → Action (List Value)
  | []            => pure []
  | form :: forms => do
    let v ← ev form s
    let vs ← evalItems s forms
    return v :: vs

/-- The entries of a map with the values of their forms, in key order. -/
def evalEntries (s : ScopeId) : List (String × Value) → Action (List (String × Value))
  | []                     => pure []
  | (key, form) :: entries => do
    let v ← ev form s
    let vs ← evalEntries s entries
    return (key, v) :: vs

/-- The value of the last of some forms after all before it have been evaluated; nil if there are none. -/
def evalSequence (s : ScopeId) : List Value → Action Value
  | []                    => pure .nil
  | [form]                => ev form s
  | form :: next :: forms => do
    let _ ← ev form s
    evalSequence s (next :: forms)

/-! ## Calls -/

/-- Calls a function with its arguments. The body of a closure is evaluated in a new scope inside the one
that the closure was made in. -/
def apply (f : Value) (args : List Value) : Action Value :=
  match f with
  | .builtin b                 => answer (b.call args)
  | .closure params body scope =>
    if (Params.arity params).accepts args.length then do
      -- Where the call stands makes no difference: only the closure's own scope is around the new one.
      let inner ← enclose scope (Params.bindings params args)
      ev body inner
    else fail (.wrongCount "#<function>" (Params.arity params) args.length)
  | _                          => fail (.notAFunction f)

/-! ## Special forms -/

/-- Binds a symbol in the scope itself; the value of the form is the value bound. -/
def evalDefine (s : ScopeId) : List Value → Action Value
  | [target, form] =>
    match target.symbol? with
    | some name => do
      let v ← ev form s
      define s name v
      return v
    | none => fail (.malformed (.bindingTarget .define target))
  | _ => fail (.malformed (.parts .define))

/-- Binds symbols to the values of the forms after them, each in sight of the ones before. -/
def evalBindings (s : ScopeId) : List Value → Action Unit
  | target :: form :: rest =>
    match target.symbol? with
    | some name => do
      let v ← ev form s
      define s name v
      evalBindings s rest
    | none => fail (.malformed (.bindingTarget .letIn target))
  -- An odd number of forms has been refused before, so nothing is left here.
  | _ => pure ()

/-- Evaluates a body in a new scope with some bindings. -/
def evalLet (s : ScopeId) : List Value → Action Value
  | [bindings, body] =>
    match bindings.items? with
    | some items =>
      if items.length % 2 = 0 then do
        let inner ← enclose s []
        evalBindings ev inner items
        ev body inner
      else fail (.malformed .oddBindings)
    | none => fail (.malformed (.bindingsNotAList bindings))
  | _ => fail (.malformed (.parts .letIn))

/-- Evaluates one of two branches; a missing one is nil. -/
def evalConditional (s : ScopeId) : List Value → Action Value
  | [condition, thenForm] => do
    let v ← ev condition s
    if v.isTruthy then ev thenForm s else return .nil
  | [condition, thenForm, elseForm] => do
    let v ← ev condition s
    if v.isTruthy then ev thenForm s else ev elseForm s
  | _ => fail (.malformed (.parts .conditional))

/-- The names of a parameter list. -/
def paramNames : List Value → Except Fault (List String)
  | []            => .ok []
  | param :: rest =>
    match param.symbol? with
    | some name => (paramNames rest).map (name :: ·)
    | none      => .error (.paramNotASymbol param)

/-- Makes a closure over the scope. -/
def evalFunction (s : ScopeId) : List Value → Action Value
  | [params, body] =>
    match params.items? with
    | some items =>
      match paramNames items with
      | .ok names    =>
        if Params.marksNothing names then fail (.malformed .markerAnnouncesNothing)
        else pure (.closure names body s)
      | .error fault => fail (.malformed fault)
    | none => fail (.malformed (.paramsNotAList params))
  | _ => fail (.malformed (.parts .function))

end Eval

end SmallLisp
