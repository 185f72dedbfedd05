import SmallLisp.Params
import SmallLisp.SpecialForm
import SmallLisp.Value.Print

/-!
# `SmallLisp.Eval.Error` — why a form has no value

## Contents
* **Faults** `Fault`: what can be wrong with the shape of a special form.
* **The causes** `EvalError` and their wording `EvalError.message`.
-/

namespace SmallLisp

/-- What is wrong with the shape of a special form, or with the place of a mark. -/
inductive Fault where
  /-- The form has the wrong number of parts. -/
  | parts (form : SpecialForm)
  /-- A definition or a binding is for something that is not a symbol. -/
  | bindingTarget (form : SpecialForm) (got : Value)
  | bindingsNotAList (got : Value)
  | oddBindings
  | paramsNotAList (got : Value)
  | paramNotASymbol (got : Value)
  | markerAnnouncesNothing
  /-- An unquoting mark is evaluated outside of any template. -/
  | outsideTemplate (mark : Mark)
  /-- A template is nothing but a splice. -/
  | spliceWithoutSequence

namespace Fault

/-- The name of the form that is at fault. -/
def form : Fault → String
  | parts f                => f.name
  | bindingTarget f _      => f.name
  | bindingsNotAList _     => SpecialForm.letIn.name
  | oddBindings            => SpecialForm.letIn.name
  | paramsNotAList _       => SpecialForm.function.name
  | paramNotASymbol _      => SpecialForm.function.name
  | markerAnnouncesNothing => SpecialForm.function.name
  | outsideTemplate m      => m.name
  | spliceWithoutSequence  => Mark.spliceUnquote.name

/-- The parts that a special form should have, in words. -/
def expectedParts : SpecialForm → String
  | .define      => "expected a symbol and a value"
  | .letIn       => "expected a binding list and a body"
  | .sequence    => "expected at least one expression"
  | .conditional => "expected a condition, a branch and an optional else branch"
  | .function    => "expected a parameter list and a body"
  | .quote       => "expected exactly one form"
  | .quasiquote  => "expected exactly one form"

/-- The fault in words. -/
def reason : Fault → String
  | parts f                => expectedParts f
  | bindingTarget _ got    => "cannot bind to " ++ got.print true
  | bindingsNotAList got   => "binding list must be a list, got " ++ got.print true
  | oddBindings            => "binding list has an odd number of forms"
  | paramsNotAList got     => "parameter list must be a list, got " ++ got.print true
  | paramNotASymbol got    => "parameter " ++ got.print true ++ " is not a symbol"
  | markerAnnouncesNothing => "'&' must be followed by a parameter name"
  | outsideTemplate _      => "used outside of quasiquote"
  | spliceWithoutSequence  => "must appear inside a list or vector"

end Fault

/-- The kinds of argument that functions insist on. -/
inductive ArgumentKind where
  | number
  | sequence
  deriving DecidableEq, Repr

/-- The kind of argument in words. -/
def ArgumentKind.text : ArgumentKind → String
  | number   => "number"
  | sequence => "list or vector"

/-- Why a form has no value. -/
inductive EvalError where
  | symbolNotFound (name : String)
  | notAFunction (got : Value)
  | wrongType (function : String) (expected : ArgumentKind) (got : Value)
  | wrongCount (function : String) (expected : Arity) (actual : Nat)
  | malformed (fault : Fault)
  | divisionByZero (function : String)
  | integerOverflow (function : String)

/-- The error in words. -/
def EvalError.message : EvalError → String
  | symbolNotFound name                 => "'" ++ name ++ "' not found"
  | notAFunction got                    => "cannot apply " ++ got.print true ++ ": not a function"
  | wrongType function expected got     =>
    function ++ ": expected " ++ expected.text ++ ", got " ++ got.print true
  | wrongCount function expected actual =>
    function ++ ": wrong number of arguments. Expected " ++ expected.text ++ ", got " ++ Numeral.naturalText actual
  | malformed fault                     => "malformed " ++ fault.form ++ ": " ++ fault.reason
  | divisionByZero function             => function ++ ": division by zero"
  | integerOverflow function            => function ++ ": integer overflow"

end SmallLisp
