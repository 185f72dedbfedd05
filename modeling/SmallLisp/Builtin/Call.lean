import SmallLisp.Builtin.Number
import SmallLisp.Value.Equality

/-!
# `SmallLisp.Builtin.Call` — what the builtin functions do

A builtin sees nothing but its arguments. It gives a value, and two of them print a line besides.

## Contents
* **Answers** `Answer`.
* **Calls** `Builtin.call`.
-/

namespace SmallLisp

/-- What a builtin gives: a value and the text that it prints. -/
structure Answer where
  value : Value
  printed : String

/-- An answer that prints nothing. -/
def Answer.silent (v : Value) : Answer := ⟨v, ""⟩

namespace Builtin

/-- The only argument of a builtin that takes one. -/
def oneArgument (b : Builtin) : List Value → Except EvalError Value
  | [v]  => .ok v
  | args => .error (.wrongCount b.name (.exactly 1) args.length)

/-- The arguments of a builtin that takes two. -/
def twoArguments (b : Builtin) : List Value → Except EvalError (Value × Value)
  | [v, w] => .ok (v, w)
  | args   => .error (.wrongCount b.name (.exactly 2) args.length)

/-- Whether a comparison holds of its two arguments. -/
def compare (rel : Comparison) (args : List Value) : Except EvalError Bool := do
  let (v, w) ← twoArguments (comparison rel) args
  let a ← Number.ofArgument rel.name v
  let b ← Number.ofArgument rel.name w
  return rel.holds a b

/-- The number of elements of a list or a vector; nil has none. -/
def countOf : Value → Except EvalError Int64
  | .nil => .ok 0
  | v    =>
    match v.items? with
    | some items => .ok (Int64.ofNat items.length)
    | none       => .error (.wrongType count.name .sequence v)

/-- Whether a list or a vector has no elements. -/
def emptinessOf (v : Value) : Except EvalError Bool :=
  match v.items? with
  | some items => .ok items.isEmpty
  | none       => .error (.wrongType isEmpty.name .sequence v)

/-- Whether a value is a list. -/
def listness : Value → Bool
  | .list _ => true
  | _       => false

/-- Calls a builtin. -/
def call (b : Builtin) (args : List Value) : Except EvalError Answer :=
  match b with
  | arithmetic op  => (op.call args).map Answer.silent
  | comparison rel => (compare rel args).map fun holds => .silent (.boolean holds)
  | equal          => (equal.twoArguments args).map fun (v, w) => .silent (.boolean (v == w))
  | list           => .ok (.silent (.list args))
  | isList         => (isList.oneArgument args).map fun v => .silent (.boolean (listness v))
  | isEmpty        => ((isEmpty.oneArgument args).bind emptinessOf).map fun e => .silent (.boolean e)
  | count          => ((count.oneArgument args).bind countOf).map fun n => .silent (.integer n)
  | printString    => .ok (.silent (.string (Value.printAll true " " args)))
  | string         => .ok (.silent (.string (Value.printAll false "" args)))
  | printReadable  => .ok ⟨.nil, Value.printAll true " " args ++ "\n"⟩
  | printRaw       => .ok ⟨.nil, Value.printAll false " " args ++ "\n"⟩

end Builtin

end SmallLisp
