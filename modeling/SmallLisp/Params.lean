import SmallLisp.Numeral.Write
import SmallLisp.Value

/-!
# `SmallLisp.Params` — parameter lists

A parameter list is a list of names. The marker `&` is no parameter: the names before it are bound to the
arguments at their places, and the name right after it is bound to the list of all remaining arguments.
Names after that one are never bound.

## Contents
* **Arities** `Arity`.
* **Reading a parameter list.** `Params.fixed`, `Params.arity`, `Params.marksNothing`.
* **Binding** `Params.bindings`.
-/

namespace SmallLisp

/-- How many arguments a function takes. -/
inductive Arity where
  | exactly (n : Nat)
  | atLeast (n : Nat)
  deriving DecidableEq, Repr

namespace Arity

/-- Whether a number of arguments will do. -/
def accepts : Arity → Nat → Bool
  | exactly n, count => count == n
  | atLeast n, count => n ≤ count

/-- The arity in words. -/
def text : Arity → String
  | exactly n => Numeral.naturalText n
  | atLeast n => "at least " ++ Numeral.naturalText n

end Arity

namespace Params

/-- The marker that announces the parameter for all remaining arguments. -/
def restMarker : String := "&"

/-- The parameters before the marker. -/
def fixed (params : List String) : List String := params.takeWhile (· != restMarker)

/-- The marker and all names after it. -/
def fromMarker (params : List String) : List String := params.dropWhile (· != restMarker)

/-- How many arguments a call must have. -/
def arity (params : List String) : Arity :=
  if restMarker ∈ params then .atLeast (fixed params).length else .exactly params.length

/-- Whether the marker stands last, so that it announces nothing. -/
def marksNothing (params : List String) : Bool := (fromMarker params).length == 1

/-- The bindings that a call makes, in order. Where arguments run out the rest of the parameters stays
unbound, and arguments that no parameter is left for are dropped. -/
def bindings : List String → List Value → List (String × Value)
  | [], _ => []
  | param :: params, args =>
    if param = restMarker then
      -- The list of the remaining arguments may be empty.
      match params with
      | []        => []
      | rest :: _ => [(rest, .list args)]
    else
      match args with
      | []          => []
      | arg :: args => (param, arg) :: bindings params args

end Params

end SmallLisp
