/-!
# `SmallLisp.Builtin` — the names of the builtin functions

The builtin functions are a fixed list. Here they are only told apart and named, which is all that values need;
what a call of one does is said in `SmallLisp.Builtin.Call`.

## Contents
* **Families** `Arithmetic` and `Comparison`, and all builtins, `Builtin`.
* **Names.** `Builtin.name`, `Builtin.all`, `Builtin.ofName?`.
-/

namespace SmallLisp

/-- The four arithmetic operations. -/
inductive Arithmetic where
  | add
  | subtract
  | multiply
  | divide
  deriving DecidableEq, Repr

/-- The four comparisons of numbers by order. -/
inductive Comparison where
  | less
  | lessOrEqual
  | greater
  | greaterOrEqual
  deriving DecidableEq, Repr

/-- The builtin functions. -/
inductive Builtin where
  | arithmetic (op : Arithmetic)
  | comparison (rel : Comparison)
  | equal
  | list
  | isList
  | isEmpty
  | count
  | printString
  | string
  | printReadable
  | printRaw
  deriving DecidableEq, Repr

/-- The name of an arithmetic operation. -/
def Arithmetic.name : Arithmetic → String
  | add      => "+"
  | subtract => "-"
  | multiply => "*"
  | divide   => "/"

/-- The name of a comparison. -/
def Comparison.name : Comparison → String
  | less           => "<"
  | lessOrEqual    => "<="
  | greater        => ">"
  | greaterOrEqual => ">="

namespace Builtin

/-- The name that a builtin is bound to. -/
def name : Builtin → String
  | arithmetic op  => op.name
  | comparison rel => rel.name
  | equal          => "="
  | list           => "list"
  | isList         => "list?"
  | isEmpty        => "empty?"
  | count          => "count"
  | printString    => "pr-str"
  | string         => "str"
  | printReadable  => "prn"
  | printRaw       => "println"

/-- All builtins. -/
def all : List Builtin :=
  [arithmetic .add, arithmetic .subtract, arithmetic .multiply, arithmetic .divide, comparison .less,
   comparison .lessOrEqual, comparison .greater, comparison .greaterOrEqual, equal, list, isList, isEmpty,
   count, printString, string, printReadable, printRaw]

/-- No builtin is missing from the list of all. -/
theorem mem_all (b : Builtin) : b ∈ all := by
  cases b with
  | arithmetic op  => cases op <;> decide
  | comparison rel => cases rel <;> decide
  | _ => decide

/-- The builtin of a name. -/
def ofName? (name : String) : Option Builtin := all.find? fun b => b.name == name

/-- Every builtin is found by its name. -/
theorem ofName?_name (b : Builtin) : ofName? b.name = some b := by
  cases b with
  | arithmetic op  => cases op <;> decide
  | comparison rel => cases rel <;> decide
  | _ => decide

end Builtin

end SmallLisp
