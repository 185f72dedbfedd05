import SmallLisp.Builtin
import SmallLisp.Entries
import SmallLisp.Token

/-!
# `SmallLisp.Value` — values, which are also forms

One type serves as the tree that is read from a text and as what its evaluation gives. Besides data a value
can be a function: a builtin, or a closure over the scope that it was made in. Scopes live in a store
(`SmallLisp.Store`), and a closure holds only the number of its scope, so a value is a finite tree.

## Contents
* **Scope numbers** `ScopeId` and **values** `Value`.
* **Views.** `typeName`, `isTruthy`, `symbol?`, `items?`.
* **Depth** `depth`: how deeply a value is nested.
-/

namespace SmallLisp

/-- The number of a scope in its store, counted from zero in the order of creation. -/
structure ScopeId where
  index : Nat
  deriving DecidableEq, Repr

/-- A value, or a form. -/
inductive Value where
  | nil
  | boolean (b : Bool)
  | integer (n : Int64)
  | float (x : Float)
  | string (content : String)
  /-- A keyword, without the colon that it is written with. -/
  | keyword (name : String)
  | symbol (name : String)
  | list (items : List Value)
  | vector (items : List Value)
  /-- A map, in key order. A key is kept as it is written, so `:a` and `"a"` are different keys. -/
  | map (entries : List (String × Value))
  | builtin (b : Builtin)
  /-- A function with its parameters as written and the scope that it was made in. -/
  | closure (params : List String) (body : Value) (scope : ScopeId)
  /-- A form under one of the four marks. -/
  | marked (mark : Mark) (form : Value)

namespace Value

/-! ## Views -/

/-- The name of a value's kind. -/
def typeName : Value → String
  | nil           => "nil"
  | boolean _     => "boolean"
  | integer _     => "integer"
  | float _       => "float"
  | string _      => "string"
  | keyword _     => "keyword"
  | symbol _      => "symbol"
  | list _        => "list"
  | vector _      => "vector"
  | map _         => "map"
  | builtin _     => "function"
  | closure _ _ _ => "function"
  | marked m _    => m.name

/-- Whether a value counts as true: all but nil and false do. -/
def isTruthy : Value → Bool
  | nil           => false
  | boolean false => false
  | _             => true

/-- The name of a symbol. -/
def symbol? : Value → Option String
  | symbol name => some name
  | _           => none

/-- The elements of a list or a vector. -/
def items? : Value → Option (List Value)
  | list items   => some items
  | vector items => some items
  | _            => none

/-! ## Depth -/

mutual

/-- How deeply a value is nested: one for a value without parts, and one more than its deepest part for
any other. -/
def depth : Value → Nat
  | list items       => 1 + depthItems items
  | vector items     => 1 + depthItems items
  | map entries      => 1 + depthEntries entries
  | closure _ body _ => 1 + depth body
  | marked _ form    => 1 + depth form
  | _                => 1

/-- The depth of the deepest of some values. -/
def depthItems : List Value → Nat
  | []            => 0
  | item :: items => max (depth item) (depthItems items)

/-- The depth of the deepest value of some entries. -/
def depthEntries : List (String × Value) → Nat
  | []                    => 0
  | (_, value) :: entries => max (depth value) (depthEntries entries)

end

end Value

end SmallLisp
