/-!
# `SmallLisp.SpecialForm` — the list heads with a rule of their own

A list whose head is one of these names is not a call. The names are reserved: what they may be bound to makes
no difference to the rule.

## Contents
* **Special forms** `SpecialForm`, their names and the form of a name.
-/

namespace SmallLisp

/-- The list heads that have a rule of their own. -/
inductive SpecialForm where
  | define
  | letIn
  | sequence
  | conditional
  | function
  | quote
  | quasiquote
  deriving DecidableEq, Repr

namespace SpecialForm

/-- The name of a special form. -/
def name : SpecialForm → String
  | define      => "def!"
  | letIn       => "let*"
  | sequence    => "do"
  | conditional => "if"
  | function    => "fn*"
  | quote       => "quote"
  | quasiquote  => "quasiquote"

/-- All special forms. -/
def all : List SpecialForm := [define, letIn, sequence, conditional, function, quote, quasiquote]

/-- The special form of a name. -/
def ofName? (name : String) : Option SpecialForm := all.find? fun f => f.name == name

/-- Every special form is found by its name. -/
theorem ofName?_name (f : SpecialForm) : ofName? f.name = some f := by
  cases f <;> decide

theorem name_injective {f g : SpecialForm} (h : f.name = g.name) : f = g := by
  have hfound := congrArg ofName? h
  rw [ofName?_name, ofName?_name] at hfound
  exact Option.some.inj hfound

/-- A name finds no other special form than the one of that name. -/
theorem name_of_ofName? {n : String} {f : SpecialForm} (h : ofName? n = some f) : f.name = n := by
  have hfound := List.find?_some h
  simpa using hfound

end SpecialForm

end SmallLisp
