import SmallLisp.Eval.Special

/-!
# `SmallLisp.Eval.Template` — filling templates

A template is a form with holes. A hole is marked `unquote`, or as an element of a list or a vector also
`splice-unquote`; either mark may be written short, as a mark, or long, as a list of the mark's name and the
operand. Filling a template evaluates the operands from left to right and puts their values in, the elements
of a splice one by one.

## Contents
* **Holes** `Value.operand?`, in either spelling (`Value.operand?_eq_some_iff`).
* **Filling.** `fill`, `fillItems`.
-/

namespace SmallLisp

/-- The operand of a form under a mark, in either spelling. -/
def Value.operand? (m : Mark) : Value → Option Value
  | .marked n form             => if n = m then some form else none
  | .list [.symbol name, form] => if name = m.name then some form else none
  | _                          => none

/-- A form has an operand under a mark in exactly the two spellings of it. -/
theorem Value.operand?_eq_some_iff {m : Mark} {v operand : Value} :
    v.operand? m = some operand ↔ v = .marked m operand ∨ v = .list [.symbol m.name, operand] := by
  constructor
  · intro h
    unfold Value.operand? at h
    split at h
    · split at h
      · rename_i hm
        cases h
        exact Or.inl (by rw [hm])
      · cases h
    · split at h
      · rename_i hname
        cases h
        exact Or.inr (by rw [hname])
      · cases h
    · cases h
  · rintro (rfl | rfl) <;> simp [Value.operand?]

/-- A list with another head than the name of the mark has no operand under it. -/
theorem Value.operand?_list_eq_none {m : Mark} {head : Value} {parts : List Value} (h : head ≠ .symbol m.name) :
    (Value.list (head :: parts)).operand? m = none := by
  rw [Option.eq_none_iff_forall_ne_some]
  intro operand hsome
  rcases Value.operand?_eq_some_iff.mp hsome with heq | heq
  · cases heq
  · injection heq with heq
    injection heq with hhead
    exact h hhead

namespace Eval

open SmallLisp.Action

variable (ev : Evaluator)

mutual

/-- Fills a template. Holes are looked for in lists, in vectors and under the marks `quote` and `quasiquote`,
not in maps. -/
def fill (s : ScopeId) : Value → Action Value
  | .list items =>
    match (Value.list items).operand? .unquote with
    | some operand => ev operand s
    | none         => do return .list (← fillItems s items)
  | .vector items              => do return .vector (← fillItems s items)
  | .marked .quote form        => do return .marked .quote (← fill s form)
  | .marked .quasiquote form   => do return .marked .quasiquote (← fill s form)
  | .marked .unquote operand   => ev operand s
  | .marked .spliceUnquote _   => fail (.malformed .spliceWithoutSequence)
  | form                       => pure form

/-- Fills the elements of a list or a vector, where a splice stands for any number of elements. -/
def fillItems (s : ScopeId) : List Value → Action (List Value)
  | []            => pure []
  | item :: items =>
    match item.operand? .spliceUnquote with
    | some operand => do
      let v ← ev operand s
      match v.items? with
      | some elements => return elements ++ (← fillItems s items)
      | none          => fail (.wrongType Mark.spliceUnquote.name .sequence v)
    | none => do
      let v ← fill s item
      return v :: (← fillItems s items)

end

end Eval

end SmallLisp
