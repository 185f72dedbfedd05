import Mathlib.Data.Nat.Find
import SmallLisp.Builtin.Call

/-!
# `SmallLisp.Proofs.Builtin.Arithmetic` — integers are exact or refused

Integer arithmetic has a bound on every number that it goes through, not only on the last one. Its meaning is said
here without a bound: a chain of operations has a start and operands, and a partial result after each of them, a
whole number of any size. The builtin follows the chain as long as it goes well and stops at the first step that does
not, whatever might come after it.

## Contents
* **Chains** `Arithmetic.chain?`: where the operations start, and what is joined to the start.
* **Partial results** `Arithmetic.partialResult`, and the steps that go well, `Arithmetic.GoesWell`.
* **Following a chain** `fold_append_of_goesWell`, `fold_append_of_first_wrong`, whatever arguments come after the
  integers, and without any `fold_of_goesWell`, `fold_of_first_wrong`.
* **The result** `integers_exact_or_refused`, with an overflow that a later operand would have undone.
-/

namespace SmallLisp

/-- The integer fits into sixty-four bits. -/
def Integer.Fits (n : Int) : Prop := -9223372036854775808 ≤ n ∧ n ≤ 9223372036854775807

namespace Integer

instance (n : Int) : Decidable (Fits n) := inferInstanceAs (Decidable (_ ∧ _))

theorem exists_ofInt?_of_fits {n : Int} (h : Fits n) : ∃ w : Int64, ofInt? n = some w ∧ w.toInt = n := by
  have hsome : ofInt? n = some (Int64.ofInt n) := if_pos h
  exact ⟨Int64.ofInt n, hsome, toInt_of_ofInt? hsome⟩

theorem ofInt?_of_not_fits {n : Int} (h : ¬ Fits n) : ofInt? n = none := if_neg h

end Integer

namespace Arithmetic

open Integer (Fits)

/-! ## Chains -/

/-- The start of a chain of operations, and the operands that are joined to it one after the other. Sums start at
zero and products at one. Differences and quotients start at the first of several numbers, and have none to start at
where there are no numbers; for a single number they start at zero and at one. -/
def chain? : Arithmetic → List Int → Option (Int × List Int)
  | add, ns           => some (0, ns)
  | multiply, ns      => some (1, ns)
  | subtract, [n]     => some (0, [n])
  | divide, [n]       => some (1, [n])
  | subtract, n :: ns => some (n, ns)
  | divide, n :: ns   => some (n, ns)
  | subtract, []      => none
  | divide, []        => none

/-! ## Partial results -/

section Steps

variable (op : Arithmetic) (start : Int) (operands : List Int)

/-- What the first `k` operands come to, in whole numbers without a bound. -/
def partialResult (k : Nat) : Int := (operands.take k).foldl op.exact start

/-- The operand at place `k` is a zero to divide by. -/
def DividesByZero (k : Nat) : Prop := op = divide ∧ operands[k]? = some 0

/-- Nothing is wrong with joining the operand at place `k`: it is no zero to divide by, and the partial result with it
fits. -/
def GoesWell (k : Nat) : Prop := ¬ op.DividesByZero operands k ∧ Fits (op.partialResult start operands (k + 1))

end Steps

variable {op : Arithmetic} {start n : Int} {rest : List Int}

theorem partialResult_cons (k : Nat) :
    op.partialResult start (n :: rest) (k + 1) = op.partialResult (op.exact start n) rest k := by
  rw [partialResult, List.take_succ_cons, List.foldl_cons, partialResult]

theorem dividesByZero_head : op.DividesByZero (n :: rest) 0 ↔ op = divide ∧ n = 0 := by
  rw [DividesByZero, List.getElem?_cons_zero, Option.some.injEq]

theorem goesWell_head : op.GoesWell start (n :: rest) 0 ↔ ¬ (op = divide ∧ n = 0) ∧ Fits (op.exact start n) := by
  rw [GoesWell, dividesByZero_head, partialResult_cons]
  exact Iff.rfl

/-- A step after the first one is a step of the chain that starts after the first operand. -/
theorem goesWell_cons (k : Nat) :
    op.GoesWell start (n :: rest) (k + 1) ↔ op.GoesWell (op.exact start n) rest k := by
  rw [GoesWell, GoesWell, DividesByZero, DividesByZero, List.getElem?_cons_succ, partialResult_cons]

/-! ## Following a chain -/

/-- The operation on two integers, with the divisor compared as a whole number. -/
theorem combine_integers (op : Arithmetic) (a b : Int64) :
    op.combine (.integer a) (.integer b) =
      if op = divide ∧ b.toInt = 0 then .error (.divisionByZero op.name)
      else
        match Integer.ofInt? (op.exact a.toInt b.toInt) with
        | some c => .ok (.integer c)
        | none   => .error (.integerOverflow op.name) := by
  have hzero : (op = divide ∧ b = 0) ↔ (op = divide ∧ b.toInt = 0) := and_congr_right fun _ => Int64.toInt_inj.symm
  by_cases h : op = divide ∧ b = 0
  · exact (if_pos h).trans (if_pos (hzero.mp h)).symm
  · exact (if_neg h).trans (if_neg (mt hzero.mpr h)).symm

/-- A step that goes well leads to the exact partial result. -/
theorem combine_of_goesWell {a b : Int64} (h : op.GoesWell a.toInt (b.toInt :: rest) 0) :
    ∃ c : Int64, op.combine (.integer a) (.integer b) = .ok (.integer c) ∧ c.toInt = op.exact a.toInt b.toInt := by
  obtain ⟨hzero, hfits⟩ := goesWell_head.mp h
  obtain ⟨c, hc, hexact⟩ := Integer.exists_ofInt?_of_fits hfits
  refine ⟨c, ?_, hexact⟩
  rw [combine_integers, if_neg hzero, hc]

/-- A zero to divide by is noticed before the partial result is. -/
theorem combine_of_not_goesWell {a b : Int64} (h : ¬ op.GoesWell a.toInt (b.toInt :: rest) 0) :
    op.combine (.integer a) (.integer b) =
      .error (if op = divide ∧ b.toInt = 0 then .divisionByZero op.name else .integerOverflow op.name) := by
  rw [combine_integers]
  by_cases hzero : op = divide ∧ b.toInt = 0
  · rw [if_pos hzero, if_pos hzero]
  · have hfits : ¬ Fits (op.exact a.toInt b.toInt) := fun hfits => h (goesWell_head.mpr ⟨hzero, hfits⟩)
    rw [if_neg hzero, if_neg hzero, Integer.ofInt?_of_not_fits hfits]

theorem fold_cons_of_combine {a b c : Int64} {ns : List Int64} (more : List Value)
    (h : op.combine (.integer a) (.integer b) = .ok (.integer c)) :
    op.fold (.integer a) ((b :: ns).map Value.integer ++ more) = op.fold (.integer c) (ns.map Value.integer ++ more) := by
  rw [List.map_cons, List.cons_append, fold]
  simp only [Number.ofArgument, h]

/-- **Where all goes well** the builtin comes to the last partial result, and goes on from there with the arguments
after the integers. -/
theorem fold_append_of_goesWell {a : Int64} {ns : List Int64}
    (h : ∀ k < ns.length, op.GoesWell a.toInt (ns.map Int64.toInt) k) (more : List Value) :
    ∃ c : Int64, op.fold (.integer a) (ns.map Value.integer ++ more) = op.fold (.integer c) more ∧
      c.toInt = op.partialResult a.toInt (ns.map Int64.toInt) ns.length := by
  induction ns generalizing a with
  | nil => exact ⟨a, rfl, rfl⟩
  | cons b ns ih =>
      obtain ⟨c, hc, hexact⟩ := combine_of_goesWell (h 0 (Nat.zero_lt_succ _))
      have htail : ∀ k < ns.length, op.GoesWell c.toInt (ns.map Int64.toInt) k := by
        intro k hk
        rw [hexact]
        exact (goesWell_cons k).mp (h (k + 1) (Nat.succ_lt_succ hk))
      obtain ⟨d, hd, hlast⟩ := ih htail
      refine ⟨d, ?_, ?_⟩
      · rw [fold_cons_of_combine more hc, hd]
      · rw [hlast, hexact]
        exact (partialResult_cons _).symm

/-- Without further arguments the last partial result is the value. -/
theorem fold_of_goesWell {a : Int64} {ns : List Int64}
    (h : ∀ k < ns.length, op.GoesWell a.toInt (ns.map Int64.toInt) k) :
    ∃ c : Int64, op.fold (.integer a) (ns.map Value.integer) = .ok (.integer c) ∧
      c.toInt = op.partialResult a.toInt (ns.map Int64.toInt) ns.length := by
  have hfold := fold_append_of_goesWell h []
  rwa [List.append_nil] at hfold

/-- **Where something goes wrong** the builtin gives the error of the first step that does, whatever arguments come
after the integers. -/
theorem fold_append_of_first_wrong {a : Int64} {ns : List Int64} {k : Nat} (hk : k < ns.length)
    (hbefore : ∀ j < k, op.GoesWell a.toInt (ns.map Int64.toInt) j)
    (hwrong : ¬ op.GoesWell a.toInt (ns.map Int64.toInt) k) (more : List Value) :
    (op.DividesByZero (ns.map Int64.toInt) k ∧
      op.fold (.integer a) (ns.map Value.integer ++ more) = .error (.divisionByZero op.name)) ∨
    (¬ op.DividesByZero (ns.map Int64.toInt) k ∧
      op.fold (.integer a) (ns.map Value.integer ++ more) = .error (.integerOverflow op.name)) := by
  induction ns generalizing a k with
  | nil => exact absurd hk (Nat.not_lt_zero k)
  | cons b ns ih =>
      cases k with
      | zero =>
          have hcombine := combine_of_not_goesWell hwrong
          rw [List.map_cons, List.map_cons, dividesByZero_head, List.cons_append, fold]
          simp only [Number.ofArgument, hcombine]
          by_cases hzero : op = divide ∧ b.toInt = 0
          · exact Or.inl ⟨hzero, by rw [if_pos hzero]⟩
          · exact Or.inr ⟨hzero, by rw [if_neg hzero]⟩
      | succ k =>
          obtain ⟨c, hc, hexact⟩ := combine_of_goesWell (hbefore 0 (Nat.zero_lt_succ k))
          rw [fold_cons_of_combine more hc]
          apply ih (Nat.lt_of_succ_lt_succ hk)
          · intro j hj
            rw [hexact]
            exact (goesWell_cons j).mp (hbefore (j + 1) (Nat.succ_lt_succ hj))
          · intro hwell
            rw [hexact] at hwell
            exact hwrong ((goesWell_cons k).mpr hwell)

theorem fold_of_first_wrong {a : Int64} {ns : List Int64} {k : Nat} (hk : k < ns.length)
    (hbefore : ∀ j < k, op.GoesWell a.toInt (ns.map Int64.toInt) j)
    (hwrong : ¬ op.GoesWell a.toInt (ns.map Int64.toInt) k) :
    (op.DividesByZero (ns.map Int64.toInt) k ∧
      op.fold (.integer a) (ns.map Value.integer) = .error (.divisionByZero op.name)) ∨
    (¬ op.DividesByZero (ns.map Int64.toInt) k ∧
      op.fold (.integer a) (ns.map Value.integer) = .error (.integerOverflow op.name)) := by
  have hfold := fold_append_of_first_wrong hk hbefore hwrong []
  rwa [List.append_nil] at hfold

end Arithmetic

/-! ## The result -/

namespace Builtin

open Arithmetic

/-- What an arithmetic builtin does with integers is decided by where its chain starts. -/
theorem call_integers (op : Arithmetic) (ns : List Int64) :
    (op.chain? (ns.map Int64.toInt) = none ∧
      (arithmetic op).call (ns.map Value.integer) = .error (.wrongCount op.name (.atLeast 1) 0)) ∨
    ∃ (a : Int64) (rest : List Int64), op.chain? (ns.map Int64.toInt) = some (a.toInt, rest.map Int64.toInt) ∧
      (arithmetic op).call (ns.map Value.integer) =
        (op.fold (.integer a) (rest.map Value.integer)).map Answer.silent := by
  cases op with
  | add      => exact Or.inr ⟨0, ns, rfl, rfl⟩
  | multiply => exact Or.inr ⟨1, ns, rfl, rfl⟩
  | subtract =>
      rcases ns with _ | ⟨first, _ | ⟨second, rest⟩⟩
      · exact Or.inl ⟨rfl, rfl⟩
      · exact Or.inr ⟨0, [first], rfl, rfl⟩
      · exact Or.inr ⟨first, second :: rest, rfl, rfl⟩
  | divide =>
      rcases ns with _ | ⟨first, _ | ⟨second, rest⟩⟩
      · exact Or.inl ⟨rfl, rfl⟩
      · exact Or.inr ⟨1, [first], rfl, rfl⟩
      · exact Or.inr ⟨first, second :: rest, rfl, rfl⟩

end Builtin

/-- **Integers are exact or refused.** An arithmetic builtin called with integers alone goes through the partial results
of its chain, in whole numbers without a bound. If no operand on the way is a zero to divide by and all partial results
fit into sixty-four bits, then it gives the last of them; otherwise it gives the error of the first step where this
fails. Where the chain has no start the number of arguments is wrong. -/
theorem integers_exact_or_refused (op : Arithmetic) (ns : List Int64) :
    let result := (Builtin.arithmetic op).call (ns.map Value.integer)
    match op.chain? (ns.map Int64.toInt) with
    | none => result = .error (.wrongCount op.name (.atLeast 1) 0)
    | some (start, operands) =>
      ((∀ k < operands.length, op.GoesWell start operands k) ∧
        ∃ n : Int64, result = .ok (.silent (.integer n)) ∧
          n.toInt = op.partialResult start operands operands.length) ∨
      ∃ k < operands.length, (∀ j < k, op.GoesWell start operands j) ∧
        ((op.DividesByZero operands k ∧ result = .error (.divisionByZero op.name)) ∨
          (¬ op.DividesByZero operands k ∧ ¬ Integer.Fits (op.partialResult start operands (k + 1)) ∧
            result = .error (.integerOverflow op.name))) := by
  intro result
  rcases Builtin.call_integers op ns with ⟨hchain, hcall⟩ | ⟨a, rest, hchain, hcall⟩
  · rw [hchain]
    exact hcall
  · rw [hchain]
    replace hcall : result = (op.fold (.integer a) (rest.map Value.integer)).map Answer.silent := hcall
    have hlength : (rest.map Int64.toInt).length = rest.length := List.length_map Int64.toInt
    by_cases hall : ∀ k < rest.length, op.GoesWell a.toInt (rest.map Int64.toInt) k
    · left
      obtain ⟨n, hfold, hlast⟩ := Arithmetic.fold_of_goesWell hall
      refine ⟨by rwa [hlength], n, ?_, by rwa [hlength]⟩
      rw [hcall, hfold]
      rfl
    · right
      rw [not_forall₂] at hall
      classical
      obtain ⟨hk, hwrong⟩ := Nat.find_spec hall
      have hbefore : ∀ j < Nat.find hall, op.GoesWell a.toInt (rest.map Int64.toInt) j := by
        intro j hj
        by_contra hnot
        exact Nat.find_min hall hj ⟨Nat.lt_trans hj hk, hnot⟩
      refine ⟨Nat.find hall, by rwa [hlength], hbefore, ?_⟩
      rcases Arithmetic.fold_of_first_wrong hk hbefore hwrong with ⟨hzero, hfold⟩ | ⟨hzero, hfold⟩
      · left
        refine ⟨hzero, ?_⟩
        rw [hcall, hfold]
        rfl
      · right
        refine ⟨hzero, fun hfits => hwrong ⟨hzero, hfits⟩, ?_⟩
        rw [hcall, hfold]
        rfl

/-- A later operand does not undo an overflow. -/
example : (Builtin.arithmetic .add).call ([9223372036854775807, 1, -1].map Value.integer) =
    .error (.integerOverflow "+") := rfl

end SmallLisp
