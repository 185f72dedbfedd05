import SmallLisp.Proofs.Builtin.Arithmetic

/-!
# `SmallLisp.Proofs.Builtin.Promotion` — a float among the operands

Arithmetic goes from left to right, and it is integer arithmetic up to the first float and float arithmetic from there
on. Float arithmetic has no errors. So a float makes the result a float, but only if it is reached: the integers
before it are joined as if it were not there, and the first step of theirs that goes wrong ends the call.

## Contents
* **Numbers before the first float** `Number.leadingIntegers`, and the steps that they make,
  `Arithmetic.integerSteps`.
* **Float arithmetic** `fold_float`, and calls that come to it, `call_of_float`.
* **The result** `float_operand_promotes`, with a float that keeps an integer from overflowing, and
  `integers_before_float_fail`, where it comes too late.
-/

namespace SmallLisp

/-! ## Numbers before the first float -/

namespace Number

/-- The integers before the first float. -/
def leadingIntegers : List Number → List Int64
  | integer n :: ns => n :: leadingIntegers ns
  | _               => []

/-- Numbers with a float among them are some integers, a float and any numbers. -/
theorem exists_leadingIntegers_append {args : List Number} (h : ∃ x, float x ∈ args) :
    ∃ x rest, args = (leadingIntegers args).map integer ++ float x :: rest := by
  induction args with
  | nil =>
      obtain ⟨x, hx⟩ := h
      cases hx
  | cons n args ih =>
      cases n with
      | float x => exact ⟨x, args, rfl⟩
      | integer n =>
          obtain ⟨x, hx⟩ := h
          have hargs : float x ∈ args := (List.mem_cons.mp hx).resolve_left nofun
          obtain ⟨y, rest, heq⟩ := ih ⟨x, hargs⟩
          refine ⟨y, rest, ?_⟩
          rw [leadingIntegers, List.map_cons, List.cons_append, ← heq]

theorem ofArgument_toValue (function : String) (n : Number) : ofArgument function n.toValue = .ok n := by
  cases n <;> rfl

end Number

namespace Arithmetic

/-- The steps that integers before a float make: where they start, and what is joined to the start. Sums and products
start at their neutral number. Differences and quotients start at the first integer; if there is none then the float
is the first number itself, and no step comes before it. -/
def integerSteps : Arithmetic → List Int → Int × List Int
  | add, ns           => (0, ns)
  | multiply, ns      => (1, ns)
  | subtract, n :: ns => (n, ns)
  | divide, n :: ns   => (n, ns)
  | subtract, []      => (0, [])
  | divide, []        => (1, [])

/-! ## Float arithmetic -/

variable {op : Arithmetic}

theorem combine_float_left (x : Float) (n : Number) :
    op.combine (.float x) n = .ok (.float (op.onFloats x n.toFloat)) := by
  cases n <;> rfl

theorem combine_float_right (n : Number) (x : Float) :
    op.combine n (.float x) = .ok (.float (op.onFloats n.toFloat x)) := by
  cases n <;> rfl

/-- **From a float on** all numbers are joined as floats, and nothing goes wrong. -/
theorem fold_float (x : Float) (ns : List Number) :
    op.fold (.float x) (ns.map Number.toValue) =
      .ok (.float (ns.foldl (fun acc n => op.onFloats acc n.toFloat) x)) := by
  induction ns generalizing x with
  | nil => rfl
  | cons n ns ih =>
      rw [List.map_cons, fold, Number.ofArgument_toValue]
      simp only [combine_float_left]
      rw [ih, List.foldl_cons]

theorem exists_fold_float_cons (op : Arithmetic) (acc : Number) (x : Float) (rest : List Number) :
    ∃ y, op.fold acc (.float x :: rest.map Number.toValue) = .ok (.float y) := by
  have hstep : op.fold acc (.float x :: rest.map Number.toValue) =
      op.fold (.float (op.onFloats acc.toFloat x)) (rest.map Number.toValue) := by
    rw [fold]
    simp only [Number.ofArgument, combine_float_right]
  exact ⟨_, hstep.trans (fold_float _ rest)⟩

/-! ## Calls -/

/-- A float that starts a difference or a quotient, or is the whole of it. -/
theorem exists_call_float_cons (hop : ¬ (op = add ∨ op = multiply)) (x : Float) (rest : List Number) :
    ∃ y, op.call (.float x :: rest.map Number.toValue) = .ok (.float y) := by
  cases rest with
  | nil =>
      obtain ⟨y, hy⟩ := exists_fold_float_cons op op.neutral x []
      exact ⟨y, (if_neg hop).trans hy⟩
  | cons second rest => exact ⟨_, (if_neg hop).trans (fold_float x (second :: rest))⟩

/-- An integer that starts a difference or a quotient with more numbers in it. -/
theorem call_integer_append_cons (hop : ¬ (op = add ∨ op = multiply)) (n : Int64) (ns : List Int64) (v : Value)
    (more : List Value) :
    op.call (.integer n :: (ns.map Value.integer ++ v :: more)) =
      op.fold (.integer n) (ns.map Value.integer ++ v :: more) := by
  cases ns <;> exact if_neg hop

/-- A call with a float gives a float at once, or it goes through the integers before the float first. -/
theorem call_of_float (op : Arithmetic) (ns : List Int64) (x : Float) (rest : List Number) :
    let call := op.call (ns.map Value.integer ++ .float x :: rest.map Number.toValue)
    ((op.integerSteps (ns.map Int64.toInt)).2 = [] ∧ ∃ y, call = .ok (.float y)) ∨
    ∃ (a : Int64) (operands : List Int64), op.integerSteps (ns.map Int64.toInt) = (a.toInt, operands.map Int64.toInt) ∧
      call = op.fold (.integer a) (operands.map Value.integer ++ .float x :: rest.map Number.toValue) := by
  intro call
  cases op with
  | add      => exact Or.inr ⟨0, ns, rfl, rfl⟩
  | multiply => exact Or.inr ⟨1, ns, rfl, rfl⟩
  | subtract | divide =>
      cases ns with
      | nil       => exact Or.inl ⟨rfl, exists_call_float_cons (by decide) x rest⟩
      | cons n ns => exact Or.inr ⟨n, ns, rfl, call_integer_append_cons (by decide) n ns _ _⟩

/-- Some steps all go well, or there is a first one that does not. -/
theorem goesWell_or_first_wrong (op : Arithmetic) (start : Int) (operands : List Int) :
    (∀ k < operands.length, op.GoesWell start operands k) ∨
      ∃ k < operands.length, (∀ j < k, op.GoesWell start operands j) ∧ ¬ op.GoesWell start operands k := by
  by_cases hall : ∀ k < operands.length, op.GoesWell start operands k
  · exact Or.inl hall
  · right
    rw [not_forall₂] at hall
    classical
    obtain ⟨hk, hwrong⟩ := Nat.find_spec hall
    refine ⟨Nat.find hall, hk, fun j hj => ?_, hwrong⟩
    by_contra hnot
    exact Nat.find_min hall hj ⟨Nat.lt_trans hj hk, hnot⟩

end Arithmetic

/-! ## The result -/

/-- **A float operand makes the result a float, if it is reached.** An arithmetic builtin called with numbers, one of
them a float, goes through the steps that the integers before the first float make. If they all go well then it gives
a float, whatever comes after; otherwise it gives the error of the first of these steps that does not. -/
theorem float_operand_promotes (op : Arithmetic) {args : List Number} (h : ∃ x, Number.float x ∈ args) :
    let result := (Builtin.arithmetic op).call (args.map Number.toValue)
    let steps := op.integerSteps ((Number.leadingIntegers args).map Int64.toInt)
    ((∀ k < steps.2.length, op.GoesWell steps.1 steps.2 k) ∧ ∃ y, result = .ok (.silent (.float y))) ∨
    ∃ k < steps.2.length, (∀ j < k, op.GoesWell steps.1 steps.2 j) ∧
      ((op.DividesByZero steps.2 k ∧ result = .error (.divisionByZero op.name)) ∨
        (¬ op.DividesByZero steps.2 k ∧ ¬ Integer.Fits (op.partialResult steps.1 steps.2 (k + 1)) ∧
          result = .error (.integerOverflow op.name))) := by
  intro result steps
  obtain ⟨x, rest, hargs⟩ := Number.exists_leadingIntegers_append h
  have hvalues : args.map Number.toValue =
      (Number.leadingIntegers args).map Value.integer ++ .float x :: rest.map Number.toValue := by
    rw [congrArg (List.map Number.toValue) hargs, List.map_append, List.map_map]
    rfl
  have hresult : result = (op.call ((Number.leadingIntegers args).map Value.integer ++
      .float x :: rest.map Number.toValue)).map Answer.silent := by
    rw [← hvalues]
    rfl
  rcases Arithmetic.call_of_float op (Number.leadingIntegers args) x rest with
    ⟨hnone, y, hcall⟩ | ⟨a, operands, hsteps, hcall⟩
  · left
    refine ⟨?_, y, by rw [hresult, hcall]; rfl⟩
    intro k hk
    rw [show steps.2 = [] from hnone] at hk
    exact absurd hk (Nat.not_lt_zero k)
  · rw [show steps = (a.toInt, operands.map Int64.toInt) from hsteps]
    rw [hcall] at hresult
    have hlength : (operands.map Int64.toInt).length = operands.length := List.length_map Int64.toInt
    rcases Arithmetic.goesWell_or_first_wrong op a.toInt (operands.map Int64.toInt) with
      hall | ⟨k, hk, hbefore, hwrong⟩
    · left
      refine ⟨hall, ?_⟩
      rw [hlength] at hall
      obtain ⟨c, hfold, -⟩ := Arithmetic.fold_append_of_goesWell hall (.float x :: rest.map Number.toValue)
      obtain ⟨y, hfloat⟩ := Arithmetic.exists_fold_float_cons op (.integer c) x rest
      exact ⟨y, by rw [hresult, hfold, hfloat]; rfl⟩
    · right
      refine ⟨k, hk, hbefore, ?_⟩
      rw [hlength] at hk
      rcases Arithmetic.fold_append_of_first_wrong hk hbefore hwrong (.float x :: rest.map Number.toValue) with
        ⟨hzero, hfold⟩ | ⟨hzero, hfold⟩
      · exact Or.inl ⟨hzero, by rw [hresult, hfold]; rfl⟩
      · exact Or.inr ⟨hzero, fun hfits => hwrong ⟨hzero, hfits⟩, by rw [hresult, hfold]; rfl⟩

/-- The float comes before the second integer, which would not fit if it were added to the first one. -/
theorem float_before_overflow :
    let args := [Number.integer 9223372036854775807, .float 1.5, .integer 1]
    (∃ x, Number.float x ∈ args) ∧
    ∃ y, (Builtin.arithmetic .add).call (args.map Number.toValue) = .ok (.silent (.float y)) := by
  intro args
  have hfloat : ∃ x, Number.float x ∈ args := ⟨1.5, by simp [args]⟩
  refine ⟨hfloat, ?_⟩
  rcases float_operand_promotes .add hfloat with ⟨-, hresult⟩ | ⟨k, hk, -, hwrong⟩
  · exact hresult
  · -- There is one step before the float, and it goes well.
    obtain rfl : k = 0 := Nat.lt_one_iff.mp hk
    rcases hwrong with ⟨⟨hdivides, -⟩, -⟩ | ⟨-, hfits, -⟩
    · cases hdivides
    · exact absurd (by decide) hfits

/-- A float that comes after an overflow, or after a zero to divide by, is not reached. -/
theorem integers_before_float_fail :
    let sum := [Number.integer 9223372036854775807, .integer 1, .float 1.5]
    let quotient := [Number.integer 1, .integer 0, .float 1.5]
    ((∃ x, Number.float x ∈ sum) ∧
      (Builtin.arithmetic .add).call (sum.map Number.toValue) = .error (.integerOverflow "+")) ∧
    ((∃ x, Number.float x ∈ quotient) ∧
      (Builtin.arithmetic .divide).call (quotient.map Number.toValue) = .error (.divisionByZero "/")) := by
  intro sum quotient
  exact ⟨⟨⟨1.5, by simp [sum]⟩, rfl⟩, ⟨⟨1.5, by simp [quotient]⟩, rfl⟩⟩

end SmallLisp
