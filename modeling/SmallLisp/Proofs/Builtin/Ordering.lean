import SmallLisp.Builtin.Call
import SmallLisp.Proofs.Binary64.Monotone

/-!
# `SmallLisp.Proofs.Builtin.Ordering` — how far the order of numbers is transitive

Two integers are compared exactly, and an integer meets a float as the nearest float. Either comparison alone is
transitive. In a chain of three numbers both may be used, and then it matters that far from zero several integers
have the same nearest float: they all look equal to this float, though they differ from each other. Nothing else can go
wrong.

## Contents
* **Answers** `Comparison.Says`, and what they come from, `says_iff`.
* **Places** of numbers, `Number.place`. They decide unless both numbers are integers (`says_of_not_integers`), and
  comparisons never go against them (`place_le_of_lessOrEqual`).
* **Merged integers** around a float (`MergedAround`) and before one (`MergedBefore`).
* **Transitivity** `ordering_transitive_iff`, with `integers_around_float`, where it goes wrong.
-/

namespace SmallLisp

open Binary64

/-! ## Answers -/

namespace Comparison

variable {a b : Number}

/-- The comparison, called with two numbers, gives `true`. -/
def Says (rel : Comparison) (a b : Number) : Prop :=
  (Builtin.comparison rel).call [a.toValue, b.toValue] = .ok (.silent (.boolean true))

/-- Called with two numbers a comparison prints nothing and gives a boolean. -/
theorem call_eq (rel : Comparison) (a b : Number) :
    (Builtin.comparison rel).call [a.toValue, b.toValue] = .ok (.silent (.boolean (rel.holds a b))) := by
  cases a <;> cases b <;> rfl

theorem says_iff (rel : Comparison) : rel.Says a b ↔ rel.holds a b = true := by
  rw [Says, call_eq]
  cases rel.holds a b <;> simp [Answer.silent]

end Comparison

/-! ## Places -/

namespace Number

/-- The place of a number among the floats. -/
def place (a : Number) : Int := position a.toFloat

/-- The number has a place, as every number has except a NaN. -/
def Counts (a : Number) : Prop := magnitude a.toFloat ≤ infinityMagnitude

/-- Both numbers are integers. -/
def AreIntegers (a b : Number) : Prop := ∃ m n, a = integer m ∧ b = integer n

theorem counts_integer (n : Int64) : (integer n).Counts := magnitude_ofInteger_le n

end Number

namespace Comparison

open Number

variable {a b : Number}

theorem says_integers (m n : Int64) :
    (lessOrEqual.Says (integer m) (integer n) ↔ m ≤ n) ∧ (less.Says (integer m) (integer n) ↔ m < n) := by
  rw [says_iff, says_iff]
  exact ⟨decide_eq_true_iff, decide_eq_true_iff⟩

theorem says_of_not_integers (h : ¬ AreIntegers a b) :
    (lessOrEqual.Says a b ↔ (a.Counts ∧ b.Counts) ∧ a.place ≤ b.place) ∧
      (less.Says a b ↔ (a.Counts ∧ b.Counts) ∧ a.place < b.place) := by
  have hholds (rel : Comparison) : rel.holds a b = rel.onFloats a.toFloat b.toFloat := by
    cases a with
    | float x => rfl
    | integer m =>
        cases b with
        | float y => rfl
        | integer n => exact absurd ⟨m, n, rfl, rfl⟩ h
  rw [says_iff, says_iff, hholds, hholds]
  exact ⟨decide_eq_true_iff.trans (le_iff _ _), decide_eq_true_iff.trans (lt_iff _ _)⟩

theorem place_le_of_lessOrEqual (h : lessOrEqual.Says a b) : (a.Counts ∧ b.Counts) ∧ a.place ≤ b.place := by
  by_cases hkinds : AreIntegers a b
  · obtain ⟨m, n, rfl, rfl⟩ := hkinds
    rw [(says_integers m n).1] at h
    exact ⟨⟨counts_integer m, counts_integer n⟩, position_ofInteger_mono h⟩
  · exact (says_of_not_integers hkinds).1.mp h

theorem lessOrEqual_of_less (h : less.Says a b) : lessOrEqual.Says a b := by
  by_cases hkinds : AreIntegers a b
  · obtain ⟨m, n, rfl, rfl⟩ := hkinds
    rw [(says_integers m n).2] at h
    exact (says_integers m n).1.mpr (Int64.le_of_lt h)
  · rw [(says_of_not_integers hkinds).2] at h
    exact (says_of_not_integers hkinds).1.mpr ⟨h.1, Int.le_of_lt h.2⟩

end Comparison

/-! ## Merged integers -/

open Comparison Number

/-- Both integers are converted to the float, or to the other zero if it is a zero. -/
def Merges (m n : Int64) (x : Float) : Prop := (ofInteger m == x) = true ∧ (ofInteger n == x) = true

/-- Two integers in the wrong order, with a float between them that merges them. -/
def MergedAround : Number → Number → Number → Prop
  | .integer m, .float x, .integer n => n < m ∧ Merges m n x
  | _, _, _                          => False

/-- Two integers, with a float after them that merges them. -/
def MergedBefore : Number → Number → Number → Prop
  | .integer m, .integer n, .float x => Merges m n x
  | _, _, _                          => False

theorem merges_iff {m n : Int64} {x : Float} (hx : (float x).Counts) :
    Merges m n x ↔ (integer m).place = (float x).place ∧ (integer n).place = (float x).place := by
  have hiff (k : Int64) : (ofInteger k == x) = true ↔ (integer k).place = (float x).place :=
    (beq_iff _ _).trans (and_iff_right ⟨counts_integer k, hx⟩)
  rw [Merges, hiff, hiff]

theorem MergedAround.areIntegers {a b c : Number} (h : MergedAround a b c) : AreIntegers a c := by
  unfold MergedAround at h
  split at h
  · exact ⟨_, _, rfl, rfl⟩
  · exact h.elim

theorem MergedBefore.areIntegers {a b c : Number} (h : MergedBefore a b c) : AreIntegers a b := by
  unfold MergedBefore at h
  split at h
  · exact ⟨_, _, rfl, rfl⟩
  · exact h.elim

/-- Around a float two integers stand in the right order, unless the float merges them. -/
theorem le_iff_around_float {m n : Int64} {x : Float} (hm : lessOrEqual.Says (.integer m) (.float x))
    (hn : lessOrEqual.Says (.float x) (.integer n)) : m ≤ n ↔ ¬ (n < m ∧ Merges m n x) := by
  obtain ⟨⟨-, hx⟩, hplacem⟩ := place_le_of_lessOrEqual hm
  obtain ⟨-, hplacen⟩ := place_le_of_lessOrEqual hn
  constructor
  · rintro hle ⟨hlt, -⟩
    exact Int64.not_lt.mpr hle hlt
  · intro hnot
    by_contra hle
    have hlt := Int64.not_le.mp hle
    -- The integer on the left has the greater place too, and the float is between them.
    have hplace : (integer n).place ≤ (integer m).place := position_ofInteger_mono (Int64.le_of_lt hlt)
    exact hnot ⟨hlt, (merges_iff hx).mpr ⟨by omega, by omega⟩⟩

/-- Before a float the smaller one of two integers is smaller than the float, unless the float merges them. -/
theorem less_iff_before_float {m n : Int64} {x : Float} (hmn : m < n)
    (hn : lessOrEqual.Says (.integer n) (.float x)) : less.Says (.integer m) (.float x) ↔ ¬ Merges m n x := by
  obtain ⟨⟨-, hx⟩, hplacen⟩ := place_le_of_lessOrEqual hn
  have hplace : (integer m).place ≤ (integer n).place := position_ofInteger_mono (Int64.le_of_lt hmn)
  have hkinds : ¬ AreIntegers (.integer m) (.float x) := by
    rintro ⟨_, _, _, h⟩
    cases h
  rw [(says_of_not_integers hkinds).2, and_iff_right ⟨counts_integer m, hx⟩, merges_iff hx]
  omega

/-! ## Transitivity -/

section Chain

variable {a b c : Number}

theorem lessOrEqual_trans_iff (hab : lessOrEqual.Says a b) (hbc : lessOrEqual.Says b c) :
    lessOrEqual.Says a c ↔ ¬ MergedAround a b c := by
  by_cases hkinds : AreIntegers a c
  · obtain ⟨m, n, rfl, rfl⟩ := hkinds
    rw [(says_integers m n).1]
    cases b with
    | integer k =>
        have hmn := Int64.le_trans ((says_integers m k).1.mp hab) ((says_integers k n).1.mp hbc)
        exact iff_of_true hmn not_false
    | float x => exact le_iff_around_float hab hbc
  · obtain ⟨⟨ha, -⟩, hplaceab⟩ := place_le_of_lessOrEqual hab
    obtain ⟨⟨-, hc⟩, hplacebc⟩ := place_le_of_lessOrEqual hbc
    rw [(says_of_not_integers hkinds).1]
    exact iff_of_true ⟨⟨ha, hc⟩, hplaceab.trans hplacebc⟩ fun h => hkinds h.areIntegers

/-- Where places decide at the first step they decide for the whole chain. -/
theorem less_trans_of_not_integers (hkinds : ¬ AreIntegers a b) (hab : less.Says a b) (hbc : lessOrEqual.Says b c) :
    less.Says a c := by
  obtain ⟨⟨ha, -⟩, hplaceab⟩ := (says_of_not_integers hkinds).2.mp hab
  obtain ⟨⟨-, hc⟩, hplacebc⟩ := place_le_of_lessOrEqual hbc
  have hplace : a.place < c.place := Int.lt_of_lt_of_le hplaceab hplacebc
  by_cases hends : AreIntegers a c
  · obtain ⟨m, n, rfl, rfl⟩ := hends
    rw [(says_integers m n).2]
    by_contra hlt
    have hge : (integer n).place ≤ (integer m).place := position_ofInteger_mono (Int64.not_lt.mp hlt)
    omega
  · exact (says_of_not_integers hends).2.mpr ⟨⟨ha, hc⟩, hplace⟩

theorem less_trans_iff (hab : less.Says a b) (hbc : lessOrEqual.Says b c) :
    less.Says a c ↔ ¬ MergedBefore a b c := by
  by_cases hkinds : AreIntegers a b
  · obtain ⟨m, n, rfl, rfl⟩ := hkinds
    have hmn := (says_integers m n).2.mp hab
    cases c with
    | integer k =>
        have hmk := Int64.lt_of_lt_of_le hmn ((says_integers n k).1.mp hbc)
        exact iff_of_true ((says_integers m k).2.mpr hmk) not_false
    | float x => exact less_iff_before_float hmn hbc
  · exact iff_of_true (less_trans_of_not_integers hkinds hab hbc) fun h => hkinds h.areIntegers

end Chain

/-- **Ordering is transitive, unless a float merges two integers.** Where `(<= a b)` and `(<= b c)` hold, `(<= a c)`
holds too, unless `a` and `c` are integers in the wrong order that are both converted to the float `b`. Where `(< a b)`
and `(<= b c)` hold, `(< a c)` holds too, unless `a` and `b` are integers that are both converted to the float `c`. -/
theorem ordering_transitive_iff (a b c : Number) :
    (lessOrEqual.Says a b → lessOrEqual.Says b c → (lessOrEqual.Says a c ↔ ¬ MergedAround a b c)) ∧
    (less.Says a b → lessOrEqual.Says b c → (less.Says a c ↔ ¬ MergedBefore a b c)) :=
  ⟨lessOrEqual_trans_iff, less_trans_iff⟩

/-- A chain of an integer, a float and an integer. -/
theorem integer_float_integer_chain :
    (less.Says (.integer 1) (.float 1.5) ∧ lessOrEqual.Says (.integer 1) (.float 1.5) ∧
      lessOrEqual.Says (.float 1.5) (.integer 2)) ∧
    lessOrEqual.Says (.integer 1) (.integer 2) ∧ less.Says (.integer 1) (.integer 2) := by
  have hless : less.Says (.integer 1) (.float 1.5) := by
    rw [says_iff]
    decide +kernel
  have hle : lessOrEqual.Says (.integer 1) (.float 1.5) := lessOrEqual_of_less hless
  have hle' : lessOrEqual.Says (.float 1.5) (.integer 2) := by
    rw [says_iff]
    decide +kernel
  obtain ⟨htrans, htransLess⟩ := ordering_transitive_iff (.integer 1) (.float 1.5) (.integer 2)
  have hordered : ¬ MergedAround (.integer 1) (.float 1.5) (.integer 2) := fun h => absurd h.1 (by decide)
  exact ⟨⟨hless, hle, hle'⟩, (htrans hle hle').mpr hordered, (htransLess hless hle').mpr not_false⟩

/-- The two neighbours `2 ^ 53` and `2 ^ 53 + 1` are converted to the same float. -/
theorem integers_around_float :
    let low := Number.integer 9007199254740992
    let high := Number.integer 9007199254740993
    let x := Number.float 9007199254740992.0
    (lessOrEqual.Says high x ∧ lessOrEqual.Says x low ∧ ¬ lessOrEqual.Says high low) ∧
    (less.Says low high ∧ lessOrEqual.Says high x ∧ ¬ less.Says low x) := by
  intro low high x
  simp only [says_iff, low, high, x]
  decide +kernel

end SmallLisp
