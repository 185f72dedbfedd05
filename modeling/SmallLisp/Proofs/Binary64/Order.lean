import SmallLisp.Proofs.Binary64.Bits

/-!
# `SmallLisp.Proofs.Binary64.Order` — the order of floats is that of their bit patterns

Floats are compared by sign, exponent and mantissa. The bit patterns of the positive floats grow in this order, so each
float that is no NaN has a place on a line of integers, its magnitude or the opposite of it, and comparing two floats
is comparing their places. The two zeros share a place, and a NaN has no place that counts.

## Contents
* **Places** `position`, and the comparison of unpacked floats by them, `compare_unpack`.
* **Comparisons** `le_iff`, `lt_iff` and `beq_iff`.
-/

namespace SmallLisp.Binary64

open Float.Model (UnpackedFloat)

/-! ## Places -/

/-- The place of a float on the line of integers: its magnitude, on the side of its sign. -/
def position (x : Float) : Int := if isNegative x then -(magnitude x : Int) else magnitude x

theorem magnitude_lt_of_exponent_lt {x y : Float} (h : exponent x < exponent y) : magnitude x < magnitude y := by
  rw [exponent_eq, exponent_eq] at h
  split at h <;> split at h <;> omega

theorem magnitude_lt_of_mantissa_lt {x y : Float} (he : exponent x = exponent y) (h : mantissa x < mantissa y) :
    magnitude x < magnitude y := by
  rw [exponent_eq, exponent_eq] at he
  rw [mantissa_eq, mantissa_eq] at h
  split at h <;> split at h <;> omega

theorem magnitude_eq_of_mantissa_eq {x y : Float} (he : exponent x = exponent y) (h : mantissa x = mantissa y) :
    magnitude x = magnitude y := by
  rw [exponent_eq, exponent_eq] at he
  rw [mantissa_eq, mantissa_eq] at h
  split at h <;> split at h <;> omega

/-- Magnitudes are ordered by the exponent first and by the mantissa second. -/
theorem compare_exponent_mantissa (x y : Float) :
    (compare (exponent x) (exponent y)).then (compare (mantissa x) (mantissa y)) =
      compare (magnitude x) (magnitude y) := by
  rcases lt_trichotomy (exponent x) (exponent y) with he | he | he
  · rw [Int.compare_eq_lt.mpr he, Nat.compare_eq_lt.mpr (magnitude_lt_of_exponent_lt he)]
    rfl
  · rw [Int.compare_eq_eq.mpr he]
    rcases lt_trichotomy (mantissa x) (mantissa y) with hm | hm | hm
    · rw [Nat.compare_eq_lt.mpr hm, Nat.compare_eq_lt.mpr (magnitude_lt_of_mantissa_lt he hm)]
      rfl
    · rw [Nat.compare_eq_eq.mpr hm, Nat.compare_eq_eq.mpr (magnitude_eq_of_mantissa_eq he hm)]
      rfl
    · rw [Nat.compare_eq_gt.mpr hm, Nat.compare_eq_gt.mpr (magnitude_lt_of_mantissa_lt he.symm hm)]
      rfl
  · rw [Int.compare_eq_gt.mpr he, Nat.compare_eq_gt.mpr (magnitude_lt_of_exponent_lt he)]
    rfl

theorem sign_cases (x : Float) :
    (sign x = .negative ∧ position x = -(magnitude x : Int)) ∨ (sign x = .positive ∧ position x = magnitude x) := by
  unfold sign position
  cases isNegative x with
  | true  => exact Or.inl ⟨rfl, rfl⟩
  | false => exact Or.inr ⟨rfl, rfl⟩

theorem compare_natCast (m n : Nat) : compare (m : Int) n = compare m n := by
  simp [compare, compareOfLessAndEq]

theorem compare_neg_neg (m n : Int) : compare (-m) (-n) = (compare m n).swap := by
  rw [Int.compare_swap]
  simp [compare, compareOfLessAndEq, eq_comm]

/-- Finite floats other than zeros. -/
theorem compare_finite {x y : Float} (hx : magnitude x ≠ 0) (hy : magnitude y ≠ 0) :
    (UnpackedFloat.finite (sign x) (mantissa x) (exponent x) (mantissa_pos hx)).compare
        (.finite (sign y) (mantissa y) (exponent y) (mantissa_pos hy)) =
      some (compare (position x) (position y)) := by
  have hmagnitudes := compare_exponent_mantissa x y
  rcases sign_cases x with ⟨hsx, hpx⟩ | ⟨hsx, hpx⟩ <;> rcases sign_cases y with ⟨hsy, hpy⟩ | ⟨hsy, hpy⟩ <;>
    rw [hpx, hpy] <;> simp only [hsx, hsy, UnpackedFloat.compare]
  · rw [hmagnitudes, compare_neg_neg, compare_natCast]
  · exact congrArg some (Int.compare_eq_lt.mpr (by omega)).symm
  · exact congrArg some (Int.compare_eq_gt.mpr (by omega)).symm
  · rw [hmagnitudes, compare_natCast]

/-- **Unpacked floats compare like their places.** -/
theorem compare_unpack {x y : Float} (hx : magnitude x ≤ infinityMagnitude) (hy : magnitude y ≤ infinityMagnitude) :
    x.toModel.unpack.compare y.toModel.unpack = some (compare (position x) (position y)) := by
  have hinfinity : 0 < infinityMagnitude := by decide
  rcases unpack_cases hx with ⟨hx, hux⟩ | ⟨hx, hux⟩ | ⟨hx, hxlt, hux⟩ <;>
    rcases unpack_cases hy with ⟨hy, huy⟩ | ⟨hy, huy⟩ | ⟨hy, hylt, huy⟩ <;> rw [hux, huy]
  case inr.inr.inr.inr => exact compare_finite hx hy
  -- With an infinity or a zero the signs and the kinds alone decide.
  all_goals
    rcases sign_cases x with ⟨hsx, hpx⟩ | ⟨hsx, hpx⟩ <;> rcases sign_cases y with ⟨hsy, hpy⟩ | ⟨hsy, hpy⟩ <;>
      simp only [hsx, hsy]
    all_goals
      first
        | exact congrArg some (Int.compare_eq_lt.mpr (by omega)).symm
        | exact congrArg some (Int.compare_eq_gt.mpr (by omega)).symm
        | exact congrArg some (Int.compare_eq_eq.mpr (by omega)).symm

/-! ## Comparisons -/

theorem compare_notANumber (u : UnpackedFloat) : u.compare .notANumber = none := by
  cases u <;> rfl

/-- Comparing floats with a NaN among them has no outcome, and otherwise that of comparing their places. -/
theorem compare_unpack_eq (x y : Float) :
    x.toModel.unpack.compare y.toModel.unpack =
      if magnitude x ≤ infinityMagnitude ∧ magnitude y ≤ infinityMagnitude then
        some (compare (position x) (position y))
      else none := by
  by_cases hx : magnitude x ≤ infinityMagnitude
  · by_cases hy : magnitude y ≤ infinityMagnitude
    · rw [if_pos ⟨hx, hy⟩, compare_unpack hx hy]
    · rw [if_neg fun h => hy h.2, unpack_eq_notANumber (Nat.lt_of_not_le hy), compare_notANumber]
  · rw [if_neg fun h => hx h.1, unpack_eq_notANumber (Nat.lt_of_not_le hx)]
    rfl

theorem lt_iff (x y : Float) :
    x < y ↔ (magnitude x ≤ infinityMagnitude ∧ magnitude y ≤ infinityMagnitude) ∧ position x < position y := by
  have hmodel : x < y ↔ (x.toModel.unpack.compare y.toModel.unpack == some .lt) = true := decide_eq_true_iff
  rw [hmodel, compare_unpack_eq]
  split
  · rename_i h
    simp [h, Int.compare_eq_lt]
  · rename_i h
    simp [h]

theorem le_iff (x y : Float) :
    x ≤ y ↔ (magnitude x ≤ infinityMagnitude ∧ magnitude y ≤ infinityMagnitude) ∧ position x ≤ position y := by
  have hmodel : x ≤ y ↔ (x.toModel.unpack.compare y.toModel.unpack).any Ordering.isLE = true := decide_eq_true_iff
  rw [hmodel, compare_unpack_eq]
  split
  · rename_i h
    simp [h, Int.isLE_compare]
  · rename_i h
    simp [h]

theorem beq_iff (x y : Float) :
    (x == y) = true ↔
      (magnitude x ≤ infinityMagnitude ∧ magnitude y ≤ infinityMagnitude) ∧ position x = position y := by
  have hmodel : (x == y) = (x.toModel.unpack.compare y.toModel.unpack == some .eq) := rfl
  rw [hmodel, compare_unpack_eq]
  split
  · rename_i h
    simp [h]
  · rename_i h
    simp [h]

end SmallLisp.Binary64
