import SmallLisp.Proofs.Binary64.Bits

/-!
# `SmallLisp.Proofs.Binary64.Equality` — when two floats are equal

Floats are compared by value and not by their bits. The two notions differ in two places: a NaN equals nothing, not
even itself, and the two zeros equal each other. So with one zero chosen for both, equal floats that are no NaN are the
same float.

## Contents
* **Unpacked floats** `compare_eq_iff`: which of them compare as equal.
* **Zeros.** A float is determined by what it unpacks to (`unpack_injective`), so the floats that unpack to a zero are
  `0.0` and `-0.0` (`isZero_iff`).
* **Canonical floats** `Binary64.canonical`, and equality through them, `beq_iff_canonical`.
-/

namespace SmallLisp.Binary64

open Float.Model (Format UnpackedFloat)

/-! ## Unpacked floats -/

/-- Unpacked floats compare as equal if they are the same and no NaN, or zeros of any two signs. -/
theorem compare_eq_iff (a b : UnpackedFloat) :
    a.compare b = some .eq ↔ (a = b ∧ a.isNaN = false) ∨ ∃ s t, a = .zero s ∧ b = .zero t := by
  cases a with
  | notANumber => cases b <;> simp [UnpackedFloat.compare, UnpackedFloat.isNaN]
  | infinity s =>
      cases s <;> cases b with
      | infinity t => cases t <;> simp [UnpackedFloat.compare, UnpackedFloat.isNaN, compare]; try decide
      | _          => simp [UnpackedFloat.compare, UnpackedFloat.isNaN]
  | zero s =>
      cases b with
      | infinity t => cases t <;> simp [UnpackedFloat.compare, UnpackedFloat.isNaN]
      | finite t   => cases t <;> simp [UnpackedFloat.compare, UnpackedFloat.isNaN]
      | _          => simp [UnpackedFloat.compare, UnpackedFloat.isNaN]
  | finite s =>
      cases b with
      | infinity t => cases t <;> simp [UnpackedFloat.compare, UnpackedFloat.isNaN]
      | zero t     => cases s <;> simp [UnpackedFloat.compare, UnpackedFloat.isNaN]
      -- With the same sign the exponents are compared first, and then the mantissas.
      | finite t   => cases s <;> cases t <;> simp [UnpackedFloat.compare, UnpackedFloat.isNaN, and_comm]
      | notANumber => simp [UnpackedFloat.compare, UnpackedFloat.isNaN]

/-! ## Zeros -/

theorem pack_unpack (x : Float) : UnpackedFloat.pack Format.binary64 x.toModel.unpack = x.toModel.toBits.toBitVec :=
  UnpackedFloat.pack_unpack_of_valid x.toModel.valid

/-- A float is determined by what it unpacks to. -/
theorem unpack_injective {x y : Float} (h : x.toModel.unpack = y.toModel.unpack) : x = y := by
  have hbits : x.toModel.toBits.toBitVec = y.toModel.toBits.toBitVec := by rw [← pack_unpack, ← pack_unpack, h]
  rcases x with ⟨⟨⟨_⟩, _⟩⟩
  rcases y with ⟨⟨⟨_⟩, _⟩⟩
  cases hbits
  rfl

theorem unpack_zero : (0.0 : Float).toModel.unpack = .zero .positive := rfl

theorem unpack_neg_zero : (-0.0 : Float).toModel.unpack = .zero .negative := rfl

/-- The floats that unpack to a zero are the two zeros. -/
theorem isZero_iff (x : Float) : (∃ s, x.toModel.unpack = .zero s) ↔ x = 0.0 ∨ x = -0.0 := by
  constructor
  · rintro ⟨s, hs⟩
    cases s with
    | positive => exact Or.inl (unpack_injective (hs.trans unpack_zero.symm))
    | negative => exact Or.inr (unpack_injective (hs.trans unpack_neg_zero.symm))
  · rintro (rfl | rfl)
    · exact ⟨_, unpack_zero⟩
    · exact ⟨_, unpack_neg_zero⟩

/-! ## Canonical floats -/

/-- The float with `0.0` in place of `-0.0`. -/
def canonical (x : Float) : Float := if x = -0.0 then 0.0 else x

theorem canonical_eq_iff {x y : Float} :
    canonical x = canonical y ↔ x = y ∨ ((x = 0.0 ∨ x = -0.0) ∧ (y = 0.0 ∨ y = -0.0)) := by
  unfold canonical
  by_cases hx : x = -0.0 <;> by_cases hy : y = -0.0
  · simp [hx, hy]
  · rw [if_pos hx, if_neg hy, hx]
    have hne : ¬ (-0.0 : Float) = y := fun h => hy h.symm
    simp only [hne, hy, or_true, or_false, true_and, false_or]
    exact eq_comm
  · rw [if_neg hx, if_pos hy, hy]
    simp only [hx, or_true, or_false, and_true, false_or]
  · rw [if_neg hx, if_neg hy]
    simp only [hx, hy, or_false]
    exact ⟨Or.inl, fun h => h.elim id fun h => h.1.trans h.2.symm⟩

theorem isNaN_canonical (x : Float) : (canonical x).isNaN = x.isNaN := by
  by_cases h : x = -0.0
  · subst h
    rfl
  · rw [canonical, if_neg h]

/-- **Floats are equal** if their canonical floats are the same, except that a NaN equals nothing. -/
theorem beq_iff_canonical (x y : Float) : (x == y) = true ↔ canonical x = canonical y ∧ x.isNaN = false := by
  have hmodel : (x == y) = (x.toModel.unpack.compare y.toModel.unpack == some .eq) := rfl
  rw [hmodel, beq_iff_eq, compare_eq_iff, canonical_eq_iff, ← isZero_iff, ← isZero_iff]
  constructor
  · rintro (⟨h, hnan⟩ | ⟨s, t, hx, hy⟩)
    · exact ⟨Or.inl (unpack_injective h), hnan⟩
    · refine ⟨Or.inr ⟨⟨s, hx⟩, ⟨t, hy⟩⟩, ?_⟩
      show x.toModel.unpack.isNaN = false
      rw [hx]
      rfl
  · rintro ⟨rfl | ⟨⟨s, hx⟩, ⟨t, hy⟩⟩, hnan⟩
    · exact Or.inl ⟨rfl, hnan⟩
    · exact Or.inr ⟨s, t, hx, hy⟩

end SmallLisp.Binary64
