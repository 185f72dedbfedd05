import SmallLisp.Proofs.Binary64.Bits

/-!
# `SmallLisp.Proofs.Binary64.Nearest` — a float is the nearest float to its own value

Rounding works with natural numbers and shifts. Here each of its steps is read as what it means for the quotient,
a rational number, and a quotient that is a float already is found to be left alone.

## Contents
* **Units** `inUnits` divides by a power of two (`inUnits_div`).
* **Binary logarithm.** `floorLog2` is one (`floorLog2_spec`).
* **Rounding** of what needs none: `divRound_mul`, `nearestMagnitude_eq`.
* **Floats.** `nearestMagnitude_of_value`.
-/

namespace SmallLisp.Binary64

/-! ## Units -/

theorem zpow_eq_div (e : Int) : (2 : ℚ) ^ e = 2 ^ e.toNat / 2 ^ (-e).toNat := by
  cases e with
  | ofNat n =>
      have hneg : (-(Int.ofNat n)).toNat = 0 := by simp
      rw [hneg, pow_zero, div_one]
      exact zpow_natCast 2 n
  | negSucc n =>
      have hneg : (-(Int.negSucc n)).toNat = n + 1 := by simp [Int.neg_negSucc]
      rw [hneg, zpow_negSucc, Int.toNat_negSucc, pow_zero, one_div]

theorem inUnits_eq (num den : Nat) (e : Int) :
    inUnits num den e = (num * 2 ^ (-e).toNat, den * 2 ^ e.toNat) := by
  rw [inUnits, Nat.shiftLeft_eq, Nat.shiftLeft_eq]

theorem inUnits_snd_pos {den : Nat} (hden : 0 < den) (num : Nat) (e : Int) : 0 < (inUnits num den e).2 := by
  rw [inUnits_eq]
  exact Nat.mul_pos hden (Nat.two_pow_pos _)

theorem inUnits_div (num : Nat) {den : Nat} (hden : 0 < den) (e : Int) :
    ((inUnits num den e).1 : ℚ) / (inUnits num den e).2 = num / den / 2 ^ e := by
  have hden' : (den : ℚ) ≠ 0 := by exact_mod_cast Nat.ne_of_gt hden
  rw [zpow_eq_div, inUnits_eq]
  push_cast
  field_simp

/-! ## Binary logarithm -/

/-- The exponent below a positive number is determined by it. -/
theorem le_of_zpow_le_of_lt {q : ℚ} {l k : Int} (hl : (2 : ℚ) ^ l ≤ q) (hk : q < 2 ^ k) : l < k :=
  (zpow_lt_zpow_iff_right₀ (by norm_num)).mp (lt_of_le_of_lt hl hk)

theorem log2_spec {n : Nat} (hn : 0 < n) :
    (2 : ℚ) ^ (n.log2 : Int) ≤ n ∧ (n : ℚ) < 2 ^ ((n.log2 : Int) + 1) := by
  constructor
  · rw [zpow_natCast]
    exact_mod_cast Nat.log2_self_le (Nat.ne_of_gt hn)
  · rw [← Nat.cast_succ, zpow_natCast]
    exact_mod_cast Nat.lt_log2_self

/-- The difference of two logarithms is the logarithm of the quotient, or one too great. -/
theorem log2_sub_spec {num den : Nat} (hnum : 0 < num) (hden : 0 < den) :
    (2 : ℚ) ^ ((num.log2 : Int) - den.log2 - 1) ≤ num / den ∧
      (num : ℚ) / den < 2 ^ ((num.log2 : Int) - den.log2 + 1) := by
  have hdenQ : (0 : ℚ) < den := by exact_mod_cast hden
  obtain ⟨hnumLow, hnumHigh⟩ := log2_spec hnum
  obtain ⟨hdenLow, hdenHigh⟩ := log2_spec hden
  constructor
  · rw [le_div_iff₀ hdenQ]
    calc (2 : ℚ) ^ ((num.log2 : Int) - den.log2 - 1) * den
        ≤ 2 ^ ((num.log2 : Int) - den.log2 - 1) * 2 ^ ((den.log2 : Int) + 1) := by gcongr
      _ = 2 ^ (num.log2 : Int) := by
          rw [← zpow_add₀ (by norm_num)]
          congr 1
          omega
      _ ≤ num := hnumLow
  · rw [div_lt_iff₀ hdenQ]
    calc (num : ℚ) < 2 ^ ((num.log2 : Int) + 1) := hnumHigh
      _ = 2 ^ ((num.log2 : Int) - den.log2 + 1) * 2 ^ (den.log2 : Int) := by
          rw [← zpow_add₀ (by norm_num)]
          congr 1
          omega
      _ ≤ 2 ^ ((num.log2 : Int) - den.log2 + 1) * den := by gcongr

theorem floorLog2_spec {num den : Nat} (hnum : 0 < num) (hden : 0 < den) :
    (2 : ℚ) ^ floorLog2 num den ≤ num / den ∧ (num : ℚ) / den < 2 ^ (floorLog2 num den + 1) := by
  obtain ⟨hlow, hhigh⟩ := log2_sub_spec hnum hden
  have hguess := inUnits_div num hden ((num.log2 : Int) - den.log2)
  have hpos : (0 : ℚ) < (inUnits num den ((num.log2 : Int) - den.log2)).2 := by
    exact_mod_cast inUnits_snd_pos hden num _
  rw [floorLog2]
  by_cases hle : (inUnits num den ((num.log2 : Int) - den.log2)).2 ≤
      (inUnits num den ((num.log2 : Int) - den.log2)).1
  · rw [if_pos hle]
    refine ⟨?_, hhigh⟩
    have hone : (1 : ℚ) ≤ num / den / 2 ^ ((num.log2 : Int) - den.log2) := by
      rw [← hguess, le_div_iff₀ hpos, one_mul]
      exact_mod_cast hle
    rwa [le_div_iff₀ (by positivity), one_mul] at hone
  · rw [if_neg hle]
    refine ⟨hlow, ?_⟩
    have hone : (num : ℚ) / den / 2 ^ ((num.log2 : Int) - den.log2) < 1 := by
      rw [← hguess, div_lt_iff₀ hpos, one_mul]
      exact_mod_cast Nat.lt_of_not_le hle
    rwa [div_lt_iff₀ (by positivity), one_mul, ← sub_add_cancel ((num.log2 : Int) - den.log2) 1] at hone

/-! ## Rounding -/

theorem nearestMagnitude_le (num den : Nat) : nearestMagnitude num den ≤ infinityMagnitude := by
  unfold nearestMagnitude
  split
  · exact Nat.zero_le _
  · exact Nat.min_le_left _ _

theorem divRound_mul (n : Nat) {den : Nat} (hden : 0 < den) : divRound (n * den) den = n := by
  rw [divRound]
  simp [Nat.mul_mod_left, Nat.mul_div_cancel n hden, hden]

/-- The unit of a number that is `m` units of `2 ^ e`, where `m` has fifty-three bits, or fewer with the smallest
unit. -/
theorem unitExponent_eq {num den m : Nat} {e : Int} (hden : 0 < den) (hvalue : (num : ℚ) / den = m * 2 ^ e)
    (he : -1074 ≤ e) (hpos : 0 < m) (hm : m < 2 ^ 53) (hnormal : 2 ^ 52 ≤ m ∨ e = -1074) :
    unitExponent num den = e := by
  have hmQ : (0 : ℚ) < m := by exact_mod_cast hpos
  have hnum : 0 < num := by
    apply Nat.pos_of_ne_zero
    rintro rfl
    have hright : (0 : ℚ) < m * 2 ^ e := mul_pos hmQ (by positivity)
    rw [← hvalue] at hright
    simp at hright
  obtain ⟨hlow, hhigh⟩ := floorLog2_spec hnum hden
  rw [hvalue] at hlow hhigh
  have hupper : floorLog2 num den < 53 + e := by
    apply le_of_zpow_le_of_lt hlow
    rw [zpow_add₀ (by norm_num)]
    gcongr
    exact_mod_cast hm
  have hlower : 2 ^ 52 ≤ m → 52 + e < floorLog2 num den + 1 := by
    intro hm
    apply le_of_zpow_le_of_lt _ hhigh
    rw [zpow_add₀ (by norm_num)]
    gcongr
    exact_mod_cast hm
  rw [unitExponent]
  omega

/-- The magnitude of a number that is `m` units of `2 ^ e`. -/
theorem nearestMagnitude_eq {num den m : Nat} {e : Int} (hden : 0 < den) (hvalue : (num : ℚ) / den = m * 2 ^ e)
    (he : -1074 ≤ e) (hm : m < 2 ^ 53) (hnormal : 2 ^ 52 ≤ m ∨ e = -1074)
    (hfinite : (e + 1074).toNat * 2 ^ 52 + m ≤ infinityMagnitude) :
    nearestMagnitude num den = (e + 1074).toNat * 2 ^ 52 + m := by
  by_cases hzero : m = 0
  · have hnum : num = 0 := by
      have hden' : (den : ℚ) ≠ 0 := by exact_mod_cast Nat.ne_of_gt hden
      rw [hzero, Nat.cast_zero, zero_mul, div_eq_zero_iff] at hvalue
      exact_mod_cast hvalue.resolve_right hden'
    have hsmallest : e = -1074 := by omega
    rw [nearestMagnitude, if_pos hnum, hzero, hsmallest]
    rfl
  · have hunit := unitExponent_eq hden hvalue he (Nat.pos_of_ne_zero hzero) hm hnormal
    have hnum : num ≠ 0 := by
      rintro rfl
      rw [Nat.cast_zero, zero_div, eq_comm, mul_eq_zero] at hvalue
      rcases hvalue with h | h
      · exact hzero (by exact_mod_cast h)
      · exact absurd h (by positivity)
    have hscaled : (inUnits num den e).1 = m * (inUnits num den e).2 := by
      have hdiv := inUnits_div num hden e
      have hpos : (0 : ℚ) < (inUnits num den e).2 := by exact_mod_cast inUnits_snd_pos hden num e
      rw [hvalue, mul_div_assoc, div_self (by positivity), mul_one, div_eq_iff hpos.ne'] at hdiv
      exact_mod_cast hdiv
    rw [nearestMagnitude, if_neg hnum]
    simp only [hunit]
    rw [hscaled, divRound_mul m (inUnits_snd_pos hden num e), Nat.shiftLeft_eq]
    exact Nat.min_eq_right hfinite

/-! ## Floats -/

/-- The magnitude of a float, from its mantissa and its exponent. -/
theorem magnitude_eq (x : Float) : magnitude x = (exponent x + 1074).toNat * 2 ^ 52 + mantissa x := by
  rw [exponent_eq, mantissa_eq]
  split <;> omega

/-- **A float is nearest to its own value.** -/
theorem nearestMagnitude_of_value {x : Float} (hfinite : isFinite x = true) {num den : Nat} (hden : 0 < den)
    (hvalue : (num : ℚ) / den = mantissa x * 2 ^ exponent x) : nearestMagnitude num den = magnitude x := by
  have hmagnitude := magnitude_eq x
  have hlt : magnitude x < infinityMagnitude := of_decide_eq_true hfinite
  rw [hmagnitude]
  apply nearestMagnitude_eq hden hvalue
  · rw [exponent_eq]
    split <;> omega
  · rw [mantissa_eq]
    split <;> omega
  · rw [mantissa_eq, exponent_eq]
    split <;> omega
  · omega

end SmallLisp.Binary64
