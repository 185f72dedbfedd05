import SmallLisp.Proofs.Binary64.Nearest
import SmallLisp.Proofs.Binary64.Order

/-!
# `SmallLisp.Proofs.Binary64.Monotone` — rounding keeps the order

Of two quotients the greater one never gets the smaller float. Within one unit this is rounding of quotients. Where the
units differ it is the bit patterns that keep the order: the numbers of units of the smaller quotient end where those of
the greater one start. So integers keep their order when they are converted to floats, but two of them may get the same
float.

## Contents
* **Whole numbers** `divRound_spec`, `divRound_mono`, and the bounds `divRound_le` and `le_divRound`.
* **Units** `unitExponent_mono`, and how many of them a quotient rounds to.
* **Floats** `nearestMagnitude_mono`, and integers, `position_ofInteger_mono`.
-/

namespace SmallLisp.Binary64

/-! ## Whole numbers -/

/-- A quotient is rounded to a nearest natural number, and between two of them to the even one. -/
theorem divRound_spec (num : Nat) {den : Nat} (hden : 0 < den) :
    2 * (divRound num den * den) ≤ 2 * num + den ∧ 2 * num ≤ 2 * (divRound num den * den) + den ∧
      (2 * (divRound num den * den) = 2 * num + den ∨ 2 * num = 2 * (divRound num den * den) + den →
        divRound num den % 2 = 0) := by
  have hnum := Nat.div_add_mod' num den
  have hmod := Nat.mod_lt num hden
  have hup : (num / den + 1) * den = num / den * den + den := Nat.succ_mul _ _
  rw [divRound]
  by_cases hlow : 2 * (num % den) < den
  · simp only [if_pos hlow]
    omega
  · by_cases hhigh : den < 2 * (num % den)
    · simp only [if_neg hlow, if_pos hhigh]
      omega
    · simp only [if_neg hlow, if_neg hhigh]
      rcases Nat.mod_two_eq_zero_or_one (num / den) with heven | hodd
      · rw [heven, Nat.add_zero]
        omega
      · rw [hodd]
        omega

variable {num den num' den' : Nat}

theorem sub_half_le_div (num : Nat) (hden : 0 < den) : (divRound num den : ℚ) - 1 / 2 ≤ num / den := by
  have hdenQ : (0 : ℚ) < den := by exact_mod_cast hden
  have h : (2 * (divRound num den * den) : ℚ) ≤ 2 * num + den := by exact_mod_cast (divRound_spec num hden).1
  rw [le_div_iff₀ hdenQ]
  linarith

theorem div_le_add_half (num : Nat) (hden : 0 < den) : (num : ℚ) / den ≤ divRound num den + 1 / 2 := by
  have hdenQ : (0 : ℚ) < den := by exact_mod_cast hden
  have h : (2 * num : ℚ) ≤ 2 * (divRound num den * den) + den := by exact_mod_cast (divRound_spec num hden).2.1
  rw [div_le_iff₀ hdenQ]
  linarith

/-- Half way between two natural numbers it is the even one that is chosen. -/
theorem divRound_even (hden : 0 < den)
    (h : (num : ℚ) / den = divRound num den - 1 / 2 ∨ (num : ℚ) / den = divRound num den + 1 / 2) :
    divRound num den % 2 = 0 := by
  have hdenQ : (den : ℚ) ≠ 0 := by exact_mod_cast Nat.ne_of_gt hden
  apply (divRound_spec num hden).2.2
  rw [div_eq_iff hdenQ, div_eq_iff hdenQ] at h
  rcases h with h | h
  · left
    have hQ : (2 * (divRound num den * den) : ℚ) = 2 * num + den := by linarith
    exact_mod_cast hQ
  · right
    have hQ : (2 * num : ℚ) = 2 * (divRound num den * den) + den := by linarith
    exact_mod_cast hQ

theorem divRound_mono (hden : 0 < den) (hden' : 0 < den') (h : (num : ℚ) / den ≤ num' / den') :
    divRound num den ≤ divRound num' den' := by
  by_contra hlt
  have hnext : (divRound num' den' : ℚ) + 1 ≤ divRound num den := by exact_mod_cast Nat.lt_of_not_le hlt
  have hlow := sub_half_le_div num hden
  have hhigh := div_le_add_half num' hden'
  -- There is no room between the two numbers, so both quotients lie half way from the one to the other.
  have heven : divRound num den % 2 = 0 := divRound_even hden (Or.inl (by linarith))
  have heven' : divRound num' den' % 2 = 0 := divRound_even hden' (Or.inr (by linarith))
  have hroom : (divRound num den : ℚ) = divRound num' den' + 1 := by linarith
  have hsucc : divRound num den = divRound num' den' + 1 := by exact_mod_cast hroom
  omega

theorem divRound_le {n : Nat} (hden : 0 < den) (h : (num : ℚ) / den ≤ n) : divRound num den ≤ n := by
  have hlow := sub_half_le_div num hden
  have hlt : (divRound num den : ℚ) < n + 1 := by linarith
  exact Nat.lt_succ_iff.mp (by exact_mod_cast hlt)

theorem le_divRound {n : Nat} (hden : 0 < den) (h : (n : ℚ) ≤ num / den) : n ≤ divRound num den := by
  have hhigh := div_le_add_half num hden
  have hlt : (n : ℚ) < divRound num den + 1 := by linarith
  exact Nat.lt_succ_iff.mp (by exact_mod_cast hlt)

/-! ## Units -/

theorem floorLog2_mono (hnum : 0 < num) (hnum' : 0 < num') (hden : 0 < den) (hden' : 0 < den')
    (h : (num : ℚ) / den ≤ num' / den') : floorLog2 num den ≤ floorLog2 num' den' := by
  obtain ⟨hlow, -⟩ := floorLog2_spec hnum hden
  obtain ⟨-, hhigh⟩ := floorLog2_spec hnum' hden'
  exact Int.lt_add_one_iff.mp (le_of_zpow_le_of_lt (hlow.trans h) hhigh)

theorem le_unitExponent (num den : Nat) : -1074 ≤ unitExponent num den := Int.le_max_left _ _

theorem unitExponent_mono (hnum : 0 < num) (hnum' : 0 < num') (hden : 0 < den) (hden' : 0 < den')
    (h : (num : ℚ) / den ≤ num' / den') : unitExponent num den ≤ unitExponent num' den' := by
  have hlog := floorLog2_mono hnum hnum' hden hden' h
  rw [unitExponent, unitExponent]
  omega

/-- A quotient is below `2 ^ 53` of its units. -/
theorem div_le_units (hnum : 0 < num) (hden : 0 < den) :
    (num : ℚ) / den / 2 ^ unitExponent num den ≤ (2 ^ 53 : Nat) := by
  obtain ⟨-, hhigh⟩ := floorLog2_spec hnum hden
  rw [div_le_iff₀ (by positivity)]
  calc (num : ℚ) / den ≤ 2 ^ (floorLog2 num den + 1) := le_of_lt hhigh
    _ ≤ 2 ^ ((53 : Int) + unitExponent num den) := by
        apply zpow_le_zpow_right₀ (by norm_num)
        rw [unitExponent]
        omega
    _ = (2 ^ 53 : Nat) * 2 ^ unitExponent num den := by
        rw [zpow_add₀ (by norm_num)]
        norm_num

/-- With a unit other than the smallest one a quotient is at least `2 ^ 52` units. -/
theorem units_le_div (hnum : 0 < num) (hden : 0 < den) (h : -1074 < unitExponent num den) :
    ((2 ^ 52 : Nat) : ℚ) ≤ num / den / 2 ^ unitExponent num den := by
  obtain ⟨hlow, -⟩ := floorLog2_spec hnum hden
  have hunit : floorLog2 num den = 52 + unitExponent num den := by
    rw [unitExponent] at h ⊢
    omega
  rw [le_div_iff₀ (by positivity)]
  calc ((2 ^ 52 : Nat) : ℚ) * 2 ^ unitExponent num den = 2 ^ floorLog2 num den := by
        rw [hunit, zpow_add₀ (by norm_num)]
        norm_num
    _ ≤ num / den := hlow

/-! ## Floats -/

/-- **A greater quotient has no smaller float.** -/
theorem nearestMagnitude_mono (hden : 0 < den) (hden' : 0 < den') (h : (num : ℚ) / den ≤ num' / den') :
    nearestMagnitude num den ≤ nearestMagnitude num' den' := by
  by_cases hzero : num = 0
  · rw [nearestMagnitude, if_pos hzero]
    exact Nat.zero_le _
  have hnum : 0 < num := Nat.pos_of_ne_zero hzero
  have hpos : (0 : ℚ) < num / den := by positivity
  have hnum' : 0 < num' := by
    apply Nat.pos_of_ne_zero
    rintro rfl
    rw [Nat.cast_zero, zero_div] at h
    linarith
  have hunits := unitExponent_mono hnum hnum' hden hden' h
  rw [nearestMagnitude, nearestMagnitude, if_neg hzero, if_neg (Nat.ne_of_gt hnum')]
  simp only [Nat.shiftLeft_eq]
  apply min_le_min_left
  rcases Int.le_iff_eq_or_lt.mp hunits with heq | hlt
  · -- With one unit for both it is the numbers of units that are rounded.
    rw [← heq]
    have hround := divRound_mono (inUnits_snd_pos hden num (unitExponent num den))
      (inUnits_snd_pos hden' num' (unitExponent num den)) (by
        rw [inUnits_div num hden, inUnits_div num' hden']
        gcongr)
    omega
  · have hlow := divRound_le (n := 2 ^ 53) (inUnits_snd_pos hden num (unitExponent num den)) (by
      rw [inUnits_div num hden]
      exact div_le_units hnum hden)
    have hhigh := le_divRound (n := 2 ^ 52) (inUnits_snd_pos hden' num' (unitExponent num' den')) (by
      rw [inUnits_div num' hden']
      exact units_le_div hnum' hden' (lt_of_le_of_lt (le_unitExponent num den) hlt))
    have hsmallest := le_unitExponent num den
    omega

/-! ## Integers -/

theorem ofInteger_eq (n : Int64) : ofInteger n = ofMagnitude (decide (n < 0)) (nearestMagnitude n.toInt.natAbs 1) := rfl

theorem magnitude_ofInteger_le (n : Int64) : magnitude (ofInteger n) ≤ infinityMagnitude := by
  have h := nearestMagnitude_le n.toInt.natAbs 1
  rw [ofInteger_eq, magnitude_ofMagnitude _ h]
  exact h

theorem position_ofInteger (n : Int64) :
    position (ofInteger n) = if n < 0 then -(nearestMagnitude n.toInt.natAbs 1 : Int)
      else nearestMagnitude n.toInt.natAbs 1 := by
  have h := nearestMagnitude_le n.toInt.natAbs 1
  rw [position, ofInteger_eq, magnitude_ofMagnitude _ h, isNegative_ofMagnitude _ h]
  simp only [decide_eq_true_eq]

/-- **Integers keep their order** when they are converted to floats. -/
theorem position_ofInteger_mono {m n : Int64} (h : m ≤ n) : position (ofInteger m) ≤ position (ofInteger n) := by
  rw [Int64.le_iff_toInt_le] at h
  have hmono {a b : Nat} (hab : a ≤ b) : nearestMagnitude a 1 ≤ nearestMagnitude b 1 := by
    apply nearestMagnitude_mono Nat.one_pos Nat.one_pos
    gcongr
  rw [position_ofInteger, position_ofInteger]
  simp only [Int64.lt_iff_toInt_lt, Int64.toInt_zero]
  by_cases hm : m.toInt < 0
  · rw [if_pos hm]
    by_cases hn : n.toInt < 0
    · rw [if_pos hn]
      have hround := hmono (a := n.toInt.natAbs) (b := m.toInt.natAbs) (by omega)
      omega
    · rw [if_neg hn]
      omega
  · rw [if_neg hm, if_neg (by omega)]
    have hround := hmono (a := m.toInt.natAbs) (b := n.toInt.natAbs) (by omega)
    omega

end SmallLisp.Binary64
