import SmallLisp.Numeral.Read
import SmallLisp.Numeral.Write
import SmallLisp.Proofs.Binary64.Nearest
import SmallLisp.Proofs.Token.Cut

/-!
# `SmallLisp.Proofs.Numeral.RoundTrip` — written numbers read back

An integer is read back from its digits. A finite float is read back from its digits too, and although these are
cut to as few as possible, nothing is assumed of the search for them: it stops at digits that read back, or at all
the digits that the float has.

## Contents
* **Digits.** `ofDigits_naturalChars`, `ofDigits_fixedDigits`.
* **Integers** `integer?_integerChars`.
* **The fewest decimals** read back (`nearestMagnitude_floatDigits`).
* **Floats** `float?_floatChars`.
-/

namespace SmallLisp.Numeral

open Binary64

/-! ## Digits -/

theorem isDigit_naturalChars (n : Nat) : ∀ c ∈ naturalChars n, c.isDigit = true :=
  fun _ hc => Nat.isDigit_of_mem_toDigits (by decide) (by decide) hc

theorem naturalChars_ne_nil (n : Nat) : naturalChars n ≠ [] := Nat.toDigits_ne_nil

theorem ofDigits_naturalChars (n : Nat) : ofDigits (naturalChars n) = n := Nat.ofDigitChars_ten_toDigits

theorem ofDigits_append (cs ds : List Char) : ofDigits (cs ++ ds) = 10 ^ ds.length * ofDigits cs + ofDigits ds := by
  rw [ofDigits, Nat.ofDigitChars_append, Nat.ofDigitChars_eq_ofDigitChars_zero]
  rfl

theorem ofDigits_digitChar {n : Nat} (h : n < 10) : ofDigits [Nat.digitChar n] = n := by
  rw [ofDigits, Nat.ofDigitChars_cons_digitChar_of_lt_ten h, Nat.ofDigitChars_nil]
  omega

theorem length_fixedDigits (k n : Nat) : (fixedDigits k n).length = k := by
  induction k generalizing n with
  | zero => rfl
  | succ k ih => rw [fixedDigits, List.length_append, ih, List.length_singleton]

theorem isDigit_fixedDigits (k n : Nat) : ∀ c ∈ fixedDigits k n, c.isDigit = true := by
  induction k generalizing n with
  | zero => simp [fixedDigits]
  | succ k ih =>
      intro c hc
      rw [fixedDigits] at hc
      rcases List.mem_append.mp hc with hc | hc
      · exact ih (n / 10) c hc
      · obtain rfl := List.mem_singleton.mp hc
        rw [Nat.isDigit_digitChar]
        exact decide_eq_true (Nat.mod_lt n (by decide))

theorem ofDigits_fixedDigits (k n : Nat) : ofDigits (fixedDigits k n) = n % 10 ^ k := by
  induction k generalizing n with
  | zero =>
      rw [pow_zero, Nat.mod_one]
      rfl
  | succ k ih =>
      have hlast : n % 10 < 10 := Nat.mod_lt n (by decide)
      rw [fixedDigits, ofDigits_append, ih, ofDigits_digitChar hlast, List.length_singleton, pow_one,
        pow_succ, Nat.mul_comm (10 ^ k) 10, Nat.mod_mul]
      omega

/-- A text that begins with a digit has no sign. -/
theorem splitSign_digits {cs : List Char} (hcs : ∀ c, cs.head? = some c → c.isDigit = true) :
    splitSign cs = (false, cs) := by
  unfold splitSign
  split
  · have hminus := hcs '-' rfl
    cases hminus
  · have hplus := hcs '+' rfl
    cases hplus
  · rfl

theorem natural?_naturalChars (n : Nat) : natural? (naturalChars n) = some n := by
  rw [natural?, if_pos, ofDigits_naturalChars]
  exact ⟨naturalChars_ne_nil n, List.all_eq_true.mpr (isDigit_naturalChars n)⟩

/-! ## Integers -/

theorem head?_isDigit {cs : List Char} (h : ∀ c ∈ cs, c.isDigit = true) (c : Char) (hc : cs.head? = some c) :
    c.isDigit = true :=
  h c (List.mem_of_mem_head? hc)

theorem signed?_integerChars (n : Int) : signed? (integerChars n) = some n := by
  by_cases hneg : n < 0
  · rw [integerChars, if_pos hneg, signed?, splitSign]
    simp [natural?_naturalChars, abs_of_neg hneg]
  · rw [integerChars, if_neg hneg, signed?, splitSign_digits (head?_isDigit (isDigit_naturalChars _))]
    simp [natural?_naturalChars, abs_of_nonneg (Int.not_lt.mp hneg)]

/-- **A written integer reads back.** -/
theorem integer?_integerChars (n : Int64) : integer? (integerChars n.toInt) = some n := by
  have hrange : Int64.minValue.toInt ≤ n.toInt ∧ n.toInt ≤ Int64.maxValue.toInt :=
    ⟨n.minValue_le_toInt, n.toInt_le⟩
  rw [integer?, signed?_integerChars, Option.bind_some, Integer.ofInt?, if_pos hrange, Int64.ofInt_toInt]

/-! ## The fewest decimals -/

theorem nearestMagnitude_of_neighbour? {target num den k d : Nat} (h : neighbour? target num den k = some d) :
    nearestMagnitude d (10 ^ k) = target := by
  unfold neighbour? at h
  simp only [Nat.pow_eq] at h
  generalize (if 2 * (num * 10 ^ k % den) < den then num * 10 ^ k / den else num * 10 ^ k / den + 1) = near at h
  generalize (if 2 * (num * 10 ^ k % den) < den then num * 10 ^ k / den + 1 else num * 10 ^ k / den) = far at h
  by_cases hnear : nearestMagnitude near (10 ^ k) = target
  · rw [if_pos hnear] at h
    cases h
    exact hnear
  · rw [if_neg hnear] at h
    by_cases hfar : nearestMagnitude far (10 ^ k) = target
    · rw [if_pos hfar] at h
      cases h
      exact hfar
    · rw [if_neg hfar] at h
      cases h

/-- The search ends at decimals that read back, or at the last decimal that it may try. -/
theorem fewestDecimals_cases (target num den steps k : Nat) :
    nearestMagnitude (fewestDecimals target num den steps k).1
      (10 ^ (fewestDecimals target num den steps k).2) = target ∨
    fewestDecimals target num den steps k = (num * 10 ^ (k + steps) / den, k + steps) := by
  induction steps generalizing k with
  | zero => exact Or.inr rfl
  | succ steps ih =>
      unfold fewestDecimals
      split
      · rename_i d hd
        exact Or.inl (nearestMagnitude_of_neighbour? hd)
      · rw [Nat.add_comm steps 1, ← Nat.add_assoc]
        exact ih (k + 1)

/-- A float is nearest to all its digits. -/
theorem nearestMagnitude_of_digits {x : Float} (hfinite : isFinite x = true) {d k : Nat}
    (h : d * 2 ^ (-exponent x).toNat = mantissa x * 2 ^ (exponent x).toNat * 10 ^ k) :
    nearestMagnitude d (10 ^ k) = magnitude x := by
  have hQ : (d : ℚ) * 2 ^ (-exponent x).toNat = mantissa x * 2 ^ (exponent x).toNat * 10 ^ k := by
    exact_mod_cast h
  have hten : (10 : ℚ) ^ k ≠ 0 := pow_ne_zero k (by norm_num)
  have htwo : (2 : ℚ) ^ (-exponent x).toNat ≠ 0 := pow_ne_zero _ (by norm_num)
  apply nearestMagnitude_of_value hfinite (Nat.pow_pos (by decide))
  rw [zpow_eq_div, Nat.cast_pow, Nat.cast_ofNat, mul_div_assoc', div_eq_div_iff hten htwo]
  exact hQ

theorem nearestMagnitude_floatDigits {x : Float} (hfinite : isFinite x = true) :
    nearestMagnitude (floatDigits x).1 (10 ^ (floatDigits x).2) = magnitude x := by
  rw [floatDigits]
  simp only [Nat.shiftLeft_eq, Nat.one_mul]
  by_cases hwhole : mantissa x * 2 ^ (exponent x).toNat % 2 ^ (-exponent x).toNat = 0
  · -- A whole number is written with a zero after the point.
    rw [if_pos hwhole]
    apply nearestMagnitude_of_digits hfinite
    rw [Nat.mul_right_comm, Nat.div_mul_cancel (Nat.dvd_of_mod_eq_zero hwhole), pow_one]
  · -- Not a whole number, so the unit is a fraction, and `k` decimals are enough for the unit `2 ^ (-k)`.
    rw [if_neg hwhole]
    have hfraction : 0 < (-exponent x).toNat := by
      apply Nat.pos_of_ne_zero
      intro hzero
      rw [hzero, pow_zero, Nat.mod_one] at hwhole
      exact hwhole rfl
    rcases fewestDecimals_cases (magnitude x) (mantissa x) (2 ^ (-exponent x).toNat)
      ((-exponent x).toNat - 1) 1 with hfound | hend
    · exact hfound
    · have hsteps : 1 + ((-exponent x).toNat - 1) = (-exponent x).toNat := by omega
      have hpositive : (exponent x).toNat = 0 := by omega
      have hdvd : 2 ^ (-exponent x).toNat ∣ mantissa x * 10 ^ (-exponent x).toNat :=
        Dvd.dvd.mul_left (pow_dvd_pow_of_dvd (by decide) _) _
      rw [hend, hsteps]
      apply nearestMagnitude_of_digits hfinite
      rw [Nat.div_mul_cancel hdvd, hpositive, pow_zero, Nat.mul_one]

/-! ## Floats -/

theorem digitRun_append {cs rest : List Char} (hcs : ∀ c ∈ cs, c.isDigit = true)
    (hrest : ∀ c, rest.head? = some c → c.isDigit = false) : digitRun (cs ++ rest) = (cs, rest) := by
  obtain ⟨htake, hdrop⟩ := takeWhile_append_of_head? hcs hrest
  rw [digitRun, htake, hdrop]

theorem head?_pointed_isDigit (d k : Nat) (c : Char) (hc : (pointed d k).head? = some c) : c.isDigit = true := by
  rw [pointed, List.head?_append_of_ne_nil _ (naturalChars_ne_nil _)] at hc
  exact head?_isDigit (isDigit_naturalChars _) c hc

theorem splitSign_pointed (negative : Bool) (d k : Nat) :
    splitSign (if negative then '-' :: pointed d k else pointed d k) = (negative, pointed d k) := by
  cases negative with
  | true => rfl
  | false => exact splitSign_digits (head?_pointed_isDigit d k)

/-- Digits with a point are the decimal that they are meant to be. -/
theorem ofChars?_pointed (negative : Bool) (d k : Nat) :
    Decimal.ofChars? (if negative then '-' :: pointed d k else pointed d k) =
      some ⟨negative, d, (naturalChars (d / 10 ^ k)).length + k, -(k : Int)⟩ := by
  have hwhole : digitRun (pointed d k) = (naturalChars (d / 10 ^ k), '.' :: fixedDigits k d) := by
    apply digitRun_append (isDigit_naturalChars _)
    rintro c hc
    cases hc
    rfl
  -- After the point there are digits only, to the end of the text.
  have hfraction : digitRun (fixedDigits k d) = (fixedDigits k d, []) := by
    have hend : ∀ c : Char, ([] : List Char).head? = some c → c.isDigit = false := by
      intro c hc
      cases hc
    have hrun := digitRun_append (isDigit_fixedDigits k d) hend
    rwa [List.append_nil] at hrun
  have hdigits : ofDigits (naturalChars (d / 10 ^ k) ++ fixedDigits k d) = d := by
    rw [ofDigits_append, ofDigits_naturalChars, ofDigits_fixedDigits, length_fixedDigits]
    exact Nat.div_add_mod d (10 ^ k)
  have hne : naturalChars (d / 10 ^ k) ++ fixedDigits k d ≠ [] := by
    simp [naturalChars_ne_nil]
  rw [Decimal.ofChars?, splitSign_pointed]
  simp [hwhole, hfraction, hne, exponentPart?, hdigits, length_fixedDigits]

/-- Digits with a point stand for the nearest float: the shortcuts for very great and very small decimals are not
for them. -/
theorem toFloat_pointed (negative : Bool) (d places k : Nat) (hplaces : k ≤ places) :
    (Decimal.mk negative d places (-(k : Int))).toFloat = nearest negative d (10 ^ k) := by
  rw [Decimal.toFloat]
  by_cases hzero : d = 0
  · rw [if_pos hzero, nearest, hzero, nearestMagnitude, if_pos rfl]
  · have hgreat : ¬ (308 : Int) < -(k : Int) := by omega
    have hsmall : ¬ (places : Int) + -(k : Int) ≤ -324 := by omega
    have hup : (-(k : Int)).toNat = 0 := by omega
    have hdown : (- -(k : Int)).toNat = k := by omega
    rw [if_neg hzero, if_neg hgreat, if_neg hsmall, hup, hdown, Nat.pow_eq, Nat.pow_eq, pow_zero, Nat.mul_one]

theorem floatChars_eq {x : Float} (hfinite : isFinite x = true) :
    floatChars x = if isNegative x then '-' :: pointed (floatDigits x).1 (floatDigits x).2
      else pointed (floatDigits x).1 (floatDigits x).2 := by
  have hlt : magnitude x < infinityMagnitude := of_decide_eq_true hfinite
  rw [floatChars, isNaN_eq_false (Nat.le_of_lt hlt), unsignedChars, if_pos hfinite]
  rfl

/-- **A written float reads back.** -/
theorem float?_floatChars {x : Float} (hfinite : isFinite x = true) : float? (floatChars x) = some x := by
  rw [float?, floatChars_eq hfinite, ofChars?_pointed, Option.map_some, toFloat_pointed _ _ _ _ (Nat.le_add_left _ _),
    nearest, nearestMagnitude_floatDigits hfinite, ofMagnitude_magnitude]

/-- No text spells a NaN. -/
theorem magnitude_le_of_float? {cs : List Char} {x : Float} (h : float? cs = some x) :
    magnitude x ≤ infinityMagnitude := by
  obtain ⟨d, _, rfl⟩ := Option.map_eq_some_iff.mp h
  have hzero : (0 : Nat) ≤ infinityMagnitude := Nat.zero_le _
  unfold Decimal.toFloat
  split
  · rw [magnitude_ofMagnitude _ hzero]
    exact hzero
  · split
    · rw [magnitude_ofMagnitude _ (Nat.le_refl _)]
    · split
      · rw [magnitude_ofMagnitude _ hzero]
        exact hzero
      · rw [nearest, magnitude_ofMagnitude _ (nearestMagnitude_le _ _)]
        exact nearestMagnitude_le _ _

end SmallLisp.Numeral
