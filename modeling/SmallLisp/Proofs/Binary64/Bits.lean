import Mathlib
import SmallLisp.Binary64

/-!
# `SmallLisp.Proofs.Binary64.Bits` — floats and their bit patterns

In the core library a float is its bit pattern in a canonical form, and it is made from a pattern by taking this
apart and putting it together again. So nothing but the bits of a NaN can get lost, and a float may be replaced by
its sign and its magnitude.

## Contents
* **Powers of two.** The definitions shift bits; `magnitude_eq_mod` and others multiply and divide.
* **Bits** are kept up to infinity (`toBits_ofBits`).
* **Magnitudes** `magnitude_ofMagnitude`, `isNegative_ofMagnitude`, `ofMagnitude_magnitude`.
* **Unpacked floats.** `unpack_cases` tells what a float unpacks to, from its sign and its magnitude.
* **Kinds.** A NaN lies above infinity, a finite float below (`isNaN_eq_false`, `isInf_eq_true`).
-/

namespace SmallLisp.Binary64

open Float.Model (Format UnpackedFloat)
open Float.Model.UnpackedFloat (Sign unpackExponent unpackMantissa unpackSign)

/-! ## Powers of two -/

theorem isNegative_eq (x : Float) : isNegative x = decide (2 ^ 63 ≤ x.toBits.toNat) := rfl

theorem magnitude_eq_mod (x : Float) : magnitude x = x.toBits.toNat % 2 ^ 63 := rfl

theorem magnitude_lt (x : Float) : magnitude x < 2 ^ 63 := by
  rw [magnitude_eq_mod]
  exact Nat.mod_lt _ (Nat.two_pow_pos 63)

theorem infinityMagnitude_eq : infinityMagnitude = 2047 * 2 ^ 52 := rfl

theorem mantissa_eq (x : Float) :
    mantissa x = if magnitude x < 2 ^ 52 then magnitude x else magnitude x % 2 ^ 52 + 2 ^ 52 := rfl

theorem exponent_eq (x : Float) :
    exponent x = if magnitude x < 2 ^ 52 then -1074 else ((magnitude x / 2 ^ 52 : Nat) : Int) - 1075 := by
  rw [exponent, Nat.shiftRight_eq_div_pow]
  rfl

theorem ofMagnitude_eq (negative : Bool) (m : Nat) :
    ofMagnitude negative m = Float.ofBits (UInt64.ofNat (if negative then 2 ^ 63 + m else m)) := rfl

/-! ## Bits -/

theorem toNat_unpackMantissa (b : BitVec Format.binary64.numBits) :
    (unpackMantissa b).toNat = b.toNat % 2 ^ 52 := by
  simp [unpackMantissa]

theorem toNat_unpackExponent (b : BitVec Format.binary64.numBits) :
    (unpackExponent b).toNat = b.toNat / 2 ^ 52 % 2 ^ 11 := by
  simp [unpackExponent, Nat.shiftRight_eq_div_pow]

theorem toNat_unpackSign (b : BitVec Format.binary64.numBits) : (unpackSign b).toNat = b.toNat / 2 ^ 63 % 2 := by
  simp [unpackSign, Nat.shiftRight_eq_div_pow]

/-- Up to infinity a pattern with all bits set in its exponent has none set below. -/
theorem unpackMantissa_eq_zero {b : BitVec Format.binary64.numBits} (h : b.toNat % 2 ^ 63 ≤ infinityMagnitude)
    (hones : unpackExponent b = -1#_) : unpackMantissa b = 0#_ := by
  have he := toNat_unpackExponent b
  have hm := toNat_unpackMantissa b
  rw [hones] at he
  replace he : 2047 = b.toNat / 2 ^ 52 % 2 ^ 11 := he
  rw [infinityMagnitude_eq] at h
  have hzero : (unpackMantissa b).toNat = 0 := by omega
  exact BitVec.eq_of_toNat_eq hzero

theorem valid_of_le {b : UInt64} (h : b.toNat % 2 ^ 63 ≤ infinityMagnitude) : Format.binary64.Valid b.toBitVec :=
  ⟨fun hones hman => absurd (unpackMantissa_eq_zero h hones) hman⟩

/-- Bits up to infinity are kept. -/
theorem toBits_ofBits {b : UInt64} (h : b.toNat % 2 ^ 63 ≤ infinityMagnitude) : (Float.ofBits b).toBits = b := by
  have hpack := UnpackedFloat.pack_unpack_of_valid (valid_of_le h)
  simp only [Float.ofBits, Float.toBits, Float.Model.ofBits, Float.Model.pack, hpack]

/-! ## Magnitudes -/

theorem toNat_ofMagnitude (negative : Bool) {m : Nat} (h : m ≤ infinityMagnitude) :
    (ofMagnitude negative m).toBits.toNat = if negative then 2 ^ 63 + m else m := by
  have hinfinity : infinityMagnitude < 2 ^ 63 := by decide
  have hsize : (if negative then 2 ^ 63 + m else m) < 2 ^ 64 := by
    split <;> omega
  have hmod : (if negative then 2 ^ 63 + m else m) % 2 ^ 63 = m := by
    split <;> omega
  have hword : (UInt64.ofNat (if negative then 2 ^ 63 + m else m)).toNat = if negative then 2 ^ 63 + m else m :=
    UInt64.toNat_ofNat_of_lt hsize
  rw [ofMagnitude_eq, toBits_ofBits, hword]
  rw [hword, hmod]
  exact h

theorem magnitude_ofMagnitude (negative : Bool) {m : Nat} (h : m ≤ infinityMagnitude) :
    magnitude (ofMagnitude negative m) = m := by
  have hinfinity : infinityMagnitude < 2 ^ 63 := by decide
  rw [magnitude_eq_mod, toNat_ofMagnitude negative h]
  split <;> omega

theorem isNegative_ofMagnitude (negative : Bool) {m : Nat} (h : m ≤ infinityMagnitude) :
    isNegative (ofMagnitude negative m) = negative := by
  have hinfinity : infinityMagnitude < 2 ^ 63 := by decide
  rw [isNegative_eq, toNat_ofMagnitude negative h]
  cases negative with
  | true => simp
  | false =>
      simp
      omega

/-- A float is its sign and its magnitude. -/
theorem ofMagnitude_magnitude (x : Float) : ofMagnitude (isNegative x) (magnitude x) = x := by
  have hlt : x.toBits.toNat < 2 ^ 64 := x.toBits.toNat_lt
  have hbits : (if isNegative x then 2 ^ 63 + magnitude x else magnitude x) = x.toBits.toNat := by
    rw [magnitude_eq_mod, isNegative_eq]
    by_cases hsign : 2 ^ 63 ≤ x.toBits.toNat
    · rw [if_pos (decide_eq_true hsign)]
      omega
    · rw [if_neg (by simpa using hsign)]
      omega
  rw [ofMagnitude_eq, hbits, UInt64.ofNat_toNat, Float.ofBits_toBits]

/-! ## Unpacked floats -/

/-- The sign of a float. -/
def sign (x : Float) : Sign := if isNegative x then .negative else .positive

theorem ofBitVec_unpackSign (x : Float) :
    Sign.ofBitVec (@unpackSign Format.binary64 x.toBits.toBitVec) = sign x := by
  have hlt : x.toBits.toNat < 2 ^ 64 := x.toBits.toNat_lt
  have hclear : @unpackSign Format.binary64 x.toBits.toBitVec = 0#1 ↔ ¬ 2 ^ 63 ≤ x.toBits.toNat := by
    rw [← BitVec.toNat_inj, toNat_unpackSign]
    show x.toBits.toNat / 2 ^ 63 % 2 = 0 ↔ _
    omega
  unfold Sign.ofBitVec sign
  rw [isNegative_eq]
  by_cases hnegative : 2 ^ 63 ≤ x.toBits.toNat
  · rw [if_neg (mt hclear.mp (not_not_intro hnegative)), if_pos (decide_eq_true hnegative)]
  · rw [if_pos (hclear.mpr hnegative), if_neg (by simpa using hnegative)]

theorem toNat_unpackExponent_toBits (x : Float) :
    (@unpackExponent Format.binary64 x.toBits.toBitVec).toNat = magnitude x / 2 ^ 52 := by
  have h : (@unpackExponent Format.binary64 x.toBits.toBitVec).toNat = x.toBits.toNat / 2 ^ 52 % 2 ^ 11 :=
    toNat_unpackExponent _
  rw [h, magnitude_eq_mod]
  omega

theorem toNat_unpackMantissa_toBits (x : Float) :
    (@unpackMantissa Format.binary64 x.toBits.toBitVec).toNat = magnitude x % 2 ^ 52 := by
  have h : (@unpackMantissa Format.binary64 x.toBits.toBitVec).toNat = x.toBits.toNat % 2 ^ 52 :=
    toNat_unpackMantissa _
  rw [h, magnitude_eq_mod]
  omega

theorem unpackExponent_eq_ones_iff (x : Float) :
    @unpackExponent Format.binary64 x.toBits.toBitVec = -1#_ ↔ infinityMagnitude ≤ magnitude x := by
  have hlt := magnitude_lt x
  rw [← BitVec.toNat_inj, toNat_unpackExponent_toBits, infinityMagnitude_eq]
  show magnitude x / 2 ^ 52 = 2047 ↔ _
  omega

theorem unpackExponent_eq_zero_iff (x : Float) :
    @unpackExponent Format.binary64 x.toBits.toBitVec = 0#_ ↔ magnitude x < 2 ^ 52 := by
  rw [← BitVec.toNat_inj, toNat_unpackExponent_toBits]
  show magnitude x / 2 ^ 52 = 0 ↔ _
  omega

theorem unpackMantissa_eq_zero_iff (x : Float) :
    @unpackMantissa Format.binary64 x.toBits.toBitVec = 0#_ ↔ magnitude x % 2 ^ 52 = 0 := by
  rw [← BitVec.toNat_inj, toNat_unpackMantissa_toBits]
  exact Iff.rfl

theorem mantissa_pos {x : Float} (h : magnitude x ≠ 0) : 0 < mantissa x := by
  rw [mantissa_eq]
  split <;> omega

theorem unpack_eq_notANumber {x : Float} (h : infinityMagnitude < magnitude x) : x.toModel.unpack = .notANumber := by
  have hlt := magnitude_lt x
  have hones := (unpackExponent_eq_ones_iff x).mpr (Nat.le_of_lt h)
  rw [infinityMagnitude_eq] at h
  have hmantissa := mt (unpackMantissa_eq_zero_iff x).mp (by omega)
  show UnpackedFloat.unpack Format.binary64 x.toBits.toBitVec = _
  rw [UnpackedFloat.unpack, if_pos hones, if_neg hmantissa]

theorem unpack_eq_infinity {x : Float} (h : magnitude x = infinityMagnitude) :
    x.toModel.unpack = .infinity (sign x) := by
  have hones := (unpackExponent_eq_ones_iff x).mpr (Nat.le_of_eq h.symm)
  have hmantissa := (unpackMantissa_eq_zero_iff x).mpr (by rw [h]; rfl)
  show UnpackedFloat.unpack Format.binary64 x.toBits.toBitVec = _
  rw [UnpackedFloat.unpack, ofBitVec_unpackSign, if_pos hones, if_pos hmantissa]

theorem unpack_eq_zero {x : Float} (h : magnitude x = 0) : x.toModel.unpack = .zero (sign x) := by
  have hones := mt (unpackExponent_eq_ones_iff x).mp (by rw [h]; decide)
  have hclear := (unpackExponent_eq_zero_iff x).mpr (by rw [h]; decide)
  have hmantissa := (unpackMantissa_eq_zero_iff x).mpr (by rw [h]; rfl)
  show UnpackedFloat.unpack Format.binary64 x.toBits.toBitVec = _
  rw [UnpackedFloat.unpack, ofBitVec_unpackSign, if_neg hones, if_pos hclear, dif_pos hmantissa]

/-- A finite float other than a zero unpacks to its mantissa and its exponent. -/
theorem unpack_eq_finite {x : Float} (hlt : magnitude x < infinityMagnitude) (hne : magnitude x ≠ 0) :
    x.toModel.unpack = .finite (sign x) (mantissa x) (exponent x) (mantissa_pos hne) := by
  have hones := mt (unpackExponent_eq_ones_iff x).mp (Nat.not_le_of_lt hlt)
  show UnpackedFloat.unpack Format.binary64 x.toBits.toBitVec = _
  rw [UnpackedFloat.unpack, ofBitVec_unpackSign, if_neg hones]
  by_cases hsmall : magnitude x < 2 ^ 52
  · have hclear := (unpackExponent_eq_zero_iff x).mpr hsmall
    have hmantissa := mt (unpackMantissa_eq_zero_iff x).mp (by omega)
    rw [if_pos hclear, dif_neg hmantissa]
    congr 1
    · rw [toNat_unpackMantissa_toBits, mantissa_eq, if_pos hsmall]
      omega
    · rw [hclear, exponent_eq, if_pos hsmall]
      rfl
  · rw [if_neg (mt (unpackExponent_eq_zero_iff x).mp hsmall)]
    congr 1
    · -- The bit that is not stored stands above the mantissa.
      have happend := Nat.shiftLeft_add_eq_or_of_lt
        (BitVec.isLt (@unpackMantissa Format.binary64 x.toBits.toBitVec)) 1
      rw [toNat_unpackMantissa_toBits] at happend
      rw [mantissa_eq, if_neg hsmall, BitVec.toNat_append, toNat_unpackMantissa_toBits, Nat.add_comm]
      exact happend.symm
    · rw [toNat_unpackExponent_toBits, exponent_eq, if_neg hsmall]
      rfl

/-- **What a float unpacks to**, up to infinity. -/
theorem unpack_cases {x : Float} (h : magnitude x ≤ infinityMagnitude) :
    (magnitude x = infinityMagnitude ∧ x.toModel.unpack = .infinity (sign x)) ∨
      (magnitude x = 0 ∧ x.toModel.unpack = .zero (sign x)) ∨
      ∃ hne : magnitude x ≠ 0, magnitude x < infinityMagnitude ∧
        x.toModel.unpack = .finite (sign x) (mantissa x) (exponent x) (mantissa_pos hne) := by
  rcases Nat.eq_or_lt_of_le h with heq | hlt
  · exact Or.inl ⟨heq, unpack_eq_infinity heq⟩
  · by_cases hzero : magnitude x = 0
    · exact Or.inr (Or.inl ⟨hzero, unpack_eq_zero hzero⟩)
    · exact Or.inr (Or.inr ⟨hzero, hlt, unpack_eq_finite hlt hzero⟩)

/-! ## Kinds -/

theorem isNaN_eq_false {x : Float} (h : magnitude x ≤ infinityMagnitude) : x.isNaN = false := by
  show x.toModel.unpack.isNaN = false
  rcases unpack_cases h with ⟨-, hunpack⟩ | ⟨-, hunpack⟩ | ⟨_, -, hunpack⟩ <;> rw [hunpack] <;> rfl

theorem isInf_eq_true {x : Float} (h : magnitude x = infinityMagnitude) : x.isInf = true := by
  show x.toModel.unpack.isInf = true
  rw [unpack_eq_infinity h]
  rfl

theorem isInf_eq_false {x : Float} (h : isFinite x = true) : x.isInf = false := by
  have hlt : magnitude x < infinityMagnitude := of_decide_eq_true h
  show x.toModel.unpack.isInf = false
  rcases unpack_cases (Nat.le_of_lt hlt) with ⟨heq, -⟩ | ⟨-, hunpack⟩ | ⟨_, -, hunpack⟩
  · omega
  · rw [hunpack]
    rfl
  · rw [hunpack]
    rfl

/-- What is no NaN and not infinite is finite. -/
theorem isFinite_of_isInf_eq_false {x : Float} (h : magnitude x ≤ infinityMagnitude) (hinf : x.isInf = false) :
    isFinite x = true := by
  have hne : magnitude x ≠ infinityMagnitude := by
    intro heq
    rw [isInf_eq_true heq] at hinf
    cases hinf
  exact decide_eq_true (by omega)

end SmallLisp.Binary64
