import SmallLisp.Proofs.Form.Grammar
import SmallLisp.Proofs.Numeral.RoundTrip
import SmallLisp.Proofs.Token.Write

/-!
# `SmallLisp.Proofs.Form.Number` — a written number is an atom that is this number

The text of a number consists of digits, a minus and a point, all of which may begin and continue an atom, and it
looks like a number. So it is cut as one atom, and this is read as the number.

## Contents
* **Shape.** `looksNumeric_signed`, `wellCut_of_forall`.
* **Integers** `isAtom_integer`, `wellCut_integer` and **floats** `isAtom_float`, `wellCut_float`.
-/

namespace SmallLisp

open Numeral Binary64

/-! ## Shape -/

theorem looksNumeric_of_head? {c : Char} {cs : List Char} (h : c.isDigit = true) :
    looksNumeric (c :: cs) = true := by
  unfold looksNumeric
  split
  · rename_i heq
    cases heq
    cases h
  · rename_i heq
    cases heq
    cases h
  · rename_i heq
    cases heq
    exact h
  · rename_i heq
    cases heq

/-- Digits look like a number, with or without a minus. -/
theorem looksNumeric_signed (negative : Prop) [Decidable negative] {cs : List Char} (hne : cs ≠ [])
    (hcs : ∀ c, cs.head? = some c → c.isDigit = true) :
    looksNumeric (if negative then '-' :: cs else cs) = true := by
  cases cs with
  | nil => exact absurd rfl hne
  | cons c cs =>
      have hc : c.isDigit = true := hcs c rfl
      split
      · exact hc
      · exact looksNumeric_of_head? hc

theorem wellCut_of_forall {cs : List Char} (hne : cs ≠ []) (h : ∀ c ∈ cs, isAtomStart c = true) :
    (Lexeme.atom (String.ofList cs)).WellCut := by
  apply Lexeme.wellCut_atom
  · rwa [String.toList_ofList]
  · rw [String.toList_ofList]
    exact List.all_eq_true.mpr h

theorem forall_mem_signed {p : Char → Prop} (negative : Prop) [Decidable negative] {cs : List Char} (hminus : p '-')
    (hcs : ∀ c ∈ cs, p c) : ∀ c ∈ (if negative then '-' :: cs else cs), p c := by
  split
  · exact List.forall_mem_cons.mpr ⟨hminus, hcs⟩
  · exact hcs

/-! ## Integers -/

theorem isAtom_integer (n : Int64) : IsAtom (String.ofList (integerChars n.toInt)) (.integer n) := by
  have hlooks : looksNumeric (integerChars n.toInt) = true :=
    looksNumeric_signed _ (naturalChars_ne_nil _) (head?_isDigit (isDigit_naturalChars _))
  have hpoint : '.' ∉ integerChars n.toInt := by
    intro hmem
    have hall : ∀ c ∈ integerChars n.toInt, c ≠ '.' := by
      apply forall_mem_signed
      · decide
      · rintro c hc rfl
        exact absurd (isDigit_naturalChars _ _ hc) (by decide)
    exact hall '.' hmem rfl
  apply IsAtom.number
  · rwa [String.toList_ofList]
  · rw [String.toList_ofList, number?, if_neg hpoint, integer?_integerChars]
    rfl

theorem wellCut_integer (n : Int) : (Lexeme.atom (String.ofList (integerChars n))).WellCut := by
  apply wellCut_of_forall
  · unfold integerChars
    split
    · exact List.cons_ne_nil _ _
    · exact naturalChars_ne_nil _
  · apply forall_mem_signed
    · decide
    · exact fun c hc => isAtomStart_of_isDigit (isDigit_naturalChars _ c hc)

/-! ## Floats -/

theorem mem_pointed (d k : Nat) : ∀ c ∈ pointed d k, c.isDigit = true ∨ c = '.' := by
  intro c hc
  rcases List.mem_append.mp hc with hc | hc
  · exact Or.inl (isDigit_naturalChars _ c hc)
  · rcases List.mem_cons.mp hc with rfl | hc
    · exact Or.inr rfl
    · exact Or.inl (isDigit_fixedDigits _ _ c hc)

theorem pointed_ne_nil (d k : Nat) : pointed d k ≠ [] := by
  simp [pointed]

theorem isAtom_float {x : Float} (hfinite : isFinite x = true) :
    IsAtom (String.ofList (floatChars x)) (.float x) := by
  have hlooks : looksNumeric (floatChars x) = true := by
    rw [floatChars_eq hfinite]
    exact looksNumeric_signed _ (pointed_ne_nil _ _) (head?_pointed_isDigit _ _)
  have hpoint : '.' ∈ floatChars x := by
    rw [floatChars_eq hfinite]
    split <;> simp [pointed]
  apply IsAtom.number
  · rwa [String.toList_ofList]
  · rw [String.toList_ofList, number?, if_pos hpoint, float?_floatChars hfinite]
    rfl

theorem wellCut_float {x : Float} (hfinite : isFinite x = true) :
    (Lexeme.atom (String.ofList (floatChars x))).WellCut := by
  rw [floatChars_eq hfinite]
  apply wellCut_of_forall
  · split
    · exact List.cons_ne_nil _ _
    · exact pointed_ne_nil _ _
  · apply forall_mem_signed
    · decide
    · intro c hc
      rcases mem_pointed _ _ c hc with hdigit | rfl
      · exact isAtomStart_of_isDigit hdigit
      · decide

end SmallLisp
