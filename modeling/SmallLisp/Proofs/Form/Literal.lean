import SmallLisp.Proofs.Binary64.Equality
import SmallLisp.Proofs.Form.Lines
import SmallLisp.Proofs.Form.RoundTrip
import SmallLisp.Value.Equality

/-!
# `SmallLisp.Proofs.Form.Literal` — number literals after printing

A literal may be written in many ways, with a plus, with leading zeros, with an exponent; printing keeps its value
only. The printed text is a literal of the same number again, unless the literal lies so far out that the nearest float
is an infinity: an infinity is printed as a word, and this word is read as a symbol.

## Contents
* **Texts** with one form (`WritesForm.readAll_eq`).
* **Infinities** `Value.IsInfinite`, which are written as words (`writesForm_infinity`).
* **The result** `number_reads_back_iff`, with a literal that is printed in another way than it was written, and
  `infinity_reads_back_as_symbol`.
-/

namespace SmallLisp

open Binary64 Numeral

/-! ## Texts -/

/-- A text that is written for a value holds the form with this value and no other. -/
theorem WritesForm.readAll_eq {cs : List Char} {v : Value} (h : WritesForm cs v) :
    Form.readAll (String.ofList cs) = .ok [v] := by
  obtain ⟨ls, hcut, hform⟩ := h
  have hlexemes : lexemes (String.ofList cs) = ls ++ [] := hcut.map_lexeme_scan.trans (List.append_nil ls).symm
  rw [readAll_eq_ok_iff_areForms, hlexemes]
  exact AreForms.cons hform AreForms.nil

/-! ## Infinities -/

/-- The value is an infinity. -/
def Value.IsInfinite (v : Value) : Prop := ∃ x, v = .float x ∧ x.isInf = true

theorem floatChars_of_isInf {x : Float} (hle : magnitude x ≤ infinityMagnitude) (hinf : x.isInf = true) :
    floatChars x = if isNegative x then ['-', 'i', 'n', 'f'] else ['i', 'n', 'f'] := by
  have hfinite : ¬ isFinite x = true := by
    intro hfinite
    rw [isInf_eq_false hfinite] at hinf
    cases hinf
  rw [floatChars, isNaN_eq_false hle, unsignedChars, if_neg hfinite]
  rfl

/-- The text of an infinity is that of a symbol. -/
theorem writesForm_infinity {x : Float} (hle : magnitude x ≤ infinityMagnitude) (hinf : x.isInf = true) :
    WritesForm (floatChars x) (.symbol (floatText x)) := by
  rw [floatText, floatChars_of_isInf hle hinf]
  cases isNegative x with
  | true | false =>
      exact writesForm_chars (Lexeme.wellCut_atom (by decide) (by decide))
        (IsAtom.symbol (by decide) (by decide) (by decide))

/-! ## Numbers -/

namespace Numeral

theorem number?_cases {cs : List Char} {v : Value} (h : number? cs = some v) :
    (∃ n, v = .integer n) ∨ ∃ x, v = .float x ∧ magnitude x ≤ infinityMagnitude := by
  unfold number? at h
  split at h
  · obtain ⟨x, hx, rfl⟩ := Option.map_eq_some_iff.mp h
    exact Or.inr ⟨x, rfl, magnitude_le_of_float? hx⟩
  · obtain ⟨n, -, rfl⟩ := Option.map_eq_some_iff.mp h
    exact Or.inl ⟨n, rfl⟩

/-- The text of a number is that of the number, if it is no infinity. -/
theorem writesForm_number {cs : List Char} {v : Value} (h : number? cs = some v) (hfinite : ¬ v.IsInfinite) :
    WritesForm (v.chars true) v := by
  rcases number?_cases h with ⟨n, rfl⟩ | ⟨x, rfl, hle⟩
  · exact writesForm_chars (wellCut_integer n.toInt) (isAtom_integer n)
  · have hinf : x.isInf = false := by
      rw [Bool.eq_false_iff]
      intro hinf
      exact hfinite ⟨x, rfl, hinf⟩
    have hx : isFinite x = true := isFinite_of_isInf_eq_false hle hinf
    exact writesForm_chars (wellCut_float hx) (isAtom_float hx)

theorem beq_self_of_number? {cs : List Char} {v : Value} (h : number? cs = some v) : (v == v) = true := by
  rcases number?_cases h with ⟨n, rfl⟩ | ⟨x, rfl, hle⟩
  · exact beq_self_eq_true n
  · exact (beq_iff_canonical x x).mpr ⟨rfl, isNaN_eq_false hle⟩

end Numeral

/-! ## The result -/

/-- The text of a value is read as one value, which is of the same kind and equal to it. -/
def Value.ReadsBack (v : Value) : Prop :=
  ∃ w, Form.readAll (v.print true) = .ok [w] ∧ w.typeName = v.typeName ∧ (w == v) = true

/-- **A number literal survives printing, unless it stands for an infinity.** The value of a literal is an integer or a
float. If it is not infinite then its text is read as this very value, the sign of a zero included; if it is then its
text is read as a symbol. -/
theorem number_reads_back_iff {text : String} {v : Value} (hlooks : looksNumeric text.toList = true)
    (hv : Value.ofAtom? text = some v) :
    ((∃ n, v = .integer n) ∨ ∃ x, v = .float x) ∧ (v.ReadsBack ↔ ¬ v.IsInfinite) ∧
      (¬ v.IsInfinite → Form.readAll (v.print true) = .ok [v]) ∧
      (v.IsInfinite → Form.readAll (v.print true) = .ok [.symbol (v.print true)]) := by
  rw [Value.ofAtom?, if_pos hlooks] at hv
  have hfinite : ¬ v.IsInfinite → Form.readAll (v.print true) = .ok [v] := fun h => (writesForm_number hv h).readAll_eq
  have hinfinite : v.IsInfinite → Form.readAll (v.print true) = .ok [.symbol (v.print true)] := by
    rintro ⟨x, rfl, hinf⟩
    rcases number?_cases hv with ⟨n, hn⟩ | ⟨y, hy, hle⟩
    · cases hn
    · cases hy
      exact (writesForm_infinity hle hinf).readAll_eq
  have hkind : (∃ n, v = .integer n) ∨ ∃ x, v = .float x :=
    (number?_cases hv).imp_right (Exists.imp fun _ hx => hx.1)
  refine ⟨hkind, ⟨?_, ?_⟩, hfinite, hinfinite⟩
  · rintro ⟨w, hread, htype, -⟩ hinf
    rw [hinfinite hinf] at hread
    cases hread
    obtain ⟨x, rfl, -⟩ := hinf
    -- A symbol is of another kind than a float.
    simp [Value.typeName] at htype
  · intro h
    exact ⟨v, hfinite h, rfl, beq_self_of_number? hv⟩

/-- A literal with a plus, leading zeros and an exponent is printed without them. -/
theorem signed_exponent_reads_back :
    looksNumeric "+007.250e-1".toList = true ∧ ∃ v, Value.ofAtom? "+007.250e-1" = some v ∧ v.print true = "0.725" ∧
      v.ReadsBack := by
  have hlooks : looksNumeric "+007.250e-1".toList = true := by decide
  have hv : Value.ofAtom? "+007.250e-1" = some (.float (nearest false 7250 10000)) := rfl
  refine ⟨hlooks, _, hv, by decide +kernel, (number_reads_back_iff hlooks hv).2.1.mpr ?_⟩
  rintro ⟨x, hx, hinf⟩
  cases hx
  exact absurd hinf (by decide +kernel)

/-- The literal `1.0e999` stands for an infinity, which is printed as a word. -/
theorem infinity_reads_back_as_symbol :
    let v := Value.float (ofMagnitude false infinityMagnitude)
    Value.ofAtom? "1.0e999" = some v ∧ v.print true = "inf" ∧ Form.readAll "inf" = .ok [.symbol "inf"] ∧
      ¬ v.ReadsBack := by
  intro v
  have hprint : v.print true = "inf" := by decide +kernel
  have hread : Form.readAll "inf" = .ok [.symbol "inf"] := by cbv
  refine ⟨by cbv, hprint, hread, ?_⟩
  rintro ⟨w, hw, htype, -⟩
  rw [hprint, hread] at hw
  cases hw
  exact absurd htype (by decide)

end SmallLisp
