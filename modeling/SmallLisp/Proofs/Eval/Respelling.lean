import SmallLisp.Eval

/-!
# `SmallLisp.Proofs.Eval.Respelling` — the two spellings of a mark in a template

A mark in a template may be written short, as a mark, or long, as a list of its name and the operand. Both
spellings are meant to be the same hole. They are where the mark is a hole at all, which depends on its place: an
`unquote` is a hole wherever a template is filled, a `splice-unquote` only as an element of a list or a vector.
Elsewhere the short `splice-unquote` is refused, while the long one passes for a list like any other.

So a mark may be respelled exactly where it is a hole. This is stated for any rule of what may be respelled where
(`eval_respelled_iff`): all templates keep their meaning under the rule if and only if it allows nothing but holes.

## Contents
* **Places** `Place` in a template, and the marks that are holes there, `Place.holes`.
* **Respelling** `Respelled`, by a rule of what may be respelled where.
* **Filling** a respelled template: `fill_respelled`, and for elements `operand?_respelled`.
* **The result** `eval_respelled_iff`, and `splice_spellings_differ`, a splice outside of any list or vector.
-/

namespace SmallLisp

/-! ## Places -/

/-- Where a part of a template stands. -/
inductive Place where
  /-- As the template itself, or right under a mark `quote` or `quasiquote` in it. -/
  | whole
  /-- As an element of a list or a vector in it. -/
  | element
  deriving DecidableEq, Repr

/-- The marks that are holes at a place. -/
def Place.holes : Place → List Mark
  | whole   => [.unquote]
  | element => [.unquote, .spliceUnquote]

theorem Place.mem_holes {p : Place} {m : Mark} : m ∈ p.holes ↔ m = .unquote ∨ p = .element ∧ m = .spliceUnquote := by
  cases p <;> simp [holes]

/-! ## Respelling -/

mutual

/-- The second template is the first one with some marks written long, at places that the filling of the template
comes to. Which marks may be written long at which places is a parameter. -/
inductive Respelled (allowed : Place → Mark → Prop) : Place → Value → Value → Prop where
  | same (p : Place) (t : Value) : Respelled allowed p t t
  | long {p : Place} {m : Mark} (operand : Value) :
      allowed p m → Respelled allowed p (.marked m operand) (.list [.symbol m.name, operand])
  /-- The filling does not come to the parts of a list that is a hole itself. -/
  | list {p : Place} {items items' : List Value} :
      (∀ m ∈ p.holes, (Value.list items).operand? m = none) → RespelledItems allowed items items' →
      Respelled allowed p (.list items) (.list items')
  | vector {p : Place} {items items' : List Value} :
      RespelledItems allowed items items' → Respelled allowed p (.vector items) (.vector items')
  | marked {p : Place} {m : Mark} {t t' : Value} :
      m = .quote ∨ m = .quasiquote → Respelled allowed .whole t t' →
      Respelled allowed p (.marked m t) (.marked m t')

/-- The elements of the second list are those of the first one, some respelled. -/
inductive RespelledItems (allowed : Place → Mark → Prop) : List Value → List Value → Prop where
  | nil : RespelledItems allowed [] []
  | cons {t t' : Value} {ts ts' : List Value} :
      Respelled allowed .element t t' → RespelledItems allowed ts ts' →
      RespelledItems allowed (t :: ts) (t' :: ts')

end

variable {allowed : Place → Mark → Prop}

/-- Respelling makes no symbols and takes none away. -/
theorem Respelled.eq_symbol {p : Place} {t t' : Value} (h : Respelled allowed p t t') {name : String}
    (ht' : t' = .symbol name) : t = .symbol name := by
  cases h with
  | same  => exact ht'
  | _     => cases ht'

/-- A list that is no hole does not become one by the respelling of its elements. -/
theorem operand?_list_respelled {m : Mark} {items items' : List Value} (hitems : RespelledItems allowed items items')
    (h : (Value.list items).operand? m = none) : (Value.list items').operand? m = none := by
  rw [Option.eq_none_iff_forall_ne_some] at h ⊢
  intro operand' hsome
  rcases Value.operand?_eq_some_iff.mp hsome with heq | heq
  · cases heq
  · injection heq with heq
    subst heq
    -- The head of the list is a symbol, so it was the same symbol before.
    obtain _ | ⟨hhead, _ | ⟨hoperand, hnil⟩⟩ := hitems
    cases hnil
    obtain rfl := hhead.eq_symbol rfl
    exact h _ (Value.operand?_eq_some_iff.mpr (Or.inr rfl))

/-- Both spellings of an element are the same splice, or none. -/
theorem operand?_respelled (hallowed : ∀ p m, allowed p m → m ∈ p.holes) {t t' : Value}
    (h : Respelled allowed .element t t') : t'.operand? .spliceUnquote = t.operand? .spliceUnquote := by
  cases h with
  | same => rfl
  | long operand hlong =>
      rcases Place.mem_holes.mp (hallowed _ _ hlong) with rfl | ⟨-, rfl⟩
      · rfl
      · rfl
  | list hnone hitems =>
      have hsplice := hnone .spliceUnquote (Place.mem_holes.mpr (Or.inr ⟨rfl, rfl⟩))
      rw [hsplice, operand?_list_respelled hitems hsplice]
  | vector hitems => rfl
  | marked hm ht =>
      rcases hm with rfl | rfl
      · rfl
      · rfl

/-! ## Filling -/

namespace Eval

open SmallLisp.Action

variable {ev : Evaluator} {s : ScopeId}

/-- The long spelling of `unquote` is filled with the value of its operand, as the short one is. -/
theorem fill_long_unquote (operand : Value) :
    fill ev s (.list [.symbol Mark.unquote.name, operand]) = ev operand s := by
  rw [fill, Value.operand?_eq_some_iff.mpr (Or.inr rfl)]

/-- A list that is not a hole is filled element by element. -/
theorem fill_list {items : List Value} (h : (Value.list items).operand? .unquote = none) :
    fill ev s (.list items) = (do return .list (← fillItems ev s items)) := by
  rw [fill, h]

mutual

/-- **Respelling holes.** A template of which only holes have been respelled is filled in the same way. The element
of a list or a vector may also be a splice, which is not filled but spliced. -/
theorem fill_respelled (hallowed : ∀ p m, allowed p m → m ∈ p.holes) {p : Place} {t t' : Value}
    (h : Respelled allowed p t t') (hsplice : p = .element → t.operand? .spliceUnquote = none) :
    fill ev s t' = fill ev s t := by
  cases h with
  | same => rfl
  | long operand hlong =>
      rcases Place.mem_holes.mp (hallowed _ _ hlong) with rfl | ⟨hp, rfl⟩
      · rw [fill_long_unquote, fill]
      · cases hsplice hp
  | list hnone hitems =>
      have hunquote := hnone .unquote (Place.mem_holes.mpr (Or.inl rfl))
      rw [fill_list hunquote, fill_list (operand?_list_respelled hitems hunquote), fillItems_respelled hallowed hitems]
  | vector hitems => rw [fill, fill, fillItems_respelled hallowed hitems]
  | marked hm ht =>
      have hform := fill_respelled hallowed ht nofun
      rcases hm with rfl | rfl
      · rw [fill, fill, hform]
      · rw [fill, fill, hform]

theorem fillItems_respelled (hallowed : ∀ p m, allowed p m → m ∈ p.holes) {ts ts' : List Value}
    (h : RespelledItems allowed ts ts') : fillItems ev s ts' = fillItems ev s ts := by
  cases h with
  | nil => rfl
  | cons ht hts =>
      rename_i t t' ts ts'
      rw [fillItems, fillItems, operand?_respelled hallowed ht, fillItems_respelled hallowed hts]
      cases hsplice : t.operand? .spliceUnquote with
      | some operand => rfl
      | none => rw [fill_respelled hallowed ht fun _ => hsplice]

end

end Eval

/-! ## The result -/

/-- The form that fills a template. -/
def quasiquoted (t : Value) : Value := .list [.symbol SpecialForm.quasiquote.name, t]

theorem eval_quasiquoted (depth : Nat) (t : Value) (s : ScopeId) :
    eval (depth + 1) (quasiquoted t) s = Eval.fill (eval depth) s t := rfl

/-- **A mark may be respelled exactly where it is a hole.** Whatever is allowed to be respelled where: all templates
that come of it have the same outcome as before, print the same text and leave the same store, in every scope and
every store, if and only if nothing but holes may be respelled. -/
theorem eval_respelled_iff (allowed : Place → Mark → Prop) :
    (∀ t t', Respelled allowed .whole t t' →
      ∀ depth s st, eval depth (quasiquoted t') s st = eval depth (quasiquoted t) s st) ↔
    ∀ p m, allowed p m → m ∈ p.holes := by
  constructor
  · intro hsame p m hm
    have hlong := Respelled.long (p := p) Value.nil hm
    cases p with
    | whole =>
        have heval := congrArg Run.outcome (hsame _ _ hlong 1 ⟨0⟩ Store.empty)
        cases m with
        | unquote => exact Place.mem_holes.mpr (Or.inl rfl)
        -- The other marks are put into the result, or refused; their long spellings are lists.
        | _ => cases heval
    | element =>
        have helement := Respelled.vector (p := .whole) (RespelledItems.cons hlong RespelledItems.nil)
        have heval := congrArg Run.outcome (hsame _ _ helement 1 ⟨0⟩ Store.empty)
        cases m with
        | unquote       => exact Place.mem_holes.mpr (Or.inl rfl)
        | spliceUnquote => exact Place.mem_holes.mpr (Or.inr ⟨rfl, rfl⟩)
        | _             => cases heval
  · intro hallowed t t' h depth s st
    cases depth with
    | zero => rfl
    | succ depth => rw [eval_quasiquoted, eval_quasiquoted, Eval.fill_respelled hallowed h nofun]

/-- A splice that is a whole template is refused in the short spelling, and is a list in the long one. -/
theorem splice_spellings_differ :
    let short := Value.marked .spliceUnquote .nil
    let long := Value.list [.symbol Mark.spliceUnquote.name, .nil]
    Respelled (fun _ m => m = .unquote ∨ m = .spliceUnquote) .whole short long ∧
    (eval 1 (quasiquoted short) ⟨0⟩ Store.empty).outcome = .error (.malformed .spliceWithoutSequence) ∧
    (eval 1 (quasiquoted long) ⟨0⟩ Store.empty).outcome = .value long :=
  ⟨Respelled.long Value.nil (Or.inr rfl), rfl, rfl⟩

end SmallLisp
