import SmallLisp.Proofs.Eval.Respelling

/-!
# `SmallLisp.Proofs.Eval.Substitution` — templates are filled by substitution

Filling a template goes through it once and mixes two things, evaluating the operands of its holes and putting the
result together. The operands can print and bind names, so it matters in which order they are evaluated and how often.
Here the two things are taken apart. The operands are those that a walk through the template meets, and the result is
the template with values in place of its holes; a template is filled by evaluating the former in one go, from left to
right, and then putting the values in, where they are not looked at again.

## Contents
* **Sequences that give a value** `Action.bind_eq_value_iff`, and several forms after several others,
  `Eval.evalItems_append`.
* **Walks** `Value.walk`, and the operands met on them, `Value.operands`.
* **Substitution** `Value.Filled`, a relation between a template, values and a result.
* **Filling** `fill_eq_value_iff`, and templates without holes, `filled_self`.
* **The result** `quasiquote_substitutes`, with a template that defines a name and uses it.
-/

namespace SmallLisp

/-! ## Sequences that give a value -/

namespace Action

variable {α β : Type} {x : Action α} {st last : Store} {b : β} {text : String}

/-- A sequence of two actions gives a value if the first one does and the second one goes on from there. -/
theorem bind_eq_value_iff {f : α → Action β} : (x >>= f) st = ⟨.value b, last, text⟩ ↔
    ∃ a mid first second, x st = ⟨.value a, mid, first⟩ ∧ f a mid = ⟨.value b, last, second⟩ ∧
      text = first ++ second := by
  rw [bind_apply]
  constructor
  · intro h
    cases hx : x st with
    | mk outcome mid first =>
        rw [hx] at h
        cases outcome with
        | value a =>
            simp only [Run.mk.injEq] at h
            obtain ⟨houtcome, hstore, htext⟩ := h
            exact ⟨a, mid, first, (f a mid).printed, rfl, by rw [← houtcome, ← hstore], htext.symm⟩
        | error e => cases h
        | tooDeep => cases h
  · rintro ⟨a, mid, first, second, hx, hf, rfl⟩
    rw [hx]
    simp only [hf]

/-- The value of an action, changed at the end. -/
theorem map_eq_value_iff {g : α → β} : (do return g (← x) : Action β) st = ⟨.value b, last, text⟩ ↔
    ∃ a, x st = ⟨.value a, last, text⟩ ∧ b = g a := by
  rw [bind_eq_value_iff]
  constructor
  · rintro ⟨a, mid, first, second, hx, hpure, rfl⟩
    cases hpure
    exact ⟨a, by rw [hx, String.append_empty], rfl⟩
  · rintro ⟨a, hx, rfl⟩
    exact ⟨a, last, text, "", hx, rfl, String.append_empty.symm⟩

end Action

namespace Eval

open SmallLisp.Action

variable {ev : Evaluator} {s : ScopeId} {st last : Store} {text : String}

theorem evalItems_append (es fs : List Value) : evalItems ev s (es ++ fs) =
    (do let xs ← evalItems ev s es
        let ys ← evalItems ev s fs
        return xs ++ ys) := by
  induction es with
  | nil => simp [evalItems]
  | cons e es ih => simp [evalItems, ih]

theorem length_of_evalItems {es xs : List Value} (h : evalItems ev s es st = ⟨.value xs, last, text⟩) :
    xs.length = es.length := by
  induction es generalizing st xs text with
  | nil =>
      cases h
      rfl
  | cons e es ih =>
      obtain ⟨x, mid, first, second, -, hrest, -⟩ := bind_eq_value_iff.mp h
      obtain ⟨ys, hys, rfl⟩ := map_eq_value_iff.mp hrest
      rw [List.length_cons, List.length_cons, ih hys]

end Eval

/-! ## Walks -/

/-- The operand of the hole that stands at a place, if there is one. -/
def Place.hole? (p : Place) (t : Value) : Option Value := p.holes.findSome? fun m => t.operand? m

theorem Place.hole?_whole (t : Value) : whole.hole? t = t.operand? .unquote := by
  simp only [hole?, holes, List.findSome?_cons, List.findSome?_nil]
  cases t.operand? .unquote <;> rfl

/-- A form has an operand under one mark at most. -/
theorem Value.operand?_of_splice {t operand : Value} (h : t.operand? .spliceUnquote = some operand) :
    t.operand? .unquote = none := by
  rcases operand?_eq_some_iff.mp h with rfl | rfl <;> rfl

theorem Place.hole?_of_splice {t operand : Value} (h : t.operand? .spliceUnquote = some operand) :
    element.hole? t = some operand := by
  simp only [hole?, holes, List.findSome?_cons, Value.operand?_of_splice h, h]

theorem Place.hole?_of_no_splice {t : Value} (h : t.operand? .spliceUnquote = none) (p : Place) :
    p.hole? t = t.operand? .unquote := by
  cases p with
  | whole => exact hole?_whole t
  | element =>
      simp only [hole?, holes, List.findSome?_cons, List.findSome?_nil, h]
      cases t.operand? .unquote <;> rfl

theorem Place.operand?_of_hole? {p : Place} {t : Value} (h : p.hole? t = none) :
    t.operand? .unquote = none ∧ (p = element → t.operand? .spliceUnquote = none) := by
  have hall : ∀ m ∈ p.holes, t.operand? m = none := List.findSome?_eq_none_iff.mp h
  exact ⟨hall _ (mem_holes.mpr (Or.inl rfl)), fun hp => hall _ (mem_holes.mpr (Or.inr ⟨hp, rfl⟩))⟩

namespace Value

mutual

/-- What a walk through a template comes to, from left to right: the form at a place, and then the parts of it, in
lists, in vectors and under the marks `quote` and `quasiquote`. The walk does not go into holes, nor into maps. -/
def walk (p : Place) : Value → List (Place × Value)
  | list items           => (p, list items) :: if (p.hole? (list items)).isSome then [] else walkItems items
  | vector items         => (p, vector items) :: walkItems items
  | marked .quote t      => (p, marked .quote t) :: walk .whole t
  | marked .quasiquote t => (p, marked .quasiquote t) :: walk .whole t
  | t                    => [(p, t)]

/-- A walk through the elements of a list or a vector. -/
def walkItems : List Value → List (Place × Value)
  | []            => []
  | item :: items => walk .element item ++ walkItems items

end

/-- A walk begins with the form itself. -/
theorem mem_walk_self (p : Place) (t : Value) : (p, t) ∈ t.walk p := by
  cases t with
  | marked m form => cases m <;> exact List.mem_cons_self
  | _ => exact List.mem_cons_self

/-- The operands of the holes among some forms at places. -/
def operandsOf (walked : List (Place × Value)) : List Value := walked.filterMap fun w => w.1.hole? w.2

/-- The operands of the holes of a template, from left to right. -/
def operands (t : Value) : List Value := operandsOf (t.walk .whole)

theorem operandsOf_walk_of_hole {p : Place} {t operand : Value} (h : p.hole? t = some operand) :
    operandsOf (t.walk p) = [operand] := by
  have hwalk : t.walk p = [(p, t)] := by
    cases t with
    | list items => rw [walk, h, Option.isSome_some, if_pos rfl]
    | vector items => cases p <;> cases h
    | marked m form => cases m <;> cases p <;> first | rfl | cases h
    | _ => rfl
  rw [hwalk, operandsOf]
  simp only [List.filterMap_cons, h, List.filterMap_nil]

theorem operandsOf_walk_list {p : Place} {items : List Value} (h : p.hole? (list items) = none) :
    operandsOf ((list items).walk p) = operandsOf (walkItems items) := by
  rw [walk, h, operandsOf, operandsOf, List.filterMap_cons, h]
  rfl

theorem operandsOf_walk_vector (p : Place) (items : List Value) :
    operandsOf ((vector items).walk p) = operandsOf (walkItems items) := by
  cases p <;> rw [walk] <;> rfl

theorem operandsOf_walk_marked (p : Place) {m : Mark} (hm : m = .quote ∨ m = .quasiquote) (t : Value) :
    operandsOf ((marked m t).walk p) = t.operands := by
  rcases hm with rfl | rfl <;> cases p <;> rw [walk] <;> rfl

/-- Where a form is no splice it makes no difference whether it is an element. -/
theorem operandsOf_walk_of_no_splice {t : Value} (h : t.operand? .spliceUnquote = none) :
    operandsOf (t.walk .element) = t.operands := by
  have hhole := Place.hole?_of_no_splice h
  cases hunquote : t.operand? .unquote with
  | some operand =>
      rw [operands, operandsOf_walk_of_hole ((hhole .element).trans hunquote),
        operandsOf_walk_of_hole ((hhole .whole).trans hunquote)]
  | none =>
      cases t with
      | list items =>
          rw [operands, operandsOf_walk_list ((hhole .element).trans hunquote),
            operandsOf_walk_list ((hhole .whole).trans hunquote)]
      | vector items => rw [operands, operandsOf_walk_vector, operandsOf_walk_vector]
      | marked m form =>
          cases m with
          | quote => rw [operands, operandsOf_walk_marked _ (Or.inl rfl), operandsOf_walk_marked _ (Or.inl rfl)]
          | quasiquote => rw [operands, operandsOf_walk_marked _ (Or.inr rfl), operandsOf_walk_marked _ (Or.inr rfl)]
          | unquote => cases hunquote
          | spliceUnquote => cases h
      | _ => rfl

theorem operandsOf_walkItems_cons (item : Value) (items : List Value) :
    operandsOf (walkItems (item :: items)) = operandsOf (item.walk .element) ++ operandsOf (walkItems items) := by
  rw [walkItems, operandsOf, List.filterMap_append]
  rfl

/-! ## Substitution -/

mutual

/-- A template with these values in its holes, in order, is this result. Nothing but the holes is changed. -/
inductive Filled : Value → List Value → Value → Prop where
  | hole {t operand x : Value} : t.operand? .unquote = some operand → Filled t [x] x
  | list {items xs vs : List Value} :
      (list items).operand? .unquote = none → FilledItems items xs vs → Filled (list items) xs (list vs)
  | vector {items xs vs : List Value} : FilledItems items xs vs → Filled (vector items) xs (vector vs)
  | marked {m : Mark} {t v : Value} {xs : List Value} :
      m = .quote ∨ m = .quasiquote → Filled t xs v → Filled (marked m t) xs (marked m v)
  | other {t : Value} : t.items? = none → (∀ m u, t ≠ marked m u) → Filled t [] t

/-- The same for elements. A splice is replaced by the elements of its value, which is a list or a vector. -/
inductive FilledItems : List Value → List Value → List Value → Prop where
  | nil : FilledItems [] [] []
  | splice {item operand x : Value} {items elements xs vs : List Value} :
      item.operand? .spliceUnquote = some operand → x.items? = some elements → FilledItems items xs vs →
      FilledItems (item :: items) (x :: xs) (elements ++ vs)
  | item {item v : Value} {items xs ys vs : List Value} :
      item.operand? .spliceUnquote = none → Filled item xs v → FilledItems items ys vs →
      FilledItems (item :: items) (xs ++ ys) (v :: vs)

end

theorem filled_hole_iff {t operand v : Value} {xs : List Value} (h : t.operand? .unquote = some operand) :
    Filled t xs v ↔ xs = [v] := by
  constructor
  · intro hfilled
    cases hfilled with
    | hole _ => rfl
    | list hnone _ =>
        rw [h] at hnone
        cases hnone
    | vector _ => cases h
    | marked hm _ => rcases hm with rfl | rfl <;> cases h
    | other hitems hmarked =>
        rcases operand?_eq_some_iff.mp h with rfl | rfl
        · exact absurd rfl (hmarked _ _)
        · cases hitems
  · rintro rfl
    exact Filled.hole h

theorem filled_list_iff {items xs : List Value} {v : Value} (h : (list items).operand? .unquote = none) :
    Filled (list items) xs v ↔ ∃ vs, FilledItems items xs vs ∧ v = list vs := by
  constructor
  · intro hfilled
    cases hfilled with
    | hole hsome =>
        rw [h] at hsome
        cases hsome
    | list _ hitems => exact ⟨_, hitems, rfl⟩
    | other hitems _ => cases hitems
  · rintro ⟨vs, hitems, rfl⟩
    exact Filled.list h hitems

theorem filled_vector_iff {items xs : List Value} {v : Value} :
    Filled (vector items) xs v ↔ ∃ vs, FilledItems items xs vs ∧ v = vector vs := by
  constructor
  · intro hfilled
    cases hfilled with
    | hole hsome => cases hsome
    | vector hitems => exact ⟨_, hitems, rfl⟩
    | other hitems _ => cases hitems
  · rintro ⟨vs, hitems, rfl⟩
    exact Filled.vector hitems

theorem filled_marked_iff {m : Mark} (hm : m = .quote ∨ m = .quasiquote) {t v : Value} {xs : List Value} :
    Filled (marked m t) xs v ↔ ∃ u, Filled t xs u ∧ v = marked m u := by
  constructor
  · intro hfilled
    cases hfilled with
    | hole hsome => rcases hm with rfl | rfl <;> cases hsome
    | marked _ hform => exact ⟨_, hform, rfl⟩
    | other _ hmarked => exact absurd rfl (hmarked _ _)
  · rintro ⟨u, hform, rfl⟩
    exact Filled.marked hm hform

theorem filled_other_iff {t v : Value} {xs : List Value} (hitems : t.items? = none) (hmarked : ∀ m u, t ≠ marked m u) :
    Filled t xs v ↔ xs = [] ∧ v = t := by
  constructor
  · intro hfilled
    cases hfilled with
    | hole hsome =>
        rcases operand?_eq_some_iff.mp hsome with rfl | rfl
        · exact absurd rfl (hmarked _ _)
        · cases hitems
    | list _ _ | vector _ => cases hitems
    | marked _ _ => exact absurd rfl (hmarked _ _)
    | other _ _ => exact ⟨rfl, rfl⟩
  · rintro ⟨rfl, rfl⟩
    exact Filled.other hitems hmarked

mutual

/-- A template takes as many values as it has holes. -/
theorem Filled.length_eq {t v : Value} {xs : List Value} (h : Filled t xs v) : xs.length = t.operands.length := by
  cases h with
  | hole hsome => rw [operands, operandsOf_walk_of_hole ((Place.hole?_whole t).trans hsome)]; rfl
  | list hnone hitems =>
      rw [operands, operandsOf_walk_list ((Place.hole?_whole _).trans hnone), hitems.length_eq]
  | vector hitems => rw [operands, operandsOf_walk_vector, hitems.length_eq]
  | marked hm hform => rw [operands, operandsOf_walk_marked _ hm, hform.length_eq]
  | other hitems hmarked =>
      cases t with
      | list _ | vector _ => cases hitems
      | marked m u => exact absurd rfl (hmarked m u)
      | _ => rfl

theorem FilledItems.length_eq {items xs vs : List Value} (h : FilledItems items xs vs) :
    xs.length = (operandsOf (walkItems items)).length := by
  cases h with
  | nil => rfl
  | splice hsplice _ hitems =>
      rw [operandsOf_walkItems_cons, operandsOf_walk_of_hole (Place.hole?_of_splice hsplice), List.length_append,
        List.length_cons, hitems.length_eq, Nat.add_comm]
      rfl
  | item hnone hitem hitems =>
      rw [operandsOf_walkItems_cons, operandsOf_walk_of_no_splice hnone, List.length_append, List.length_append,
        hitem.length_eq, hitems.length_eq]

end

/-- The form at a place is neither a hole nor a splice without a list or a vector around it. -/
def Inert (w : Place × Value) : Prop := w.1.hole? w.2 = none ∧ ∀ operand, w.2 ≠ marked .spliceUnquote operand

theorem operands_eq_nil {t : Value} (h : ∀ w ∈ t.walk .whole, Inert w) : t.operands = [] :=
  List.filterMap_eq_nil_iff.mpr fun w hw => (h w hw).1

mutual

/-- A template in which there is nothing to fill is its own result. -/
theorem filled_self {p : Place} : ∀ {t : Value}, (∀ w ∈ t.walk p, Inert w) → Filled t [] t
  | list items, h => by
      have hhole : p.hole? (list items) = none := by
        rw [walk] at h
        exact (h _ List.mem_cons_self).1
      rw [walk, hhole] at h
      exact Filled.list (Place.operand?_of_hole? hhole).1 (filledItems_self (List.forall_mem_cons.mp h).2)
  | vector items, h => by
      rw [walk] at h
      exact Filled.vector (filledItems_self (List.forall_mem_cons.mp h).2)
  | marked .quote t, h => by
      rw [walk] at h
      exact Filled.marked (Or.inl rfl) (filled_self (List.forall_mem_cons.mp h).2)
  | marked .quasiquote t, h => by
      rw [walk] at h
      exact Filled.marked (Or.inr rfl) (filled_self (List.forall_mem_cons.mp h).2)
  | marked .unquote operand, h => by
      have hhole := (h _ List.mem_cons_self).1
      cases (Place.operand?_of_hole? hhole).1
  | marked .spliceUnquote operand, h => absurd rfl ((h _ List.mem_cons_self).2 operand)
  | nil, _ | boolean _, _ | integer _, _ | float _, _ | string _, _ | keyword _, _ | symbol _, _ | map _, _
  | builtin _, _ | closure _ _ _, _ => Filled.other rfl nofun

theorem filledItems_self : ∀ {items : List Value}, (∀ w ∈ walkItems items, Inert w) → FilledItems items [] items
  | [], _ => FilledItems.nil
  | item :: items, h => by
      rw [walkItems, List.forall_mem_append] at h
      have hhole : Place.element.hole? item = none := (h.1 _ (mem_walk_self .element item)).1
      exact FilledItems.item ((Place.operand?_of_hole? hhole).2 rfl) (filled_self h.1) (filledItems_self h.2)

end

end Value

/-! ## Filling -/

namespace Eval

open SmallLisp.Action

variable {ev : Evaluator} {s : ScopeId} {st last : Store} {text : String}

/-- One operand is evaluated like any form. -/
theorem evalItems_singleton {operand : Value} {xs : List Value} :
    evalItems ev s [operand] st = ⟨.value xs, last, text⟩ ↔ ∃ x, ev operand s st = ⟨.value x, last, text⟩ ∧ xs = [x] :=
  map_eq_value_iff

theorem evalItems_append_eq_value_iff {es fs zs : List Value} :
    evalItems ev s (es ++ fs) st = ⟨.value zs, last, text⟩ ↔
      ∃ xs ys mid first second, evalItems ev s es st = ⟨.value xs, mid, first⟩ ∧
        evalItems ev s fs mid = ⟨.value ys, last, second⟩ ∧ text = first ++ second ∧ zs = xs ++ ys := by
  rw [evalItems_append, bind_eq_value_iff]
  constructor
  · rintro ⟨xs, mid, first, second, hxs, hrest, rfl⟩
    obtain ⟨ys, hys, rfl⟩ := map_eq_value_iff.mp hrest
    exact ⟨xs, ys, mid, first, second, hxs, hys, rfl, rfl⟩
  · rintro ⟨xs, ys, mid, first, second, hxs, hys, rfl, rfl⟩
    exact ⟨xs, mid, first, second, hxs, map_eq_value_iff.mpr ⟨ys, hys, rfl⟩, rfl⟩

theorem fill_of_hole {t operand : Value} (h : t.operand? .unquote = some operand) : fill ev s t = ev operand s := by
  rcases Value.operand?_eq_some_iff.mp h with rfl | rfl
  · rw [fill]
  · exact fill_long_unquote operand

theorem fill_hole_eq_value_iff {t operand v : Value} (h : t.operand? .unquote = some operand) :
    fill ev s t st = ⟨.value v, last, text⟩ ↔
      ∃ xs, evalItems ev s t.operands st = ⟨.value xs, last, text⟩ ∧ t.Filled xs v := by
  rw [fill_of_hole h, Value.operands, Value.operandsOf_walk_of_hole ((Place.hole?_whole t).trans h)]
  simp only [evalItems_singleton, Value.filled_hole_iff h]
  constructor
  · intro hrun
    exact ⟨[v], ⟨v, hrun, rfl⟩, rfl⟩
  · rintro ⟨xs, ⟨x, hrun, rfl⟩, hx⟩
    cases hx
    exact hrun

/-- Whatever is neither a list nor a vector nor under a mark is put into the result as it is. -/
theorem fill_other_eq_value_iff {t v : Value} (hitems : t.items? = none) (hmarked : ∀ m u, t ≠ .marked m u) :
    fill ev s t st = ⟨.value v, last, text⟩ ↔
      ∃ xs, evalItems ev s t.operands st = ⟨.value xs, last, text⟩ ∧ t.Filled xs v := by
  have hfill : fill ev s t = pure t ∧ t.operands = [] := by
    cases t with
    | list _ | vector _ => cases hitems
    | marked m u => exact absurd rfl (hmarked m u)
    | _ => exact ⟨rfl, rfl⟩
  rw [hfill.1, hfill.2]
  simp only [Value.filled_other_iff hitems hmarked]
  constructor
  · intro hrun
    cases hrun
    exact ⟨[], rfl, rfl, rfl⟩
  · rintro ⟨xs, hxs, -, rfl⟩
    cases hxs
    rfl

/-- A splice puts in the elements of its value, and then the filling goes on. -/
theorem fillItems_splice_eq_value_iff {item operand : Value} (h : item.operand? .spliceUnquote = some operand)
    {items vs : List Value} : fillItems ev s (item :: items) st = ⟨.value vs, last, text⟩ ↔
      ∃ x elements ws mid first second, ev operand s st = ⟨.value x, mid, first⟩ ∧ x.items? = some elements ∧
        fillItems ev s items mid = ⟨.value ws, last, second⟩ ∧ text = first ++ second ∧ vs = elements ++ ws := by
  rw [fillItems, h]
  simp only [bind_eq_value_iff]
  constructor
  · rintro ⟨x, mid, first, second, hx, hrest, rfl⟩
    cases helements : x.items? with
    | none =>
        rw [helements] at hrest
        cases hrest
    | some elements =>
        rw [helements] at hrest
        obtain ⟨ws, hws, rfl⟩ := map_eq_value_iff.mp hrest
        exact ⟨x, elements, ws, mid, first, second, hx, helements, hws, rfl, rfl⟩
  · rintro ⟨x, elements, ws, mid, first, second, hx, helements, hws, rfl, rfl⟩
    refine ⟨x, mid, first, second, hx, ?_, rfl⟩
    rw [helements]
    exact map_eq_value_iff.mpr ⟨ws, hws, rfl⟩

/-- An element that is no splice is filled, and then the filling goes on. -/
theorem fillItems_item_eq_value_iff {item : Value} (h : item.operand? .spliceUnquote = none)
    {items vs : List Value} : fillItems ev s (item :: items) st = ⟨.value vs, last, text⟩ ↔
      ∃ v ws mid first second, fill ev s item st = ⟨.value v, mid, first⟩ ∧
        fillItems ev s items mid = ⟨.value ws, last, second⟩ ∧ text = first ++ second ∧ vs = v :: ws := by
  rw [fillItems, h]
  simp only [bind_eq_value_iff (x := fill ev s item)]
  constructor
  · rintro ⟨v, mid, first, second, hv, hrest, rfl⟩
    obtain ⟨ws, hws, rfl⟩ := map_eq_value_iff.mp hrest
    exact ⟨v, ws, mid, first, second, hv, hws, rfl, rfl⟩
  · rintro ⟨v, ws, mid, first, second, hv, hws, rfl, rfl⟩
    exact ⟨v, mid, first, second, hv, map_eq_value_iff.mpr ⟨ws, hws, rfl⟩, rfl⟩

/-- What is filled inside of a result takes the values of the whole. -/
theorem exists_inside {α : Type} {evaluated : List Value → Prop} {filled : List Value → α → Prop} {v : Value}
    {g : α → Value} : (∃ a, (∃ xs, evaluated xs ∧ filled xs a) ∧ v = g a) ↔
      ∃ xs, evaluated xs ∧ ∃ a, filled xs a ∧ v = g a := by
  constructor
  · rintro ⟨a, ⟨xs, hxs, ha⟩, rfl⟩
    exact ⟨xs, hxs, a, ha, rfl⟩
  · rintro ⟨xs, hxs, a, ha, rfl⟩
    exact ⟨a, ⟨xs, hxs, ha⟩, rfl⟩

mutual

/-- **Filling is substitution.** A template is filled by evaluating the operands of its holes, from left to right, and
putting their values in. -/
theorem fill_eq_value_iff {st last : Store} {text : String} {v : Value} : ∀ (t : Value),
    fill ev s t st = ⟨.value v, last, text⟩ ↔
      ∃ xs, evalItems ev s t.operands st = ⟨.value xs, last, text⟩ ∧ t.Filled xs v
  | .list items => by
      cases hunquote : (Value.list items).operand? .unquote with
      | some operand => exact fill_hole_eq_value_iff hunquote
      | none =>
          rw [fill_list hunquote, map_eq_value_iff, Value.operands,
            Value.operandsOf_walk_list ((Place.hole?_whole _).trans hunquote)]
          simp only [fillItems_eq_value_iff items, Value.filled_list_iff hunquote]
          exact exists_inside
  | .vector items => by
      rw [fill, map_eq_value_iff, Value.operands, Value.operandsOf_walk_vector]
      simp only [fillItems_eq_value_iff items, Value.filled_vector_iff]
      exact exists_inside
  | .marked .quote t => by
      rw [fill, map_eq_value_iff, Value.operands, Value.operandsOf_walk_marked _ (Or.inl rfl)]
      simp only [fill_eq_value_iff t, Value.filled_marked_iff (Or.inl rfl)]
      exact exists_inside
  | .marked .quasiquote t => by
      rw [fill, map_eq_value_iff, Value.operands, Value.operandsOf_walk_marked _ (Or.inr rfl)]
      simp only [fill_eq_value_iff t, Value.filled_marked_iff (Or.inr rfl)]
      exact exists_inside
  | .marked .unquote operand => fill_hole_eq_value_iff rfl
  | .marked .spliceUnquote operand => by
      -- Outside of lists and vectors a splice has no meaning, so it is neither filled nor substituted.
      constructor
      · nofun
      · rintro ⟨xs, -, hfilled⟩
        cases hfilled with
        | hole hsome => cases hsome
        | marked hm _ => rcases hm with hm | hm <;> cases hm
        | other _ hmarked => exact absurd rfl (hmarked _ _)
  | .nil | .boolean _ | .integer _ | .float _ | .string _ | .keyword _ | .symbol _ | .map _ | .builtin _
  | .closure _ _ _ => fill_other_eq_value_iff rfl nofun

theorem fillItems_eq_value_iff {st last : Store} {text : String} {vs : List Value} : ∀ (items : List Value),
    fillItems ev s items st = ⟨.value vs, last, text⟩ ↔
      ∃ xs, evalItems ev s (Value.operandsOf (Value.walkItems items)) st = ⟨.value xs, last, text⟩ ∧
        Value.FilledItems items xs vs
  | [] => by
      constructor
      · intro hrun
        cases hrun
        exact ⟨[], rfl, Value.FilledItems.nil⟩
      · rintro ⟨xs, hxs, hitems⟩
        cases hxs
        cases hitems
        rfl
  | item :: items => by
      rw [Value.operandsOf_walkItems_cons]
      simp only [evalItems_append_eq_value_iff]
      cases hsplice : item.operand? .spliceUnquote with
      | some operand =>
          rw [fillItems_splice_eq_value_iff hsplice,
            Value.operandsOf_walk_of_hole (Place.hole?_of_splice hsplice)]
          constructor
          · rintro ⟨x, elements, ws, mid, first, second, hx, helements, hws, rfl, rfl⟩
            obtain ⟨ys, hys, hitems⟩ := (fillItems_eq_value_iff items).mp hws
            exact ⟨x :: ys, ⟨[x], ys, mid, first, second, evalItems_singleton.mpr ⟨x, hx, rfl⟩, hys, rfl, rfl⟩,
              Value.FilledItems.splice hsplice helements hitems⟩
          · rintro ⟨zs, ⟨xs, ys, mid, first, second, hxs, hys, rfl, hzs⟩, hfilled⟩
            obtain ⟨x, hx, rfl⟩ := evalItems_singleton.mp hxs
            cases hfilled with
            | splice _ helements hitems =>
                obtain ⟨rfl, rfl⟩ := List.cons.inj hzs
                have hws := (fillItems_eq_value_iff items).mpr ⟨_, hys, hitems⟩
                exact ⟨_, _, _, mid, first, second, hx, helements, hws, rfl, rfl⟩
            | item hnone _ _ =>
                rw [hsplice] at hnone
                cases hnone
      | none =>
          rw [fillItems_item_eq_value_iff hsplice, Value.operandsOf_walk_of_no_splice hsplice]
          constructor
          · rintro ⟨v, ws, mid, first, second, hv, hws, rfl, rfl⟩
            obtain ⟨xs, hxs, hitem⟩ := (fill_eq_value_iff item).mp hv
            obtain ⟨ys, hys, hitems⟩ := (fillItems_eq_value_iff items).mp hws
            exact ⟨xs ++ ys, ⟨xs, ys, mid, first, second, hxs, hys, rfl, rfl⟩,
              Value.FilledItems.item hsplice hitem hitems⟩
          · rintro ⟨zs, ⟨xs, ys, mid, first, second, hxs, hys, rfl, hzs⟩, hfilled⟩
            cases hfilled with
            | splice hsome _ _ =>
                rw [hsplice] at hsome
                cases hsome
            | item _ hitem hitems =>
                -- The values are divided as the operands are: the item takes as many as it has holes.
                obtain ⟨rfl, rfl⟩ := List.append_inj hzs (hitem.length_eq.trans (length_of_evalItems hxs).symm)
                have hv := (fill_eq_value_iff item).mpr ⟨_, hxs, hitem⟩
                have hws := (fillItems_eq_value_iff items).mpr ⟨_, hys, hitems⟩
                exact ⟨_, _, mid, first, second, hv, hws, rfl, rfl⟩

end

end Eval

/-! ## The result -/

/-- **A quasiquote is a substitution.** In either spelling, a quasiquote gives a value if and only if the operands of
the holes that a walk through its template meets can all be evaluated in its scope, one after the other from left to
right, and their values fill the template: each hole is replaced by its value, each splice by the elements of its value,
and nothing else is changed. The value is what comes of it, and the store and the text printed are those that the
operands leave. In particular a template in which there is nothing to fill is its own value, without any effect. -/
theorem quasiquote_substitutes (depth : Nat) {form t : Value}
    (hform : form = quasiquoted t ∨ form = .marked .quasiquote t) (s : ScopeId) (st : Store) :
    (∀ v last text, eval (depth + 1) form s st = ⟨.value v, last, text⟩ ↔
      ∃ xs, Eval.evalItems (eval depth) s t.operands st = ⟨.value xs, last, text⟩ ∧ t.Filled xs v) ∧
    ((∀ w ∈ t.walk .whole, Value.Inert w) → eval (depth + 1) form s st = ⟨.value t, st, ""⟩) := by
  have heval : eval (depth + 1) form s = Eval.fill (eval depth) s t := by
    rcases hform with rfl | rfl <;> rfl
  rw [heval]
  refine ⟨fun v last text => Eval.fill_eq_value_iff t, fun hinert => ?_⟩
  rw [Eval.fill_eq_value_iff, Value.operands_eq_nil hinert]
  exact ⟨[], rfl, Value.filled_self hinert⟩

/-- In `(~(def! x '(unquote y)) ~@x '(unquote x))` the name that the first operand binds is there for the others. The
values that are put in look like a hole themselves, but they are not filled; `y` is bound nowhere. The second template,
`({:a ~x})`, has a mark in a map only. -/
theorem quasiquote_of_definition :
    let x := Value.symbol "x"
    let hole := Value.list [.symbol "unquote", .symbol "y"]
    let definition := Value.list [.symbol "def!", x, .marked .quote hole]
    let t := Value.list
      [.marked .unquote definition, .marked .spliceUnquote x, .marked .quote (.list [.symbol "unquote", x])]
    let u := Value.list [.map [(":a", .marked .unquote x)]]
    let st := Store.empty.newScope none
    t.operands = [definition, x, x] ∧
    eval 4 (quasiquoted t) ⟨0⟩ st =
      ⟨.value (.list [hole, .symbol "unquote", .symbol "y", .marked .quote hole]), st.set ⟨0⟩ "x" hole, ""⟩ ∧
    eval 1 (.marked .quasiquote u) ⟨0⟩ st = ⟨.value u, st, ""⟩ := by
  intro x hole definition t u st
  have hoperands : t.operands = [definition, x, x] := rfl
  have hvalues : Eval.evalItems (eval 3) ⟨0⟩ [definition, x, x] st =
      ⟨.value [hole, hole, hole], st.set ⟨0⟩ "x" hole, ""⟩ := by
    simp only [definition, hole, x, st]
    cbv
  have hfilled : t.Filled [hole, hole, hole] (.list [hole, .symbol "unquote", .symbol "y", .marked .quote hole]) := by
    have hquoted : Value.FilledItems [.marked .quote (.list [.symbol "unquote", x])] ([hole] ++ [])
        [.marked .quote hole] :=
      Value.FilledItems.item rfl (Value.Filled.marked (Or.inl rfl) (Value.Filled.hole rfl)) Value.FilledItems.nil
    have hspliced : Value.FilledItems
        [.marked .spliceUnquote x, .marked .quote (.list [.symbol "unquote", x])] [hole, hole]
        ([.symbol "unquote", .symbol "y"] ++ [.marked .quote hole]) :=
      Value.FilledItems.splice rfl rfl hquoted
    have hall : Value.FilledItems
        [.marked .unquote definition, .marked .spliceUnquote x, .marked .quote (.list [.symbol "unquote", x])]
        ([hole] ++ [hole, hole]) [hole, .symbol "unquote", .symbol "y", .marked .quote hole] :=
      Value.FilledItems.item rfl (Value.Filled.hole rfl) hspliced
    exact Value.Filled.list rfl hall
  have hinert : ∀ w ∈ u.walk .whole, Value.Inert w := by
    intro w hw
    have hcases : w = (.whole, u) ∨ w = (.element, .map [(":a", .marked .unquote x)]) := by
      simpa [u, Value.walk, Value.walkItems, Place.hole?, Place.holes, Value.operand?] using hw
    rcases hcases with rfl | rfl
    · exact ⟨rfl, fun operand heq => by cases heq⟩
    · exact ⟨rfl, fun operand heq => by cases heq⟩
  refine ⟨hoperands, ?_, ?_⟩
  · exact ((quasiquote_substitutes 3 (Or.inl rfl) ⟨0⟩ st).1 _ _ _).mpr ⟨_, hoperands ▸ hvalues, hfilled⟩
  · exact (quasiquote_substitutes 0 (Or.inr rfl) ⟨0⟩ st).2 hinert

end SmallLisp
