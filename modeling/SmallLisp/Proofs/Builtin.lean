import SmallLisp.Builtin.Call

/-!
# `SmallLisp.Proofs.Builtin` — what builtins give and what they refuse

There is little new in what a builtin gives: it is a scalar, or the list of the arguments. And if a builtin refuses
its arguments, then the error is about one of them, or about their number, or about a number that does not exist. No
builtin looks anything up.

## Contents
* **Scalars** `Value.isScalar`.
* **Values** `Builtin.value_of_call`.
* **Errors** `EvalError.Blames`, and results with such errors only, `BlamesOnly` (`Builtin.blamesOnly_call`).
-/

namespace SmallLisp

/-! ## Scalars -/

/-- Whether a value is plain data without parts or names. -/
def Value.isScalar : Value → Bool
  | nil | boolean _ | integer _ | float _ | string _ => true
  | _                                                => false

theorem Number.isScalar_toValue (n : Number) : n.toValue.isScalar = true := by
  cases n <;> rfl

/-! ## Values -/

/-- Arithmetic gives numbers. -/
theorem Arithmetic.exists_number_of_fold {op : Arithmetic} {acc : Number} {args : List Value} {v : Value}
    (h : op.fold acc args = .ok v) : ∃ n : Number, v = n.toValue := by
  fun_induction Arithmetic.fold op acc args with
  | case1 acc => exact ⟨acc, (Except.ok.inj h).symm⟩
  | case2 => cases h
  | case3 => cases h
  | case4 acc arg rest n hn next hnext ih => exact ih h

theorem Arithmetic.exists_number_of_call {op : Arithmetic} {args : List Value} {v : Value}
    (h : op.call args = .ok v) : ∃ n : Number, v = n.toValue := by
  unfold Arithmetic.call at h
  split at h
  · exact exists_number_of_fold h
  · split at h
    · cases h
    · exact exists_number_of_fold h
    · split at h
      · cases h
      · exact exists_number_of_fold h

namespace Builtin

/-- An answer that is made from a result of another kind has the value that is made from it. -/
theorem value_of_map {α : Type} {r : Except EvalError α} {f : α → Value} {a : Answer}
    (h : r.map (fun x => Answer.silent (f x)) = .ok a) : ∃ x, r = .ok x ∧ a.value = f x := by
  cases r with
  | error e => cases h
  | ok x    =>
      cases h
      exact ⟨x, rfl, rfl⟩

/-- **A builtin gives a scalar,** or the list of its arguments. -/
theorem value_of_call {b : Builtin} {args : List Value} {a : Answer} (h : b.call args = .ok a) :
    a.value.isScalar = true ∨ a.value = .list args := by
  cases b with
  | arithmetic op =>
      obtain ⟨v, hv, heq⟩ := value_of_map (f := id) h
      obtain ⟨n, rfl⟩ := Arithmetic.exists_number_of_call hv
      exact Or.inl (heq ▸ n.isScalar_toValue)
  | comparison rel =>
      obtain ⟨holds, -, heq⟩ := value_of_map (f := Value.boolean) h
      exact Or.inl (heq ▸ rfl)
  | equal =>
      obtain ⟨vs, -, heq⟩ := value_of_map (f := fun vs : Value × Value => .boolean (vs.1 == vs.2)) h
      exact Or.inl (heq ▸ rfl)
  | isList =>
      obtain ⟨v, -, heq⟩ := value_of_map (f := fun v => .boolean (listness v)) h
      exact Or.inl (heq ▸ rfl)
  | isEmpty =>
      obtain ⟨e, -, heq⟩ := value_of_map (f := Value.boolean) h
      exact Or.inl (heq ▸ rfl)
  | count =>
      obtain ⟨n, -, heq⟩ := value_of_map (f := Value.integer) h
      exact Or.inl (heq ▸ rfl)
  | list =>
      cases h
      exact Or.inr rfl
  | printString | string | printReadable | printRaw =>
      cases h
      exact Or.inl rfl

end Builtin

/-! ## Errors -/

/-- The error is about some arguments: one of them is of the wrong type, they are too few or too many, or there is no
such number as they ask for. -/
def EvalError.Blames (args : List Value) : EvalError → Prop
  | wrongType _ _ got                                              => got ∈ args
  | wrongCount _ _ _ | divisionByZero _ | integerOverflow _        => True
  | symbolNotFound _ | notAFunction _ | malformed _                => False

/-- The result is no error, or one about these arguments. -/
def BlamesOnly {α : Type} (args : List Value) (r : Except EvalError α) : Prop := ∀ e, r = .error e → e.Blames args

namespace BlamesOnly

variable {α β : Type} {args : List Value}

theorem ok (a : α) : BlamesOnly args (.ok a) := nofun

theorem error {e : EvalError} (he : e.Blames args) : BlamesOnly args (.error e : Except EvalError α) :=
  fun _ heq => Except.error.inj heq ▸ he

theorem bind {r : Except EvalError α} {f : α → Except EvalError β} (hr : BlamesOnly args r)
    (hf : ∀ a, r = .ok a → BlamesOnly args (f a)) : BlamesOnly args (r.bind f) := by
  cases r with
  | error e => exact error (hr e rfl)
  | ok a    => exact hf a rfl

theorem map {r : Except EvalError α} (hr : BlamesOnly args r) (f : α → β) : BlamesOnly args (r.map f) := by
  cases r with
  | error e => exact error (hr e rfl)
  | ok a    => exact ok (f a)

end BlamesOnly

variable {args : List Value}

theorem Number.blamesOnly_ofArgument (function : String) {v : Value} (hv : v ∈ args) :
    BlamesOnly args (ofArgument function v) := by
  cases v with
  | integer n => exact BlamesOnly.ok _
  | float x   => exact BlamesOnly.ok _
  | _         => exact BlamesOnly.error hv

namespace Arithmetic

theorem blamesOnly_combine (op : Arithmetic) (a b : Number) : BlamesOnly args (op.combine a b) := by
  unfold combine
  split
  · split
    · exact BlamesOnly.error trivial
    · split
      · exact BlamesOnly.ok _
      · exact BlamesOnly.error trivial
  · exact BlamesOnly.ok _

theorem blamesOnly_fold (op : Arithmetic) (acc : Number) {rest : List Value} (hrest : rest ⊆ args) :
    BlamesOnly args (op.fold acc rest) := by
  fun_induction fold op acc rest with
  | case1 acc => exact BlamesOnly.ok _
  | case2 acc arg rest e he =>
      obtain ⟨harg, -⟩ := List.cons_subset.mp hrest
      exact BlamesOnly.error (Number.blamesOnly_ofArgument op.name harg e he)
  | case3 acc arg rest n hn e he => exact BlamesOnly.error (blamesOnly_combine op acc n e he)
  | case4 acc arg rest n hn next hnext ih =>
      obtain ⟨-, hrest⟩ := List.cons_subset.mp hrest
      exact ih hrest

theorem blamesOnly_call (op : Arithmetic) (args : List Value) : BlamesOnly args (op.call args) := by
  unfold call
  split
  · exact blamesOnly_fold op _ (List.Subset.refl args)
  · split
    · exact BlamesOnly.error trivial
    · exact blamesOnly_fold op _ (List.Subset.refl _)
    · rename_i first rest _
      split
      · rename_i e he
        exact BlamesOnly.error (Number.blamesOnly_ofArgument op.name List.mem_cons_self e he)
      · exact blamesOnly_fold op _ (List.subset_cons_self first rest)

end Arithmetic

namespace Builtin

theorem blamesOnly_oneArgument (b : Builtin) (args : List Value) : BlamesOnly args (b.oneArgument args) := by
  unfold oneArgument
  split
  · exact BlamesOnly.ok _
  · exact BlamesOnly.error trivial

theorem blamesOnly_twoArguments (b : Builtin) (args : List Value) : BlamesOnly args (b.twoArguments args) := by
  unfold twoArguments
  split
  · exact BlamesOnly.ok _
  · exact BlamesOnly.error trivial

theorem mem_of_oneArgument {b : Builtin} {v : Value} (h : b.oneArgument args = .ok v) : v ∈ args := by
  unfold oneArgument at h
  split at h
  · cases h
    exact List.mem_singleton_self v
  · cases h

theorem mem_of_twoArguments {b : Builtin} {v w : Value} (h : b.twoArguments args = .ok (v, w)) :
    v ∈ args ∧ w ∈ args := by
  unfold twoArguments at h
  split at h
  · cases h
    exact ⟨by simp, by simp⟩
  · cases h

theorem blamesOnly_compare (rel : Comparison) (args : List Value) : BlamesOnly args (compare rel args) := by
  refine (blamesOnly_twoArguments _ args).bind fun vs hvs => ?_
  obtain ⟨hfirst, hsecond⟩ := mem_of_twoArguments hvs
  refine (Number.blamesOnly_ofArgument _ hfirst).bind fun _ _ => ?_
  exact (Number.blamesOnly_ofArgument _ hsecond).bind fun _ _ => BlamesOnly.ok _

theorem blamesOnly_countOf {v : Value} (hv : v ∈ args) : BlamesOnly args (countOf v) := by
  unfold countOf
  split
  · exact BlamesOnly.ok _
  · split
    · exact BlamesOnly.ok _
    · exact BlamesOnly.error hv

theorem blamesOnly_emptinessOf {v : Value} (hv : v ∈ args) : BlamesOnly args (emptinessOf v) := by
  unfold emptinessOf
  split
  · exact BlamesOnly.ok _
  · exact BlamesOnly.error hv

/-- **A builtin refuses nothing but its arguments.** -/
theorem blamesOnly_call (b : Builtin) (args : List Value) : BlamesOnly args (b.call args) := by
  cases b with
  | arithmetic op  => exact (op.blamesOnly_call args).map _
  | comparison rel => exact (blamesOnly_compare rel args).map _
  | equal          => exact (blamesOnly_twoArguments equal args).map _
  | isList         => exact (blamesOnly_oneArgument isList args).map _
  | isEmpty =>
      have hone := blamesOnly_oneArgument isEmpty args
      exact (hone.bind fun v hv => blamesOnly_emptinessOf (mem_of_oneArgument hv)).map _
  | count =>
      have hone := blamesOnly_oneArgument count args
      exact (hone.bind fun v hv => blamesOnly_countOf (mem_of_oneArgument hv)).map _
  | _ => exact BlamesOnly.ok _

end Builtin

end SmallLisp
