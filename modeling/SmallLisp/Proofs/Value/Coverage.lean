import SmallLisp.Proofs.Eval.Respelling

/-!
# `SmallLisp.Proofs.Value.Coverage` — forms that look up known names only

A form is covered by some names if every symbol that an evaluation of it could look up is among them. This is read
off the form, without evaluating it: quoted parts look nothing up, `let*` and `fn*` lists bring names of their own,
and of a template only the operands of its holes are evaluated.

## Contents
* **Reachable parameters** `Params.reachable`: a call with enough arguments binds them (`Params.map_fst_bindings`).
* **Coverage** `Value.covered`, by a rule for each special form and for templates.
* **Parts** of what is covered: `forall_covered`, `covered_operand`, `coveredHoles_whole`.
* **More names** cover what fewer do: `Value.covered_mono`.
-/

namespace SmallLisp

/-! ## Reachable parameters -/

/-- The parameters that a call binds: those before the marker and the one right after it. -/
def Params.reachable (params : List String) : List String :=
  fixed params ++ (fromMarker params).tail.take 1

/-- A call with enough arguments binds exactly the reachable parameters. -/
theorem Params.map_fst_bindings {params : List String} {args : List Value}
    (h : (fixed params).length ≤ args.length) : (bindings params args).map Prod.fst = reachable params := by
  induction params generalizing args with
  | nil => rfl
  | cons param params ih =>
      unfold bindings
      by_cases hparam : param = restMarker
      · rw [if_pos hparam]
        cases params <;> simp [reachable, fixed, fromMarker, hparam]
      · have hfixed : fixed (param :: params) = param :: fixed params := by simp [fixed, hparam]
        have hreachable : reachable (param :: params) = param :: reachable params := by
          simp [reachable, fixed, fromMarker, hparam]
        rw [if_neg hparam, hreachable]
        cases args with
        | nil => simp [hfixed] at h
        | cons arg args =>
            rw [hfixed] at h
            rw [List.map_cons, ih (Nat.le_of_succ_le_succ h)]

theorem Params.length_fixed_le {params : List String} {n : Nat} (h : (arity params).accepts n) :
    (fixed params).length ≤ n := by
  unfold arity at h
  split at h
  · exact of_decide_eq_true h
  · have hlength : n = params.length := by simpa [Arity.accepts] using h
    rw [hlength]
    exact (List.takeWhile_sublist _).length_le

/-! ## Coverage -/

namespace Value

/-- The names that a binding list binds, the last one first. -/
def boundNames : List Value → List String
  | target :: _ :: rest => boundNames rest ++ target.symbol?.toList
  | _                   => []

mutual

/-- Whether some names cover a form: whether they are all that an evaluation of it could look up. -/
def covered (names : List String) : Value → Bool
  | symbol name             => name ∈ names
  | vector items            => coveredItems names items
  | map entries             => coveredEntries names entries
  | list items              => coveredList names items
  | marked .quasiquote form => coveredHoles names .whole form
  | _                       => true

/-- Whether the names cover all of some forms. -/
def coveredItems (names : List String) : List Value → Bool
  | []            => true
  | item :: items => covered names item && coveredItems names items

/-- Whether the names cover the values of all entries. -/
def coveredEntries (names : List String) : List (String × Value) → Bool
  | []                    => true
  | (_, value) :: entries => covered names value && coveredEntries names entries

/-- Whether the names cover a list: a special form or a call. -/
def coveredList (names : List String) : List Value → Bool
  | []            => true
  | head :: parts =>
    match Eval.specialHead? head with
    | some special => coveredSpecial names special parts
    | none         => covered names head && coveredItems names parts

/-- Whether the names cover a special form with its parts. -/
def coveredSpecial (names : List String) : SpecialForm → List Value → Bool
  | .define, [_, form]         => covered names form
  | .letIn, [bindings, body]   =>
    match bindings.items? with
    | some items => coveredBinder names bindings && covered (boundNames items ++ names) body
    | none       => true
  | .sequence, part :: parts   => covered names part && coveredItems names parts
  | .conditional, part :: parts => covered names part && coveredItems names parts
  | .function, [params, body]  =>
    match params.items? with
    | some items => covered (Params.reachable (items.filterMap symbol?) ++ names) body
    | none       => true
  | .quasiquote, [form]        => coveredHoles names .whole form
  -- Nothing is looked up in a quoted form, nor in a list of the wrong shape.
  | _, _                       => true

/-- Whether the names cover the second of two forms. -/
def coveredSecond (names : List String) : List Value → Bool
  | [_, form] => covered names form
  | _         => true

/-- Whether the names cover the values in a binding list. -/
def coveredBinder (names : List String) : Value → Bool
  | list items   => coveredBindings names items
  | vector items => coveredBindings names items
  | _            => true

/-- Whether the names cover the values of some bindings, each together with the names bound before it. -/
def coveredBindings (names : List String) : List Value → Bool
  | target :: form :: rest => covered names form && coveredBindings (target.symbol?.toList ++ names) rest
  | _                      => true

/-- Whether the names cover the operands of all holes in a template. -/
def coveredHoles (names : List String) (p : Place) : Value → Bool
  | marked m form =>
    if m ∈ p.holes then covered names form else m == .spliceUnquote || coveredHoles names .whole form
  | list items    =>
    -- The operand of a hole is its second element, taken from the list itself so that the recursion is structural.
    if p.holes.any fun m => ((list items).operand? m).isSome then coveredSecond names items
    else coveredHolesItems names items
  | vector items  => coveredHolesItems names items
  | _             => true

/-- Whether the names cover the operands of all holes in the elements of a list or a vector. -/
def coveredHolesItems (names : List String) : List Value → Bool
  | []            => true
  | item :: items => coveredHoles names .element item && coveredHolesItems names items

end

/-! ## Parts -/

variable {names : List String}

theorem forall_covered {items : List Value} (h : coveredItems names items) : ∀ item ∈ items, item.covered names := by
  induction items with
  | nil => exact nofun
  | cons item items ih =>
      simp only [coveredItems, Bool.and_eq_true] at h
      exact List.forall_mem_cons.mpr ⟨h.1, ih h.2⟩

theorem forall_coveredEntries {entries : List (String × Value)} (h : coveredEntries names entries) :
    ∀ e ∈ entries, e.2.covered names := by
  induction entries with
  | nil => exact nofun
  | cons e entries ih =>
      simp only [coveredEntries, Bool.and_eq_true] at h
      exact List.forall_mem_cons.mpr ⟨h.1, ih h.2⟩

theorem coveredBinder_of_items? {v : Value} {items : List Value} (h : v.items? = some items) :
    coveredBinder names v = coveredBindings names items := by
  cases v with
  | list _   => cases h; rfl
  | vector _ => cases h; rfl
  | _        => cases h

/-- The operand of a hole is covered, in either spelling. -/
theorem covered_operand {p : Place} {m : Mark} {t operand : Value} (hm : m ∈ p.holes)
    (hoperand : t.operand? m = some operand) (h : coveredHoles names p t) : operand.covered names := by
  rcases operand?_eq_some_iff.mp hoperand with rfl | rfl
  · rwa [coveredHoles, if_pos hm] at h
  · have hhole : p.holes.any fun m' => ((list [symbol m.name, operand]).operand? m').isSome :=
      List.any_eq_true.mpr ⟨m, hm, by rw [hoperand]; rfl⟩
    rwa [coveredHoles, if_pos hhole] at h

/-- An element that is no splice is filled as a template of its own would be. -/
theorem coveredHoles_whole {t : Value} (hsplice : t.operand? .spliceUnquote = none)
    (h : coveredHoles names .element t) : coveredHoles names .whole t := by
  cases t with
  | marked m form =>
      have hm : m ≠ .spliceUnquote := by
        rintro rfl
        cases hsplice
      simpa [coveredHoles, Place.holes, hm] using h
  | list items => simpa [coveredHoles, Place.holes, hsplice] using h
  | _ => exact h

/-- A list that is not an unquote is filled element by element. -/
theorem coveredHolesItems_of_list {items : List Value} (hunquote : (list items).operand? .unquote = none)
    (h : coveredHoles names .whole (list items)) : coveredHolesItems names items := by
  simpa [coveredHoles, Place.holes, hunquote] using h

/-! ## More names -/

theorem bound_subset {names names' : List String} (h : names ⊆ names') (bound : List String) :
    bound ++ names ⊆ bound ++ names' :=
  List.append_subset.mpr ⟨List.subset_append_left _ _, List.subset_append_of_subset_right _ h⟩

mutual

/-- A form is covered by more names than it needs. -/
theorem covered_mono {names names' : List String} (h : names ⊆ names') :
    ∀ v : Value, v.covered names → v.covered names'
  | symbol name, hv => by
      simp only [covered, decide_eq_true_eq] at hv ⊢
      exact h hv
  | vector items, hv => coveredItems_mono h items hv
  | map entries, hv => coveredEntries_mono h entries hv
  | list items, hv => coveredList_mono h items hv
  | marked .quasiquote form, hv => coveredHoles_mono h .whole form hv
  | marked .quote _, _ | marked .unquote _, _ | marked .spliceUnquote _, _ | nil, _ | boolean _, _ | integer _, _
  | float _, _ | string _, _ | keyword _, _ | builtin _, _ | closure _ _ _, _ => rfl

theorem coveredItems_mono {names names' : List String} (h : names ⊆ names') :
    ∀ items : List Value, coveredItems names items → coveredItems names' items
  | [], _ => rfl
  | item :: items, hitems => by
      simp only [coveredItems, Bool.and_eq_true] at hitems ⊢
      exact ⟨covered_mono h item hitems.1, coveredItems_mono h items hitems.2⟩

theorem coveredEntries_mono {names names' : List String} (h : names ⊆ names') :
    ∀ entries : List (String × Value), coveredEntries names entries → coveredEntries names' entries
  | [], _ => rfl
  | (_, value) :: entries, hentries => by
      simp only [coveredEntries, Bool.and_eq_true] at hentries ⊢
      exact ⟨covered_mono h value hentries.1, coveredEntries_mono h entries hentries.2⟩

theorem coveredList_mono {names names' : List String} (h : names ⊆ names') :
    ∀ items : List Value, coveredList names items → coveredList names' items
  | [], _ => rfl
  | head :: parts, hitems => by
      unfold coveredList at hitems ⊢
      cases hspecial : Eval.specialHead? head with
      | some special =>
          rw [hspecial] at hitems
          exact coveredSpecial_mono h special parts hitems
      | none =>
          rw [hspecial] at hitems
          simp only [Bool.and_eq_true] at hitems ⊢
          exact ⟨covered_mono h head hitems.1, coveredItems_mono h parts hitems.2⟩

theorem coveredSpecial_mono {names names' : List String} (h : names ⊆ names') :
    ∀ (special : SpecialForm) (parts : List Value),
      coveredSpecial names special parts → coveredSpecial names' special parts
  | .define, [_, form], hparts => covered_mono h form hparts
  | .letIn, [bindings, body], hparts => by
      simp only [coveredSpecial] at hparts ⊢
      cases hitems : bindings.items? with
      | none => rfl
      | some items =>
          simp only [hitems, Bool.and_eq_true] at hparts ⊢
          exact ⟨coveredBinder_mono h bindings hparts.1, covered_mono (bound_subset h _) body hparts.2⟩
  | .sequence, part :: parts, hparts => by
      simp only [coveredSpecial, Bool.and_eq_true] at hparts ⊢
      exact ⟨covered_mono h part hparts.1, coveredItems_mono h parts hparts.2⟩
  | .conditional, part :: parts, hparts => by
      simp only [coveredSpecial, Bool.and_eq_true] at hparts ⊢
      exact ⟨covered_mono h part hparts.1, coveredItems_mono h parts hparts.2⟩
  | .function, [params, body], hparts => by
      simp only [coveredSpecial] at hparts ⊢
      cases hitems : params.items? with
      | none => rfl
      | some items =>
          simp only [hitems] at hparts ⊢
          exact covered_mono (bound_subset h _) body hparts
  | .quasiquote, [form], hparts => coveredHoles_mono h .whole form hparts
  | .define, [], _ | .define, [_], _ | .define, _ :: _ :: _ :: _, _ => rfl
  | .letIn, [], _ | .letIn, [_], _ | .letIn, _ :: _ :: _ :: _, _ => rfl
  | .function, [], _ | .function, [_], _ | .function, _ :: _ :: _ :: _, _ => rfl
  | .quasiquote, [], _ | .quasiquote, _ :: _ :: _, _ => rfl
  | .sequence, [], _ | .conditional, [], _ | .quote, [], _ | .quote, _ :: _, _ => rfl

theorem coveredSecond_mono {names names' : List String} (h : names ⊆ names') :
    ∀ parts : List Value, coveredSecond names parts → coveredSecond names' parts
  | [_, form], hparts => covered_mono h form hparts
  | [], _ | [_], _ | _ :: _ :: _ :: _, _ => rfl

theorem coveredBinder_mono {names names' : List String} (h : names ⊆ names') :
    ∀ v : Value, coveredBinder names v → coveredBinder names' v
  | list items, hv => coveredBindings_mono h items hv
  | vector items, hv => coveredBindings_mono h items hv
  | nil, _ | boolean _, _ | integer _, _ | float _, _ | string _, _ | keyword _, _ | symbol _, _ | map _, _
  | builtin _, _ | closure _ _ _, _ | marked _ _, _ => rfl

theorem coveredBindings_mono {names names' : List String} (h : names ⊆ names') :
    ∀ items : List Value, coveredBindings names items → coveredBindings names' items
  | target :: form :: rest, hitems => by
      simp only [coveredBindings, Bool.and_eq_true] at hitems ⊢
      exact ⟨covered_mono h form hitems.1, coveredBindings_mono (bound_subset h _) rest hitems.2⟩
  | [], _ | [_], _ => rfl

theorem coveredHoles_mono {names names' : List String} (h : names ⊆ names') (p : Place) :
    ∀ v : Value, coveredHoles names p v → coveredHoles names' p v
  | marked m form, hv => by
      unfold coveredHoles at hv ⊢
      split
      · rename_i hm
        rw [if_pos hm] at hv
        exact covered_mono h form hv
      · rename_i hm
        rw [if_neg hm, Bool.or_eq_true] at hv
        rw [Bool.or_eq_true]
        exact hv.imp_right (coveredHoles_mono h .whole form)
  | list items, hv => by
      unfold coveredHoles at hv ⊢
      split
      · rename_i hhole
        rw [if_pos hhole] at hv
        exact coveredSecond_mono h items hv
      · rename_i hhole
        rw [if_neg hhole] at hv
        exact coveredHolesItems_mono h items hv
  | vector items, hv => coveredHolesItems_mono h items hv
  | nil, _ | boolean _, _ | integer _, _ | float _, _ | string _, _ | keyword _, _ | symbol _, _ | map _, _
  | builtin _, _ | closure _ _ _, _ => rfl

theorem coveredHolesItems_mono {names names' : List String} (h : names ⊆ names') :
    ∀ items : List Value, coveredHolesItems names items → coveredHolesItems names' items
  | [], _ => rfl
  | item :: items, hitems => by
      simp only [coveredHolesItems, Bool.and_eq_true] at hitems ⊢
      exact ⟨coveredHoles_mono h .element item hitems.1, coveredHolesItems_mono h items hitems.2⟩

end

end Value

end SmallLisp
