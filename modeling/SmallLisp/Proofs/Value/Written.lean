import SmallLisp.Value.Print

/-!
# `SmallLisp.Proofs.Value.Written` — what the text of a value leaves out

Two things about a value cannot be told from its text. A form under a mark is written as a list, and the entries of
a map come in one order of many. So the text of a value stands for the value without its marks, `Value.desugar`,
and it may be the text of any value that differs in the order of entries only, `Reordered`.

## Contents
* **Occurrences** `Occurs`: the parts of a value, at any depth.
* **Marks** `Value.desugar`, which leaves a value without marks alone (`desugar_eq_self`).
* **Orders of entries** `Reordered`, with its inversions.
-/

namespace SmallLisp

/-! ## Occurrences -/

/-- A value is another one, or a part of it, at any depth. Functions have no parts. -/
inductive Occurs (u : Value) : Value → Prop where
  | self : Occurs u u
  | list {v : Value} {items : List Value} : v ∈ items → Occurs u v → Occurs u (.list items)
  | vector {v : Value} {items : List Value} : v ∈ items → Occurs u v → Occurs u (.vector items)
  | map {e : String × Value} {entries : List (String × Value)} :
      e ∈ entries → Occurs u e.2 → Occurs u (.map entries)
  | marked {m : Mark} {v : Value} : Occurs u v → Occurs u (.marked m v)

/-! ## Marks -/

namespace Value

mutual

/-- A value with every form under a mark turned into the list that the mark abbreviates. -/
def desugar : Value → Value
  | list items    => list (desugarItems items)
  | vector items  => vector (desugarItems items)
  | map entries   => map (desugarEntries entries)
  | marked m form => list [symbol m.name, desugar form]
  | v             => v

/-- Some values without their marks. -/
def desugarItems : List Value → List Value
  | []            => []
  | item :: items => desugar item :: desugarItems items

/-- Some entries with their values without marks. -/
def desugarEntries : List (String × Value) → List (String × Value)
  | []                    => []
  | (key, value) :: rest  => (key, desugar value) :: desugarEntries rest

end

theorem desugarItems_eq_map (items : List Value) : desugarItems items = items.map desugar := by
  induction items with
  | nil => rfl
  | cons item items ih => rw [desugarItems, ih, List.map_cons]

theorem desugarEntries_eq_map (entries : List (String × Value)) :
    desugarEntries entries = entries.map fun e => (e.1, desugar e.2) := by
  induction entries with
  | nil => rfl
  | cons e entries ih => rw [desugarEntries, ih, List.map_cons]

mutual

/-- A value in which no mark occurs stays as it is. -/
theorem desugar_eq_self {v : Value} (h : ∀ m u, ¬ Occurs (.marked m u) v) : desugar v = v := by
  cases v with
  | list items =>
      rw [desugar, desugarItems_eq_self fun v hv m u hu => h m u (Occurs.list hv hu)]
  | vector items =>
      rw [desugar, desugarItems_eq_self fun v hv m u hu => h m u (Occurs.vector hv hu)]
  | map entries =>
      rw [desugar, desugarEntries_eq_self fun e he m u hu => h m u (Occurs.map he hu)]
  | marked m form => exact absurd Occurs.self (h m form)
  | _ => simp [desugar]

theorem desugarItems_eq_self {items : List Value} (h : ∀ v ∈ items, ∀ m u, ¬ Occurs (.marked m u) v) :
    desugarItems items = items := by
  cases items with
  | nil => rw [desugarItems]
  | cons item items =>
      rw [desugarItems, desugar_eq_self (h item List.mem_cons_self),
        desugarItems_eq_self fun v hv => h v (List.mem_cons_of_mem _ hv)]

theorem desugarEntries_eq_self {entries : List (String × Value)}
    (h : ∀ e ∈ entries, ∀ m u, ¬ Occurs (.marked m u) e.2) : desugarEntries entries = entries := by
  cases entries with
  | nil => rw [desugarEntries]
  | cons e entries =>
      rw [desugarEntries, desugar_eq_self (h e List.mem_cons_self),
        desugarEntries_eq_self fun e' he' => h e' (List.mem_cons_of_mem _ he')]

end

end Value

/-! ## Orders of entries -/

mutual

/-- The second value is the first one with the entries of its maps in another order, at any depth. -/
inductive Reordered : Value → Value → Prop where
  | same (v : Value) : Reordered v v
  | list {vs ws : List Value} : ReorderedItems vs ws → Reordered (.list vs) (.list ws)
  | vector {vs ws : List Value} : ReorderedItems vs ws → Reordered (.vector vs) (.vector ws)
  /-- The entries are put into another order, and then the value of each is reordered. -/
  | map {es fs gs : List (String × Value)} :
      es.Perm fs → ReorderedEntries fs gs → Reordered (.map es) (.map gs)
  | marked (m : Mark) {v w : Value} : Reordered v w → Reordered (.marked m v) (.marked m w)

/-- Each of the second values is the one in its place of the first values, reordered. -/
inductive ReorderedItems : List Value → List Value → Prop where
  | nil : ReorderedItems [] []
  | cons {v w : Value} {vs ws : List Value} :
      Reordered v w → ReorderedItems vs ws → ReorderedItems (v :: vs) (w :: ws)

/-- The keys are the same, in the same order, and each value is reordered. -/
inductive ReorderedEntries : List (String × Value) → List (String × Value) → Prop where
  | nil : ReorderedEntries [] []
  | cons (key : String) {v w : Value} {fs gs : List (String × Value)} :
      Reordered v w → ReorderedEntries fs gs → ReorderedEntries ((key, v) :: fs) ((key, w) :: gs)

end

theorem ReorderedItems.refl (vs : List Value) : ReorderedItems vs vs := by
  induction vs with
  | nil => exact ReorderedItems.nil
  | cons v vs ih => exact ReorderedItems.cons (Reordered.same v) ih

theorem ReorderedEntries.refl (es : List (String × Value)) : ReorderedEntries es es := by
  induction es with
  | nil => exact ReorderedEntries.nil
  | cons e es ih => exact ReorderedEntries.cons e.1 (Reordered.same e.2) ih

namespace Reordered

theorem of_list {vs : List Value} {w : Value} (h : Reordered (.list vs) w) :
    ∃ ws, w = .list ws ∧ ReorderedItems vs ws := by
  cases h with
  | same => exact ⟨vs, rfl, ReorderedItems.refl vs⟩
  | list hitems => exact ⟨_, rfl, hitems⟩

theorem of_vector {vs : List Value} {w : Value} (h : Reordered (.vector vs) w) :
    ∃ ws, w = .vector ws ∧ ReorderedItems vs ws := by
  cases h with
  | same => exact ⟨vs, rfl, ReorderedItems.refl vs⟩
  | vector hitems => exact ⟨_, rfl, hitems⟩

theorem of_map {es : List (String × Value)} {w : Value} (h : Reordered (.map es) w) :
    ∃ fs gs, w = .map gs ∧ es.Perm fs ∧ ReorderedEntries fs gs := by
  cases h with
  | same => exact ⟨es, es, rfl, List.Perm.refl es, ReorderedEntries.refl es⟩
  | map hperm hentries => exact ⟨_, _, rfl, hperm, hentries⟩

theorem of_marked {m : Mark} {v w : Value} (h : Reordered (.marked m v) w) :
    ∃ w', w = .marked m w' ∧ Reordered v w' := by
  cases h with
  | same => exact ⟨v, rfl, Reordered.same v⟩
  | marked _ hform => exact ⟨_, rfl, hform⟩

end Reordered

end SmallLisp
