import SmallLisp.Proofs.Entries
import SmallLisp.Proofs.Frame
import SmallLisp.Proofs.Value.Mentions

/-!
# `SmallLisp.Proofs.Store` — what is seen in a store

A store is seen through three questions: whether there is a scope, which scope is around it, and what it binds
itself. Every operation answers each of them by one equation, and the value of a name as seen from a scope depends
on nothing else (`Store.get?_of_alike`).

## Contents
* **Questions.** `Has`, `outer?` and `own?` after `newScope` and after `set`.
* **Several bindings** `own?_setAll`, `scope?_setAll_of_ne`.
* **Look-ups** through the chain of scopes: `exists_own?_of_get?`, and `get?_of_alike` for two stores that give
  the same answers up to the numbers of scopes.
* **Bindings in either order** `set_comm`, `newScope_set`.
* **Properties of all that is bound** `OnlyBinds`.
-/

namespace SmallLisp

/-- Two keys may be given their values in either order. -/
theorem Entries.insert_comm {α : Type} {k l : String} (hne : k ≠ l) (v w : α) (es : Entries α) :
    (es.insert k v).insert l w = (es.insert l w).insert k v := by
  induction es with
  | nil => grind [insert, String.lt_trans, String.not_lt, String.le_antisymm]
  | cons e es ih => grind [insert, String.lt_trans, String.not_lt, String.le_antisymm]

namespace Store

variable {st a b : Store} {s o : ScopeId}

/-! ## Questions -/

/-- The store has a scope of that number. -/
def Has (st : Store) (s : ScopeId) : Prop := s.index < st.scopes.size

instance (st : Store) (s : ScopeId) : Decidable (st.Has s) := inferInstanceAs (Decidable (_ < _))

theorem has_iff_exists_scope? : st.Has s ↔ ∃ sc, st.scope? s = some sc := by
  rw [Has, ← Option.isSome_iff_exists, scope?]
  simp

theorem scope?_eq_none (h : ¬ st.Has s) : st.scope? s = none := Array.getElem?_eq_none (Nat.le_of_not_lt h)

theorem has_newScope {outer : Option ScopeId} : (st.newScope outer).Has s ↔ st.Has s ∨ s = st.nextId := by
  obtain ⟨i⟩ := s
  simp only [Has, newScope, nextId, Array.size_push, ScopeId.mk.injEq]
  omega

theorem has_set {name : String} {v : Value} : (st.set o name v).Has s ↔ st.Has s := by
  simp only [Has, set, Array.size_modify]

theorem nextId_set {name : String} {v : Value} : (st.set o name v).nextId = st.nextId := by
  simp only [nextId, set, Array.size_modify]

theorem outer?_newScope (outer : Option ScopeId) :
    (st.newScope outer).outer? s = if s = st.nextId then outer else st.outer? s := by
  rw [outer?, scope?_newScope]
  split
  · rfl
  · rfl

theorem outer?_set (name : String) (v : Value) : (st.set o name v).outer? s = st.outer? s := by
  rw [outer?, scope?_set, outer?]
  cases st.scope? s with
  | none    => rfl
  | some sc =>
      rw [Option.map_some]
      split
      · rfl
      · rfl

/-- A scope made anew binds nothing, like one that is not there. -/
theorem own?_newScope (outer : Option ScopeId) (name : String) :
    (st.newScope outer).own? s name = st.own? s name := by
  rw [own?, scope?_newScope, own?]
  split
  · rename_i hs
    rw [hs, scope?_nextId]
    rfl
  · rfl

theorem own?_set (name k : String) (v : Value) :
    (st.set o name v).own? s k = if o = s ∧ name = k ∧ st.Has s then some v else st.own? s k := by
  rw [own?, scope?_set, own?]
  by_cases hhas : st.Has s
  · obtain ⟨sc, hsc⟩ := has_iff_exists_scope?.mp hhas
    rw [hsc, Option.map_some, Option.bind_some, Option.bind_some]
    by_cases hs : o = s
    · rw [if_pos hs, Entries.find?_insert]
      simp [hs, hhas]
    · simp [hs]
  · rw [scope?_eq_none hhas]
    simp [hhas]

theorem own?_eq_none (h : ¬ st.Has s) (name : String) : st.own? s name = none := by
  rw [own?, scope?_eq_none h, Option.bind_none]

/-! ## Several bindings -/

/-- Of several values for a name the last one is bound. -/
theorem own?_setAll (hs : st.Has s) (bindings : List (String × Value)) (name : String) :
    (st.setAll s bindings).own? s name = (Entries.find? name bindings.reverse).or (st.own? s name) := by
  induction bindings generalizing st with
  | nil => rfl
  | cons e bindings ih =>
      rw [setAll, List.foldl_cons]
      change ((st.set s e.1 e.2).setAll s bindings).own? s name = _
      rw [ih (has_set.mpr hs), own?_set, List.reverse_cons, Entries.find?_append, Option.or_assoc]
      simp only [Entries.find?, hs, and_true, true_and]
      split <;> simp

/-- A scope made anew with some bindings. -/
theorem own?_newScope_setAll (s : ScopeId) (st : Store) (bindings : List (String × Value)) (name : String) :
    ((st.newScope (some s)).setAll st.nextId bindings).own? st.nextId name =
      Entries.find? name bindings.reverse := by
  have hnew : (st.newScope (some s)).Has st.nextId := has_newScope.mpr (Or.inr rfl)
  have hfresh : ¬ st.Has st.nextId := Nat.lt_irrefl _
  rw [own?_setAll hnew, own?_newScope, own?_eq_none hfresh, Option.or_none]

/-- A scope made anew with some bindings binds their names. -/
theorem exists_own?_newScope_setAll_iff {bindings : List (String × Value)} {name : String} :
    (∃ v, ((st.newScope (some s)).setAll st.nextId bindings).own? st.nextId name = some v) ↔
      name ∈ bindings.map Prod.fst := by
  rw [own?_newScope_setAll, Entries.exists_find?_iff, Entries.keys, List.map_reverse, List.mem_reverse]

theorem has_setAll {bindings : List (String × Value)} : (st.setAll o bindings).Has s ↔ st.Has s := by
  induction bindings generalizing st with
  | nil => exact Iff.rfl
  | cons e bindings ih => exact Iff.trans ih has_set

theorem nextId_setAll {bindings : List (String × Value)} : (st.setAll o bindings).nextId = st.nextId := by
  induction bindings generalizing st with
  | nil => rfl
  | cons e bindings ih => exact ih.trans nextId_set

theorem outer?_setAll (st : Store) (s o : ScopeId) (bindings : List (String × Value)) :
    (st.setAll s bindings).outer? o = st.outer? o := by
  induction bindings generalizing st with
  | nil => rfl
  | cons e bindings ih => exact (ih (st.set s e.1 e.2)).trans (outer?_set e.1 e.2)

theorem scope?_setAll_of_ne {s o : ScopeId} (ho : o ≠ s) (st : Store) (bindings : List (String × Value)) :
    (st.setAll s bindings).scope? o = st.scope? o := by
  induction bindings generalizing st with
  | nil => rfl
  | cons e bindings ih =>
      apply (ih (st.set s e.1 e.2)).trans
      rw [scope?_set]
      simp [Ne.symm ho]

/-! ## Look-ups -/

/-- What a name means is bound somewhere. -/
theorem exists_own?_of_get? {name : String} {v : Value} (h : st.get? s name = some v) :
    ∃ o, st.own? o name = some v := by
  obtain ⟨o, -, hown⟩ := List.exists_of_findSome?_eq_some h
  exact ⟨o, hown⟩

variable {ρ : ScopeId → ScopeId}

theorem chain_of_alike (hlt : ∀ s o, (ρ s).index < (ρ o).index ↔ s.index < o.index)
    (houter : ∀ s, b.outer? (ρ s) = (a.outer? s).map ρ) (s : ScopeId) : b.chain (ρ s) = (a.chain s).map ρ := by
  obtain ⟨i⟩ := s
  show b.chainFrom (ρ ⟨i⟩).index = (a.chainFrom i).map ρ
  induction i using Nat.strongRecOn with
  | ind i ih =>
      rw [chainFrom, chainFrom, houter ⟨i⟩]
      cases a.outer? ⟨i⟩ with
      | none   => rfl
      | some o =>
          simp only [Option.map_some, hlt]
          split
          · rename_i hi
            rw [List.map_cons, ih o.index hi]
          · rfl

/-- **Look-ups depend on the answers only.** If two stores have the same scopes around every scope and the same
values for a name in every scope, up to the numbers of scopes and a change `f` of values, then they give the name
the same value everywhere. Numbers must keep their order, since a chain goes down only. -/
theorem get?_of_alike (hlt : ∀ s o, (ρ s).index < (ρ o).index ↔ s.index < o.index)
    (houter : ∀ s, b.outer? (ρ s) = (a.outer? s).map ρ) {f : Value → Value} {name : String}
    (hown : ∀ s, b.own? (ρ s) name = (a.own? s name).map f) (s : ScopeId) :
    b.get? (ρ s) name = (a.get? s name).map f := by
  rw [get?, get?, chain_of_alike hlt houter, List.findSome?_map, List.map_findSome?]
  congr 1
  exact funext hown

/-! ## Properties of all that is bound -/

/-- Everything that the values bound in a store mention has a property. -/
def OnlyBinds (p : Mention → Prop) (st : Store) : Prop :=
  ∀ s name v, st.own? s name = some v → v.OnlyMentions p

variable {p q : Mention → Prop}

theorem OnlyBinds.imp (h : st.OnlyBinds p) (hpq : ∀ m, p m → q m) : st.OnlyBinds q :=
  fun s name v hv => (h s name v hv).imp hpq

theorem OnlyBinds.get? (h : st.OnlyBinds p) {name : String} {v : Value} (hv : st.get? s name = some v) :
    v.OnlyMentions p := by
  obtain ⟨o, hown⟩ := exists_own?_of_get? hv
  exact h o name v hown

theorem onlyBinds_empty : empty.OnlyBinds p := by
  intro s name v hv
  rw [own?_eq_none (Nat.not_lt_zero _)] at hv
  cases hv

theorem OnlyBinds.newScope (h : st.OnlyBinds p) (outer : Option ScopeId) : (st.newScope outer).OnlyBinds p := by
  intro s name v hv
  rw [own?_newScope] at hv
  exact h s name v hv

theorem OnlyBinds.set (h : st.OnlyBinds p) {v : Value} (hv : v.OnlyMentions p) (o : ScopeId) (name : String) :
    (st.set o name v).OnlyBinds p := by
  intro s k w hw
  rw [own?_set] at hw
  split at hw
  · cases hw
    exact hv
  · exact h s k w hw

/-! ## Bindings in either order -/

theorem set_comm {x y : String} (hne : x ≠ y) (v w : Value) :
    (st.set s x v).set o y w = (st.set o y w).set s x v := by
  simp only [set, mk.injEq]
  apply Array.ext_getElem?
  intro i
  simp only [Array.getElem?_modify]
  cases st.scopes[i]? with
  | none    => simp
  | some sc =>
      by_cases hs : s.index = i <;> by_cases ho : o.index = i <;> simp [hs, ho, Entries.insert_comm hne]

/-- A binding in a scope that is there and a scope made anew do not meet. -/
theorem newScope_set (h : st.Has s) (outer : Option ScopeId) (x : String) (v : Value) :
    (st.set s x v).newScope outer = (st.newScope outer).set s x v := by
  simp only [Has, newScope, set, mk.injEq] at h ⊢
  apply Array.ext_getElem?
  intro i
  simp only [Array.getElem?_modify, Array.getElem?_push, Array.size_modify]
  split
  · rename_i hi
    rw [if_neg (by omega)]
  · rfl

end Store

end SmallLisp
