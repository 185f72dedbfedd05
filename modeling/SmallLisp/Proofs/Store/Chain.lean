import Mathlib.Logic.Relation
import SmallLisp.Proofs.Store

/-!
# `SmallLisp.Proofs.Store.Chain` — look-ups go outward

A scope is made inside one that is there already and is never moved, so the links from scopes to the scopes around
them lead back in time, whatever the scopes bind. A look-up follows these links until a scope binds the name, and it
ends, since there is no endless way back.

## Contents
* **Links that lead back** `Store.Descends`, and the links themselves, `Store.Inside`, which are well-founded then.
* **Look-ups** `Store.Finds`, which is what `Store.get?` computes: `Descends.get?_eq_some_iff`, and
  `Descends.get?_eq_none_iff` for names that are not found.
* **What a look-up depends on** are the scopes that it may come to (`Descends.get?_congr`).
-/

namespace SmallLisp.Store

open Relation (ReflTransGen)

variable {st a b : Store} {s o : ScopeId}

/-! ## Links that lead back -/

/-- A scope lies only inside scopes that were made before it: scopes are numbered in the order in which they are
made. -/
def Descends (st : Store) : Prop := ∀ s o, st.outer? s = some o → o.index < s.index

/-- The first scope lies directly inside the second one. -/
def Inside (st : Store) (s o : ScopeId) : Prop := st.outer? s = some o

theorem has_of_outer? (h : st.outer? s = some o) : st.Has s := by
  by_contra hs
  rw [outer?, scope?_eq_none hs] at h
  cases h

/-! ## Look-ups -/

/-- Of the scopes from `s` outward, the nearest that binds the name binds it to `v`. -/
inductive Finds (st : Store) (name : String) (v : Value) : ScopeId → Prop where
  | own {s : ScopeId} : st.own? s name = some v → Finds st name v s
  | outward {s o : ScopeId} :
      st.own? s name = none → st.outer? s = some o → Finds st name v o → Finds st name v s

namespace Descends

variable {name : String} {v : Value}

/-- Nothing lies inside itself, nor is there an endless way outward. -/
theorem wellFounded (h : st.Descends) : WellFounded fun o s => st.Inside s o :=
  Subrelation.wf (fun ho => h _ _ ho) (measure ScopeId.index).wf

theorem index_le (h : st.Descends) (ho : ReflTransGen st.Inside s o) : o.index ≤ s.index := by
  induction ho with
  | refl => exact Nat.le_refl _
  | tail _ hlink ih => exact Nat.le_trans (Nat.le_of_lt (h _ _ hlink)) ih

/-- A look-up goes from a scope to the scope around it. -/
theorem get?_eq (h : st.Descends) (s : ScopeId) (name : String) :
    st.get? s name = (st.own? s name).or ((st.outer? s).bind fun o => st.get? o name) := by
  rw [get?, chain, chainFrom]
  cases ho : st.outer? ⟨s.index⟩ with
  | none =>
      rw [List.findSome?_singleton, Option.bind_none, Option.or_none]
  | some o =>
      have hlt : o.index < s.index := h s o ho
      dsimp only
      rw [if_pos hlt, List.findSome?_cons, Option.bind_some, get?, chain]
      cases st.own? ⟨s.index⟩ name <;> rfl

/-- The value of a name is the one that it has in the nearest scope that binds it. -/
theorem get?_eq_some_iff (h : st.Descends) : st.get? s name = some v ↔ st.Finds name v s := by
  constructor
  · intro hget
    induction s using h.wellFounded.induction with
    | h s ih =>
        rw [h.get?_eq] at hget
        cases hown : st.own? s name with
        | some w =>
            rw [hown, Option.some_or] at hget
            cases hget
            exact Finds.own hown
        | none =>
            rw [hown, Option.none_or] at hget
            obtain ⟨o, ho, hget⟩ := Option.bind_eq_some_iff.mp hget
            exact Finds.outward hown ho (ih o ho hget)
  · intro hfinds
    induction hfinds with
    | own hown => rw [h.get?_eq, hown, Option.some_or]
    | outward hown ho _ ih => rw [h.get?_eq, hown, Option.none_or, ho, Option.bind_some, ih]

/-- A name has no value where no scope outward binds it. -/
theorem get?_eq_none_iff (h : st.Descends) :
    st.get? s name = none ↔ ∀ o, ReflTransGen st.Inside s o → st.own? o name = none := by
  constructor
  · intro hget o ho
    induction ho using ReflTransGen.head_induction_on with
    | refl =>
        rw [h.get?_eq, Option.or_eq_none_iff] at hget
        exact hget.1
    | head hlink _ ih =>
        rw [h.get?_eq, Option.or_eq_none_iff, show st.outer? _ = some _ from hlink] at hget
        exact ih hget.2
  · intro hnone
    induction s using h.wellFounded.induction with
    | h s ih =>
        rw [h.get?_eq, hnone s ReflTransGen.refl, Option.none_or, Option.bind_eq_none_iff]
        intro o ho
        exact ih o ho fun p hp => hnone p (hp.head ho)

/-- **A look-up depends on the scopes outward only.** -/
theorem get?_congr (ha : a.Descends) (hb : b.Descends)
    (h : ∀ o, ReflTransGen a.Inside s o → b.scope? o = a.scope? o) : b.get? s name = a.get? s name := by
  induction s using ha.wellFounded.induction with
  | h s ih =>
      have hscope : b.scope? s = a.scope? s := h s ReflTransGen.refl
      have hown : b.own? s name = a.own? s name := by rw [own?, own?, hscope]
      have houter : b.outer? s = a.outer? s := by rw [outer?, outer?, hscope]
      rw [ha.get?_eq, hb.get?_eq, hown, houter]
      cases ho : a.outer? s with
      | none   => rfl
      | some o => rw [Option.bind_some, Option.bind_some, ih o ho fun p hp => h p (hp.head ho)]

end Descends

end SmallLisp.Store
