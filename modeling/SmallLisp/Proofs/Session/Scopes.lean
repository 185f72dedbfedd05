import SmallLisp.Proofs.Eval.Repeat
import SmallLisp.Proofs.Session.Frame
import SmallLisp.Proofs.Session.Invariant
import SmallLisp.Proofs.Store.Chain

/-!
# `SmallLisp.Proofs.Session.Scopes` — every chain of scopes ends in the root

A closure can be bound in the very scope that it knows, so values and scopes are not well-founded in one another.
But the links from scopes to the scopes around them lead back in time (`SmallLisp.Proofs.Store.Chain`). In a session
they end in the root, the only scope that is inside none, and a look-up, which follows them, ends as well.

## Contents
* **Rooted stores** `Store.Rooted`, kept by every operation.
* **Chains** of links lead to the root (`Rooted.reaches_root`), and look-ups end there (`Rooted.get?_cases`).
* **The invariant** `Invariant.scopes`, and runs `Store.Step`.
* **The result** `scopes_end_in_root`, with a closure over a scope that is over.
-/

namespace SmallLisp

open Relation (ReflTransGen)

namespace Store

variable {st : Store} {root s o : ScopeId}

/-! ## Rooted stores -/

/-- The root is inside no scope, and every other scope is inside one that was made before it: scopes are numbered in
the order in which they are made. -/
structure Rooted (root : ScopeId) (st : Store) : Prop where
  has_root : st.Has root
  outer?_root : st.outer? root = none
  exists_outer : ∀ s, st.Has s → s ≠ root → ∃ o, st.outer? s = some o ∧ o.index < s.index

namespace Rooted

theorem lt_of_outer? (h : st.Rooted root) (ho : st.outer? s = some o) : o.index < s.index := by
  have hs : s ≠ root := by
    rintro rfl
    rw [h.outer?_root] at ho
    cases ho
  obtain ⟨o', ho', hlt⟩ := h.exists_outer s (has_of_outer? ho) hs
  rw [ho] at ho'
  cases ho'
  exact hlt

theorem has_outer (h : st.Rooted root) (ho : st.outer? s = some o) : st.Has o :=
  Nat.lt_trans (h.lt_of_outer? ho) (has_of_outer? ho)

theorem newScope (h : st.Rooted root) (ho : st.Has o) : (st.newScope (some o)).Rooted root := by
  have hroot : root ≠ st.nextId := by
    rintro rfl
    exact Nat.lt_irrefl _ h.has_root
  refine ⟨has_newScope.mpr (Or.inl h.has_root), ?_, fun s hs hne => ?_⟩
  · rw [outer?_newScope, if_neg hroot]
    exact h.outer?_root
  · rw [outer?_newScope]
    by_cases hnext : s = st.nextId
    · rw [if_pos hnext, hnext]
      exact ⟨o, rfl, ho⟩
    · rw [if_neg hnext]
      exact h.exists_outer s ((has_newScope.mp hs).resolve_right hnext) hne

theorem set (h : st.Rooted root) (o : ScopeId) (name : String) (v : Value) : (st.set o name v).Rooted root := by
  refine ⟨has_set.mpr h.has_root, ?_, fun s hs hne => ?_⟩
  · rw [outer?_set]
    exact h.outer?_root
  · rw [outer?_set]
    exact h.exists_outer s (has_set.mp hs) hne

end Rooted

/-! ## Chains -/

namespace Rooted

theorem descends (h : st.Rooted root) : st.Descends := fun _ _ ho => h.lt_of_outer? ho

theorem wellFounded (h : st.Rooted root) : WellFounded fun o s => st.Inside s o := h.descends.wellFounded

theorem reaches_root (h : st.Rooted root) (hs : st.Has s) : ReflTransGen st.Inside s root := by
  induction s using h.wellFounded.induction with
  | h s ih =>
      by_cases hroot : s = root
      · rw [hroot]
      · obtain ⟨o, ho, -⟩ := h.exists_outer s hs hroot
        exact ReflTransGen.head ho (ih o ho (h.has_outer ho))

/-- The name is bound in the nearest scope that has it, or in none. -/
theorem get?_cases (h : st.Rooted root) (s : ScopeId) (name : String) :
    (∃ v, st.Finds name v s ∧ st.get? s name = some v) ∨
      ((∀ o, ReflTransGen st.Inside s o → st.own? o name = none) ∧ st.get? s name = none) := by
  cases hget : st.get? s name with
  | some v => exact Or.inl ⟨v, h.descends.get?_eq_some_iff.mp hget, rfl⟩
  | none   => exact Or.inr ⟨h.descends.get?_eq_none_iff.mp hget, rfl⟩

end Rooted

end Store

/-! ## The invariant -/

/-- The reader makes no closures. -/
theorem Readable.inStore {v : Value} (h : Readable v) (st : Store) : v.InStore st := by
  unfold Value.InStore
  induction h with
  | keyword _ | symbol _ _ => simp [Mention.InStore]
  | list _ ih => exact Value.onlyMentions_list.mpr ih
  | vector _ ih => exact Value.onlyMentions_vector.mpr ih
  | map _ _ _ ih => exact Value.onlyMentions_map.mpr fun e he => ⟨trivial, ih e he⟩
  | marked m _ ih => exact Value.onlyMentions_marked.mpr ih
  | _ => simp

/-- All scopes but the root are inside earlier ones, and closures know only scopes that are there. -/
def Invariant.scopes (root : ScopeId) : Invariant where
  good st := st.Rooted root ∧ st.Closed
  fits st v := v.InStore st
  fits_grows hv hgrows := hv.imp fun _ hm => hm.mono fun _ hs => hgrows.has hs
  good_newScope h hs := ⟨h.1.newScope hs, h.2.newScope fun _ ho => Option.some.inj ho ▸ hs⟩
  good_newScope_closure h hf :=
    have hscope := (Value.onlyMentions_closure.mp hf).1
    ⟨h.1.newScope hscope, h.2.newScope fun _ ho => Option.some.inj ho ▸ hscope⟩
  good_set s name h hv := ⟨h.1.set s name _, h.2.set hv s name⟩
  fits_get? h hget := h.2.values.get? hget
  fits_scalar h := Value.onlyMentions_of_isScalar h
  fits_list := Value.onlyMentions_list
  fits_vector := Value.onlyMentions_vector
  fits_marked := Value.onlyMentions_marked
  fits_entry h e he := (Value.onlyMentions_map.mp h e he).2
  fits_map _ _ h := Value.onlyMentions_map.mpr fun e he => ⟨trivial, h e he⟩
  fits_body h := (Value.onlyMentions_closure.mp h).2
  fits_closure _ _ hbody hs := Value.onlyMentions_closure.mpr ⟨hs, hbody⟩

theorem Invariant.scopes_fitsForms (root : ScopeId) : (scopes root).FitsForms :=
  fun _ hv st => hv.readable.inStore st

namespace Store

theorem rooted_newScope_empty : (empty.newScope none).Rooted ⟨0⟩ := by
  refine ⟨by decide, rfl, fun s hs hne => ?_⟩
  rcases has_newScope.mp hs with hempty | hroot
  · exact absurd hempty (Nat.not_lt_zero _)
  · exact absurd hroot hne

/-- An evaluation or a call that a program may ask for, with closures over scopes that are there, leads from the first
store to the second. -/
inductive Step : Store → Store → Prop where
  | eval {st : Store} (depth : Nat) {form : Value} {s : ScopeId} :
      st.Has s → form.InStore st → Step st (SmallLisp.eval depth form s st).store
  | apply {st : Store} (depth : Nat) {f : Value} {args : List Value} :
      f.InStore st → (∀ v ∈ args, v.InStore st) → Step st (Eval.apply (SmallLisp.eval depth) f args st).store

variable {a b : Store} {root : ScopeId}

theorem Grows.outer?_eq (h : Grows a b) {s : ScopeId} (hs : a.Has s) : b.outer? s = a.outer? s := by
  obtain ⟨sc, hsc⟩ := has_iff_exists_scope?.mp hs
  obtain ⟨sc', hsc', houter, -⟩ := h s sc hsc
  rw [outer?, outer?, hsc, hsc', Option.bind_some, Option.bind_some, houter]

theorem Step.good (h : Step a b) (ha : (Invariant.scopes root).good a) :
    Grows a b ∧ (Invariant.scopes root).good b := by
  cases h with
  | eval depth hs hform =>
      have hkeeps := Invariant.keptBy_eval depth _ _ a ha hs hform
      exact ⟨hkeeps.grows, hkeeps.good⟩
  | apply depth hf hargs =>
      have hkeeps := Invariant.keeps_apply (Invariant.keptBy_eval depth) ha hf hargs
      exact ⟨hkeeps.grows, hkeeps.good⟩

theorem good_of_steps (h : ReflTransGen Step a b) (ha : (Invariant.scopes root).good a) :
    Grows a b ∧ (Invariant.scopes root).good b := by
  induction h with
  | refl => exact ⟨Grows.refl a, ha⟩
  | tail _ hstep ih =>
      obtain ⟨hgrows, hgood⟩ := hstep.good ih.2
      exact ⟨ih.1.trans hgrows, hgood⟩

end Store

namespace Session

theorem scope_root (limit : Nat) : (root limit).scope = ⟨0⟩ := (Step.evaluateText (builtins limit) prelude).keepsOthers.1

theorem good_root_scopes (limit : Nat) : (root limit).Good (Invariant.scopes (root limit).scope) := by
  rw [scope_root]
  have hempty : (Store.empty.newScope none).Closed := Store.closed_empty.newScope nofun
  exact good_root (Invariant.scopes_fitsForms ⟨0⟩) ⟨Store.rooted_newScope_empty, hempty⟩
    (fun b _ => Value.onlyMentions_builtin b) limit

end Session

/-! ## The result -/

/-- The scopes of all closures in what the run has given, a value or an error, are in the store that it leaves. -/
def Run.InStore (r : Run Value) : Prop :=
  (∀ v, r.outcome = .value v → v.InStore r.store) ∧
  (∀ e, r.outcome = .error e → ∀ v ∈ e.values, v.InStore r.store)

/-- **Every chain of scopes ends in the root.** Whatever has been evaluated or called in the store of a root session,
every scope but the root is inside an earlier one, is never moved, and is joined to the root by a chain of scopes,
each inside the next. All closures that are bound or given know scopes that are there. So a look-up ends, in the
nearest scope that binds the name, or where no scope of the chain does in the error that says so. -/
theorem scopes_end_in_root {limit : Nat} {st : Store}
    (h : ReflTransGen Store.Step (Session.root limit).store st) :
    st.Rooted (Session.root limit).scope ∧
    (∀ later, ReflTransGen Store.Step st later → ∀ s, st.Has s → later.Has s ∧ later.outer? s = st.outer? s) ∧
    (WellFounded fun o s => st.Inside s o) ∧
    (∀ s, st.Has s → ReflTransGen st.Inside s (Session.root limit).scope) ∧
    st.OnlyBinds (Mention.InStore st) ∧
    (∀ depth form s, st.Has s → form.InStore st → (eval depth form s st).InStore) ∧
    (∀ depth f args, f.InStore st → (∀ v ∈ args, v.InStore st) → (Eval.apply (eval depth) f args st).InStore) ∧
    (∀ s name,
      (∃ v, st.Finds name v s ∧ Action.lookup s name st = ⟨.value v, st, ""⟩) ∨
      ((∀ o, ReflTransGen st.Inside s o → st.own? o name = none) ∧
        Action.lookup s name st = ⟨.error (.symbolNotFound name), st, ""⟩)) := by
  obtain ⟨-, hgood⟩ := Store.good_of_steps h (Session.good_root_scopes limit).store
  have hrooted : st.Rooted (Session.root limit).scope := hgood.1
  refine ⟨hrooted, ?_, hrooted.wellFounded, fun s hs => hrooted.reaches_root hs, hgood.2.values, ?_, ?_, ?_⟩
  · intro later hlater s hs
    obtain ⟨hgrows, -⟩ := Store.good_of_steps hlater hgood
    exact ⟨hgrows.has hs, hgrows.outer?_eq hs⟩
  · intro depth form s hs hform
    have hkeeps := Invariant.keptBy_eval depth form s st hgood hs hform
    exact ⟨hkeeps.value_ok, hkeeps.error_fits⟩
  · intro depth f args hf hargs
    have hkeeps := Invariant.keeps_apply (Invariant.keptBy_eval depth) hgood hf hargs
    exact ⟨hkeeps.value_ok, hkeeps.error_fits⟩
  · intro s name
    unfold Action.lookup
    rcases hrooted.get?_cases s name with ⟨v, hfinds, hget⟩ | ⟨hnone, hget⟩
    · exact Or.inl ⟨v, hfinds, by rw [hget]⟩
    · exact Or.inr ⟨hnone, by rw [hget]⟩

/-- After `(def! f (let* (a 1) (fn* () a)))` the root binds a closure over a scope that is inside the root itself. -/
theorem closure_scope_ends_in_root :
    let session := Session.root 5
    let a := Value.symbol "a"
    let form := Value.list [.symbol "def!", .symbol "f",
      .list [.symbol "let*", .list [a, .integer 1], .list [.symbol "fn*", .list [], a]]]
    let st := (eval 5 form session.scope session.store).store
    ReflTransGen Store.Step session.store st ∧
    st.own? session.scope "f" = some (.closure [] a ⟨1⟩) ∧ st.Has ⟨1⟩ ∧
    ReflTransGen st.Inside ⟨1⟩ session.scope := by
  intro session a form st
  have hscope : session.store.Has session.scope := (Session.good_root_scopes 5).has_scope
  have hform : form.InStore session.store := by simp [Value.InStore, form, a, Mention.InStore]
  have hsteps : ReflTransGen Store.Step session.store st := ReflTransGen.single (Store.Step.eval 5 hscope hform)
  obtain ⟨-, -, -, hreaches, hbinds, -⟩ := scopes_end_in_root hsteps
  have hown : st.own? session.scope "f" = some (.closure [] a ⟨1⟩) := by
    simp only [st, session, form, a]
    cbv
  have hhas : st.Has ⟨1⟩ := (Value.onlyMentions_closure.mp (hbinds _ _ _ hown)).1
  exact ⟨hsteps, hown, hhas, hreaches ⟨1⟩ hhas⟩

end SmallLisp
