import SmallLisp.Action

/-!
# `SmallLisp.Proofs.Frame` — what an action may change in the store

An action that works in a scope may bind names there, and may make new scopes. This file says so as a relation
between the store before and the store after, and shows that the relation is kept by sequencing and holds of
every single step. Nothing here mentions forms: which names an evaluation may bind is the business of
`SmallLisp.Proofs.Eval.Frame`.

## Contents
* **Scopes** `Scope.Extends`: no name lost, the outer link kept, and only some names bound anew.
* **Stores.** `Store.Unchanged` of all scopes, `Store.Frame` of all scopes but one.
* **Actions.** `Action.Frames`, `Action.Preserves`, and what each step of `SmallLisp.Action` does to them.
-/

namespace SmallLisp

/-! ## Scopes -/

/-- The second scope is the first one after some of `names` have been bound in it. -/
structure Scope.Extends (names : List String) (before after : Scope) : Prop where
  outer_eq : after.outer = before.outer
  keys_kept : ∀ n ∈ before.bindings.keys, n ∈ after.bindings.keys
  find?_eq : ∀ n, n ∉ names → after.bindings.find? n = before.bindings.find? n

namespace Scope.Extends

variable {names names' : List String} {a b c : Scope}

theorem refl (a : Scope) : Scope.Extends names a a := ⟨rfl, fun _ h => h, fun _ _ => rfl⟩

theorem trans (hab : Scope.Extends names a b) (hbc : Scope.Extends names b c) : Scope.Extends names a c :=
  ⟨hbc.outer_eq.trans hab.outer_eq, fun n hn => hbc.keys_kept n (hab.keys_kept n hn),
    fun n hn => (hbc.find?_eq n hn).trans (hab.find?_eq n hn)⟩

theorem mono (h : Scope.Extends names a b) (hsub : names ⊆ names') : Scope.Extends names' a b :=
  ⟨h.outer_eq, h.keys_kept, fun n hn => h.find?_eq n fun hmem => hn (hsub hmem)⟩

end Scope.Extends

/-- A binding loses no name and touches no other. -/
theorem Scope.extends_insert {names : List String} {n : String} (hn : n ∈ names) (sc : Scope) (v : Value) :
    Scope.Extends names sc { sc with bindings := sc.bindings.insert n v } := by
  refine ⟨rfl, ?_, ?_⟩
  · intro k hk
    exact Entries.mem_keys_insert.mpr (Or.inr hk)
  · intro k hk
    have hne : n ≠ k := by
      rintro rfl
      exact hk hn
    show (sc.bindings.insert n v).find? k = sc.bindings.find? k
    rw [Entries.find?_insert, if_neg hne]

/-! ## Stores -/

namespace Store

/-- Every scope of the first store is in the second one as it was. -/
def Unchanged (before after : Store) : Prop := ∀ o sc, before.scope? o = some sc → after.scope? o = some sc

/-- Every scope of the first store but `s` is in the second one as it was, and `s` may have got bindings for
some of `names`. -/
structure Frame (s : ScopeId) (names : List String) (before after : Store) : Prop where
  others : ∀ o sc, o ≠ s → before.scope? o = some sc → after.scope? o = some sc
  own : ∀ sc, before.scope? s = some sc → ∃ sc', after.scope? s = some sc' ∧ Scope.Extends names sc sc'

variable {s : ScopeId} {names names' : List String} {a b c : Store}

theorem Unchanged.trans (hab : Unchanged a b) (hbc : Unchanged b c) : Unchanged a c :=
  fun o sc h => hbc o sc (hab o sc h)

theorem Unchanged.frame (h : Unchanged a b) : Frame s names a b :=
  ⟨fun o sc _ hsc => h o sc hsc, fun sc hsc => ⟨sc, h s sc hsc, Scope.Extends.refl sc⟩⟩

theorem Frame.refl (a : Store) : Frame s names a a := Unchanged.frame fun _ _ h => h

theorem Frame.trans (hab : Frame s names a b) (hbc : Frame s names b c) : Frame s names a c := by
  refine ⟨fun o sc ho h => hbc.others o sc ho (hab.others o sc ho h), ?_⟩
  intro sc h
  obtain ⟨sc₁, h₁, hext₁⟩ := hab.own sc h
  obtain ⟨sc₂, h₂, hext₂⟩ := hbc.own sc₁ h₁
  exact ⟨sc₂, h₂, hext₁.trans hext₂⟩

theorem Frame.mono (h : Frame s names a b) (hsub : names ⊆ names') : Frame s names' a b := by
  refine ⟨h.others, ?_⟩
  intro sc hsc
  obtain ⟨sc', hsc', hext⟩ := h.own sc hsc
  exact ⟨sc', hsc', hext.mono hsub⟩

/-- A binding changes the one scope that it goes into. -/
theorem frame_set {n : String} (hn : n ∈ names) (st : Store) (v : Value) : Frame s names st (st.set s n v) := by
  refine ⟨?_, ?_⟩
  · intro o sc ho h
    rw [scope?_set, h, Option.map_some, if_neg (Ne.symm ho)]
  · intro sc h
    refine ⟨{ sc with bindings := sc.bindings.insert n v }, ?_, Scope.extends_insert hn sc v⟩
    rw [scope?_set, h, Option.map_some, if_pos rfl]

theorem frame_setAll (bindings : List (String × Value)) (st : Store) :
    Frame s (bindings.map Prod.fst) st (st.setAll s bindings) := by
  induction bindings generalizing st with
  | nil => exact Frame.refl st
  | cons e es ih =>
      have hfirst : Frame s ((e :: es).map Prod.fst) st (st.set s e.1 e.2) := frame_set (by simp) st e.2
      exact hfirst.trans ((ih (st.set s e.1 e.2)).mono (by simp))

theorem scope?_nextId (st : Store) : st.scope? st.nextId = none := by
  simp [scope?, nextId]

/-- A scope that is there is not the next one to be made. -/
theorem ne_nextId_of_scope? {st : Store} {o : ScopeId} {sc : Scope} (h : st.scope? o = some sc) :
    o ≠ st.nextId := by
  rintro rfl
  rw [scope?_nextId] at h
  cases h

/-- Whatever happens in a scope made anew, all scopes that were there before stay as they were. -/
theorem unchanged_of_frame_nextId {outer : Option ScopeId} {st after : Store}
    (h : Frame st.nextId names (st.newScope outer) after) : Unchanged st after := by
  intro o sc hsc
  have hne := ne_nextId_of_scope? hsc
  apply h.others o sc hne
  rw [scope?_newScope, if_neg hne, hsc]

end Store

/-! ## Actions -/

namespace Action

variable {α β : Type} {s : ScopeId} {names names' : List String}

/-- The action keeps the frame of `s` and `names`, however it ends. -/
def Frames (s : ScopeId) (names : List String) (x : Action α) : Prop := ∀ st, Store.Frame s names st (x st).store

/-- The action leaves every scope as it was, however it ends. -/
def Preserves (x : Action α) : Prop := ∀ st, Store.Unchanged st (x st).store

theorem Preserves.frames {x : Action α} (h : Preserves x) : Frames s names x := fun st => (h st).frame

theorem Frames.mono {x : Action α} (h : Frames s names x) (hsub : names ⊆ names') : Frames s names' x :=
  fun st => (h st).mono hsub

theorem frames_pure (a : α) : Frames s names (pure a : Action α) := fun st => Store.Frame.refl st

theorem preserves_fail (e : EvalError) : Preserves (fail e : Action α) := fun _ _ _ h => h

theorem preserves_giveUp : Preserves (giveUp : Action α) := fun _ _ _ h => h

theorem preserves_answer (r : Except EvalError Answer) : Preserves (answer r) := by
  cases r with
  | ok a    => exact fun _ _ _ h => h
  | error e => exact preserves_fail e

theorem frames_fail (e : EvalError) : Frames s names (fail e : Action α) := (preserves_fail e).frames

theorem frames_lookup (o : ScopeId) (n : String) : Frames s names (lookup o n) := by
  intro st
  have hstore : (lookup o n st).store = st := by
    unfold lookup
    split <;> rfl
  rw [hstore]
  exact Store.Frame.refl st

theorem frames_define {n : String} (hn : n ∈ names) (v : Value) : Frames s names (define s n v) :=
  fun st => Store.frame_set hn st v

/-- What comes before an error is not undone, so the store after a sequence lies past the one after its first
part in every case. -/
theorem Frames.bind {x : Action α} {f : α → Action β} (hx : Frames s names x) (hf : ∀ a, Frames s names (f a)) :
    Frames s names (x >>= f) := by
  intro st
  have hfirst := hx st
  rw [bind_apply]
  generalize x st = first at hfirst
  -- Only after a value does the second part run at all.
  rcases first with ⟨a | e | _, after, text⟩
  · exact hfirst.trans (hf a after)
  · exact hfirst
  · exact hfirst

/-- **An inner scope shields all others.** An action that makes a scope and then works in it leaves every scope
that was there before as it was. -/
theorem preserves_enclose_bind {outer : ScopeId} {bindings : List (String × Value)} {f : ScopeId → Action β}
    (hf : ∀ inner, ∃ names, Frames inner names (f inner)) : Preserves (enclose outer bindings >>= f) := by
  intro st
  obtain ⟨names, hnames⟩ := hf st.nextId
  have hbind : Store.Frame st.nextId (bindings.map Prod.fst ++ names) (st.newScope (some outer))
      ((st.newScope (some outer)).setAll st.nextId bindings) :=
    (Store.frame_setAll bindings _).mono (List.subset_append_left _ _)
  have hbody := (hnames ((st.newScope (some outer)).setAll st.nextId bindings)).mono
    (List.subset_append_right (bindings.map Prod.fst) names)
  rw [bind_apply]
  exact Store.unchanged_of_frame_nextId (hbind.trans hbody)

end Action

end SmallLisp
