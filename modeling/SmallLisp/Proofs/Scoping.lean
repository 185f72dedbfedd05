import SmallLisp.Proofs.Store
import SmallLisp.Proofs.Value.Coverage

/-!
# `SmallLisp.Proofs.Scoping` — look-ups that succeed

A name can be looked up in a scope if it is bound there or in a scope around it. Scopes only ever gain names, so what
can be looked up once can be looked up for ever. A store is well scoped if every closure that is bound in it, however
deep inside a value, has a body that is covered by the names that a call of it can look up. This file shows that the
single steps of `SmallLisp.Action` keep a store well scoped. Whole evaluations are the business of
`SmallLisp.Proofs.Eval.Scoping`.

## Contents
* **Visible names** `Store.visible`: those that have a value (`Store.exists_get?_iff`).
* **Growth** `Store.Grows`: no scope is lost or moved, and no name.
* **Well-scoped values and stores** `Value.WellScoped`, `Store.WellScoped`.
* **Failed look-ups** `FoundAll`: a builtin never ends in one (`Builtin.foundAll_call`).
* **Actions** `Action.Safe`, kept by sequencing and by every step.
-/

namespace SmallLisp

namespace Store

variable {st a b c : Store} {s o : ScopeId} {name : String}

/-! ## Visible names -/

/-- The names that can be looked up in a scope. -/
def visible (st : Store) (s : ScopeId) : List String := (st.chain s).flatMap st.names

theorem visible_eq (st : Store) (i : Nat) :
    st.visible ⟨i⟩ = st.names ⟨i⟩ ++ match st.outer? ⟨i⟩ with
      | some o => if o.index < i then st.visible o else []
      | none   => [] := by
  show (st.chainFrom i).flatMap st.names = _
  rw [chainFrom, List.flatMap_cons]
  cases st.outer? ⟨i⟩ with
  | none   => rfl
  | some o =>
      dsimp only
      split
      · rfl
      · rfl

theorem exists_own?_iff : (∃ v, st.own? s name = some v) ↔ name ∈ st.names s := by
  rw [own?, names]
  cases st.scope? s with
  | none    => simp
  | some sc => exact Entries.exists_find?_iff

/-- The names that can be looked up in a scope are those that have a value there. -/
theorem exists_get?_iff : (∃ v, st.get? s name = some v) ↔ name ∈ st.visible s := by
  rw [get?, visible, List.mem_flatMap, ← Option.isSome_iff_exists, List.findSome?_isSome_iff]
  simp only [Option.isSome_iff_exists, exists_own?_iff]

/-- Nothing can be looked up in a scope that is not there. -/
theorem visible_eq_nil (h : ¬ st.Has s) : st.visible s = [] := by
  obtain ⟨i⟩ := s
  have hscope := scope?_eq_none h
  simp [visible_eq, names, outer?, hscope]

theorem names_subset_visible (st : Store) (s : ScopeId) : st.names s ⊆ st.visible s := by
  obtain ⟨i⟩ := s
  rw [visible_eq]
  exact List.subset_append_left _ _

/-! ## Growth -/

/-- Every scope of the first store is in the second one, inside the same scope, and binds no fewer names. -/
def Grows (a b : Store) : Prop :=
  ∀ s sc, a.scope? s = some sc →
    ∃ sc', b.scope? s = some sc' ∧ sc'.outer = sc.outer ∧ sc.bindings.keys ⊆ sc'.bindings.keys

theorem Grows.refl (a : Store) : Grows a a := fun _ sc hsc => ⟨sc, hsc, rfl, List.Subset.refl _⟩

theorem Grows.trans (hab : Grows a b) (hbc : Grows b c) : Grows a c := by
  intro s sc hsc
  obtain ⟨sc₁, hsc₁, houter₁, hkeys₁⟩ := hab s sc hsc
  obtain ⟨sc₂, hsc₂, houter₂, hkeys₂⟩ := hbc s sc₁ hsc₁
  exact ⟨sc₂, hsc₂, houter₂.trans houter₁, List.Subset.trans hkeys₁ hkeys₂⟩

theorem Unchanged.grows (h : Unchanged a b) : Grows a b := fun s sc hsc => ⟨sc, h s sc hsc, rfl, List.Subset.refl _⟩

theorem Frame.grows {names : List String} (h : Frame s names a b) : Grows a b := by
  intro o sc hsc
  by_cases ho : o = s
  · subst ho
    obtain ⟨sc', hsc', hext⟩ := h.own sc hsc
    exact ⟨sc', hsc', hext.outer_eq, hext.keys_kept⟩
  · exact ⟨sc, h.others o sc ho hsc, rfl, List.Subset.refl _⟩

theorem grows_newScope (st : Store) (outer : Option ScopeId) : Grows st (st.newScope outer) := by
  have hframe : Frame st.nextId [] (st.newScope outer) (st.newScope outer) := Frame.refl _
  exact (unchanged_of_frame_nextId hframe).grows

theorem grows_set (st : Store) (s : ScopeId) (name : String) (v : Value) : Grows st (st.set s name v) :=
  (frame_set (List.mem_singleton_self name) st v).grows

theorem grows_setAll (st : Store) (s : ScopeId) (bindings : List (String × Value)) :
    Grows st (st.setAll s bindings) := (frame_setAll bindings st).grows

theorem Grows.has (h : Grows a b) (hs : a.Has s) : b.Has s := by
  obtain ⟨sc, hsc⟩ := has_iff_exists_scope?.mp hs
  obtain ⟨sc', hsc', -⟩ := h s sc hsc
  exact has_iff_exists_scope?.mpr ⟨sc', hsc'⟩

/-- What can be looked up once can be looked up for ever. -/
theorem Grows.visible_subset (h : Grows a b) (s : ScopeId) : a.visible s ⊆ b.visible s := by
  obtain ⟨i⟩ := s
  induction i using Nat.strongRecOn with
  | ind i ih =>
      -- A scope that is not there may yet be made inside another one, but now nothing is visible from it.
      by_cases hi : a.Has ⟨i⟩
      · obtain ⟨sc, hsc⟩ := has_iff_exists_scope?.mp hi
        obtain ⟨sc', hsc', houter, hkeys⟩ := h ⟨i⟩ sc hsc
        simp only [visible_eq, names, outer?, hsc, hsc', Option.bind_some, houter]
        refine List.append_subset.mpr ⟨List.subset_append_of_subset_left _ hkeys, ?_⟩
        apply List.subset_append_of_subset_right
        cases sc.outer with
        | none   => exact List.Subset.refl []
        | some o =>
            dsimp only
            split
            · rename_i ho
              exact ih o.index ho
            · exact List.Subset.refl []
      · rw [visible_eq_nil hi]
        exact List.nil_subset _

/-- A name that is bound in a scope can be looked up there. -/
theorem mem_visible_set (hs : st.Has s) (name : String) (v : Value) : name ∈ (st.set s name v).visible s := by
  apply names_subset_visible
  rw [← exists_own?_iff]
  exact ⟨v, by rw [own?_set, if_pos ⟨rfl, rfl, hs⟩]⟩

theorem map_fst_subset_visible_setAll (hs : st.Has s) (bindings : List (String × Value)) :
    bindings.map Prod.fst ⊆ (st.setAll s bindings).visible s := by
  induction bindings generalizing st with
  | nil => exact List.nil_subset _
  | cons e bindings ih =>
      rw [List.map_cons, List.cons_subset]
      refine ⟨?_, ih (has_set.mpr hs)⟩
      exact (grows_setAll (st.set s e.1 e.2) s bindings).visible_subset s (mem_visible_set hs e.1 e.2)

/-- In a scope made anew all can be looked up that can be in the scope around it. -/
theorem visible_subset_newScope (st : Store) (o : ScopeId) :
    st.visible o ⊆ (st.newScope (some o)).visible st.nextId := by
  by_cases ho : st.Has o
  · have hlt : o.index < st.scopes.size := ho
    rw [nextId, visible_eq (st.newScope (some o)), outer?_newScope, nextId, if_pos rfl]
    simp only [if_pos hlt]
    exact List.subset_append_of_subset_right _ ((grows_newScope st (some o)).visible_subset o)
  · rw [visible_eq_nil ho]
    exact List.nil_subset _

end Store

/-! ## Well-scoped values and stores -/

section WellScoped

variable {st a b : Store}

/-- Whatever a call of the closure could look up has a value. -/
def Mention.WellScoped (st : Store) : Mention → Prop
  | closure params body scope => body.covered (Params.reachable params ++ st.visible scope)
  | _                         => True

/-- All closures in the value are well scoped, those in the bodies of others included. -/
def Value.WellScoped (st : Store) (v : Value) : Prop := v.OnlyMentions (Mention.WellScoped st)

/-- All closures in the values that are bound in the store are well scoped. -/
def Store.WellScoped (st : Store) : Prop := st.OnlyBinds (Mention.WellScoped st)

theorem Mention.WellScoped.grows {m : Mention} (h : m.WellScoped a) (hab : a.Grows b) : m.WellScoped b := by
  cases m with
  | closure params body scope => exact Value.covered_mono (Value.bound_subset (hab.visible_subset scope) _) body h
  | _                         => trivial

theorem Value.WellScoped.grows {v : Value} (h : v.WellScoped a) (hab : a.Grows b) : v.WellScoped b :=
  h.imp fun _ hm => hm.grows hab

theorem Store.wellScoped_empty : Store.empty.WellScoped := Store.onlyBinds_empty

theorem Store.WellScoped.newScope (h : st.WellScoped) (outer : Option ScopeId) : (st.newScope outer).WellScoped :=
  (OnlyBinds.newScope h outer).imp fun _ hm => hm.grows (grows_newScope st outer)

theorem Store.WellScoped.set (h : st.WellScoped) {v : Value} (hv : v.WellScoped st) (s : ScopeId) (name : String) :
    (st.set s name v).WellScoped :=
  (OnlyBinds.set h hv s name).imp fun _ hm => hm.grows (grows_set st s name v)

theorem Store.WellScoped.setAll (h : st.WellScoped) (s : ScopeId) {bindings : List (String × Value)}
    (hbindings : ∀ e ∈ bindings, e.2.WellScoped st) : (st.setAll s bindings).WellScoped := by
  induction bindings generalizing st with
  | nil => exact h
  | cons e bindings ih =>
      obtain ⟨hvalue, hrest⟩ := List.forall_mem_cons.mp hbindings
      exact ih (h.set hvalue s e.1) fun e' he' => (hrest e' he').grows (grows_set st s e.1 e.2)

end WellScoped

/-! ## Failed look-ups -/

/-- The name that has no value, if that is what is wrong. -/
def EvalError.missing? : EvalError → Option String
  | symbolNotFound name => some name
  | _                   => none

/-- The result is not a failed look-up. -/
def FoundAll {α : Type} (r : Except EvalError α) : Prop := ∀ e, r = .error e → e.missing? = none

/-- **A builtin looks nothing up.** -/
theorem Builtin.foundAll_call (b : Builtin) (args : List Value) : FoundAll (b.call args) := by
  intro e he
  have hblames := b.blamesOnly_call args e he
  cases e with
  | symbolNotFound name => cases hblames
  | _                   => rfl

/-! ## Runs and actions -/

variable {α β : Type} {st : Store} {ok : Store → α → Prop} {okβ : Store → β → Prop}

/-- The run has looked up no name that has no value. It has let the store grow and kept it well scoped, and a value
that it has given is `ok` in the store that it leaves. -/
structure Run.Safe (ok : Store → α → Prop) (st : Store) (r : Run α) : Prop where
  grows : st.Grows r.store
  wellScoped : r.store.WellScoped
  found : ∀ e, r.outcome = .error e → e.missing? = none
  value_ok : ∀ a, r.outcome = .value a → ok r.store a

namespace Action

/-- Done in the store, the action is safe however it ends. -/
def Safe (ok : Store → α → Prop) (x : Action α) (st : Store) : Prop := Run.Safe ok st (x st)

/-- The action gives a well-scoped value. -/
abbrev SafeValue : Action Value → Store → Prop := Safe fun st v => v.WellScoped st

/-- The action gives well-scoped values. -/
abbrev SafeItems : Action (List Value) → Store → Prop := Safe fun st vs => ∀ v ∈ vs, v.WellScoped st

theorem Safe.imp {ok' : Store → α → Prop} {x : Action α} (h : Safe ok x st)
    (himp : ∀ after a, ok after a → ok' after a) : Safe ok' x st :=
  ⟨h.grows, h.wellScoped, h.found, fun a ha => himp _ a (h.value_ok a ha)⟩

/-- What follows a first action may rely on all that was known before it, since the store has only grown. -/
theorem Safe.bind {x : Action α} {f : α → Action β} (hx : Safe ok x st)
    (hf : ∀ a after, st.Grows after → after.WellScoped → ok after a → Safe okβ (f a) after) :
    Safe okβ (x >>= f) st := by
  unfold Safe at hx ⊢
  rw [bind_apply]
  generalize x st = r at hx
  obtain ⟨hgrows, hwell, hfound, hok⟩ := hx
  obtain ⟨outcome, after, text⟩ := r
  cases outcome with
  | value a =>
      have hrest := hf a after hgrows hwell (hok a rfl)
      exact ⟨hgrows.trans hrest.grows, hrest.wellScoped, hrest.found, hrest.value_ok⟩
  | error e => exact ⟨hgrows, hwell, fun e' he => hfound e' (congrArg _ (Outcome.error.inj he)), nofun⟩
  | tooDeep => exact ⟨hgrows, hwell, nofun, nofun⟩

theorem safe_pure (hst : st.WellScoped) {a : α} (ha : ok st a) : Safe ok (pure a) st :=
  ⟨Store.Grows.refl st, hst, nofun, fun _ hb => Outcome.value.inj hb ▸ ha⟩

theorem safe_fail (hst : st.WellScoped) {e : EvalError} (he : e.missing? = none) : Safe ok (fail e) st :=
  ⟨Store.Grows.refl st, hst, fun _ heq => Outcome.error.inj heq ▸ he, nofun⟩

theorem safe_giveUp (hst : st.WellScoped) : Safe ok giveUp st := ⟨Store.Grows.refl st, hst, nofun, nofun⟩

/-- A builtin looks nothing up, and hands on the closures in its arguments. -/
theorem safe_answer (hst : st.WellScoped) (b : Builtin) {args : List Value} (hargs : ∀ v ∈ args, v.WellScoped st) :
    SafeValue (answer (b.call args)) st := by
  cases hcall : b.call args with
  | error e => exact safe_fail hst (b.foundAll_call args e hcall)
  | ok a =>
      have ha : a.value.WellScoped st := Builtin.onlyMentions_of_call hcall hargs
      exact ⟨Store.Grows.refl st, hst, nofun, fun v hv => Outcome.value.inj hv ▸ ha⟩

theorem safe_lookup (hst : st.WellScoped) {s : ScopeId} {name : String} (hname : name ∈ st.visible s) :
    SafeValue (lookup s name) st := by
  obtain ⟨v, hget⟩ := Store.exists_get?_iff.mpr hname
  unfold SafeValue Safe lookup
  rw [hget]
  exact ⟨Store.Grows.refl st, hst, nofun, fun w hw => Outcome.value.inj hw ▸ Store.OnlyBinds.get? hst hget⟩

theorem safe_define (hst : st.WellScoped) (s : ScopeId) (name : String) {v : Value} (hv : v.WellScoped st) :
    Safe (fun after _ => st.Has s → name ∈ after.visible s) (define s name v) st :=
  ⟨Store.grows_set st s name v, hst.set hv s name, nofun, fun _ _ hs => Store.mem_visible_set hs name v⟩

/-- In the new scope the names bound can be looked up, and those that could be in the scope around it. -/
theorem safe_enclose (hst : st.WellScoped) (outer : ScopeId) {bindings : List (String × Value)}
    (hbindings : ∀ e ∈ bindings, e.2.WellScoped st) :
    Safe (fun after inner => after.Has inner ∧ bindings.map Prod.fst ++ st.visible outer ⊆ after.visible inner)
      (enclose outer bindings) st := by
  have hnew := Store.grows_newScope st (some outer)
  have hall := Store.grows_setAll (st.newScope (some outer)) st.nextId bindings
  have hinner : (st.newScope (some outer)).Has st.nextId := Store.has_newScope.mpr (Or.inr rfl)
  refine ⟨hnew.trans hall, (hst.newScope (some outer)).setAll st.nextId fun e he => (hbindings e he).grows hnew,
    nofun, fun inner hvalue => ?_⟩
  cases hvalue
  refine ⟨hall.has hinner, List.append_subset.mpr ⟨Store.map_fst_subset_visible_setAll hinner bindings, ?_⟩⟩
  exact List.Subset.trans (Store.visible_subset_newScope st outer) (hall.visible_subset st.nextId)

end Action

end SmallLisp
