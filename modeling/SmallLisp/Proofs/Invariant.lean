import SmallLisp.Proofs.Scoping

/-!
# `SmallLisp.Proofs.Invariant` — what is true of all values of a program

Values are made in few ways. Evaluating a form takes values apart, puts them together again, hands them over to
scopes and takes them back from there; new in them are only the results of builtins and the closures. So a property
of values that goes well with these few ways holds of every value that a program meets, if it holds of the values
that are there at its start. This file says what it takes as a structure, `Invariant.Core`, and shows that the single
steps of `SmallLisp.Action` keep every such property. Only a binding in a scope that is there already is not among
them; a property that goes well with these, too, is an `Invariant`. Whole evaluations are the business of
`SmallLisp.Proofs.Eval.Invariant`.

## Contents
* **Errors** speak of values: `EvalError.values`.
* **Invariants** `Invariant.Core`, `Invariant`, and what they say of parts: `fits_of_items?`, `fits_of_operand?`,
  `fits_of_bindings`.
* **Runs and actions** that keep one: `Run.Keeps`, `Invariant.Core.Keeps`, with sequencing and every step.
-/

namespace SmallLisp

/-! ## Errors -/

/-- The values that a fault speaks of. -/
def Fault.values : Fault → List Value
  | bindingTarget _ got | bindingsNotAList got | paramsNotAList got | paramNotASymbol got => [got]
  | _                                                                                    => []

/-- The values that an error speaks of; a name that is not bound stands as a symbol. -/
def EvalError.values : EvalError → List Value
  | symbolNotFound name                                     => [.symbol name]
  | notAFunction got | wrongType _ _ got                    => [got]
  | malformed fault                                         => fault.values
  | wrongCount _ _ _ | divisionByZero _ | integerOverflow _ => []

theorem EvalError.Blames.values_subset {e : EvalError} {args : List Value} (h : e.Blames args) : e.values ⊆ args := by
  cases e with
  | wrongType function expected got => exact List.cons_subset.mpr ⟨h, List.nil_subset args⟩
  | wrongCount _ _ _ | divisionByZero _ | integerOverflow _ => exact List.nil_subset args
  | symbolNotFound _ | notAFunction _ | malformed _ => cases h

/-! ## Invariants -/

/-- A property of stores, and of values in a store, that goes well with all ways in which values and scopes are made.
Nothing is said of a binding that goes into a scope which is there already. -/
structure Invariant.Core where
  good : Store → Prop
  fits : Store → Value → Prop
  fits_grows {a b : Store} {v : Value} : fits a v → a.Grows b → fits b v
  good_newScope {st : Store} {s : ScopeId} : good st → st.Has s → good (st.newScope (some s))
  /-- A call makes a scope inside that of the closure, with bindings from the start. -/
  good_call {st : Store} {params : List String} {body : Value} {scope : ScopeId} {bindings : List (String × Value)} :
    good st → fits st (.closure params body scope) → (∀ e ∈ bindings, fits st e.2) →
    good ((st.newScope (some scope)).setAll st.nextId bindings)
  fits_get? {st : Store} {s : ScopeId} {name : String} {v : Value} : good st → st.get? s name = some v → fits st v
  fits_scalar {st : Store} {v : Value} : v.isScalar = true → fits st v
  fits_list {st : Store} {vs : List Value} : fits st (.list vs) ↔ ∀ v ∈ vs, fits st v
  fits_vector {st : Store} {vs : List Value} : fits st (.vector vs) ↔ ∀ v ∈ vs, fits st v
  fits_marked {st : Store} {m : Mark} {v : Value} : fits st (.marked m v) ↔ fits st v
  fits_entry {st : Store} {es : List (String × Value)} : fits st (.map es) → ∀ e ∈ es, fits st e.2
  /-- The values of a map may be replaced by others. -/
  fits_map {st : Store} {es fs : List (String × Value)} :
    fits st (.map es) → fs.map Prod.fst = es.map Prod.fst → (∀ f ∈ fs, fits st f.2) → fits st (.map fs)
  fits_body {st : Store} {params : List String} {body : Value} {scope : ScopeId} :
    fits st (.closure params body scope) → fits st body
  /-- A closure is made by a form that says `fn*`, and over a scope that is there. -/
  fits_closure {st : Store} {params : List String} {body : Value} {s : ScopeId} :
    fits st (.symbol SpecialForm.function.name) → (∀ name ∈ params, fits st (.symbol name)) → fits st body →
    st.Has s → fits st (.closure params body s)

/-- What is kept by every binding in turn is kept by all of them. -/
theorem Store.setAll_induction {good : Store → Prop} (fits : Store → Value → Prop)
    (hgrows : ∀ {a b : Store} {v : Value}, fits a v → a.Grows b → fits b v) {s : ScopeId}
    (hset : ∀ {st : Store} {v : Value} (name : String), good st → fits st v → good (st.set s name v)) {st : Store}
    (h : good st) {bindings : List (String × Value)} (hbindings : ∀ e ∈ bindings, fits st e.2) :
    good (st.setAll s bindings) := by
  induction bindings generalizing st with
  | nil => exact h
  | cons e bindings ih =>
      obtain ⟨hvalue, hrest⟩ := List.forall_mem_cons.mp hbindings
      exact ih (hset e.1 h hvalue) fun e' he' => hgrows (hrest e' he') (Store.grows_set st s e.1 e.2)

/-- A property that goes well with bindings in any scope, too. -/
structure Invariant extends Invariant.Core where
  good_newScope_closure {st : Store} {params : List String} {body : Value} {scope : ScopeId} :
    good st → fits st (.closure params body scope) → good (st.newScope (some scope))
  good_set {st : Store} {v : Value} (s : ScopeId) (name : String) : good st → fits st v → good (st.set s name v)
  good_call h hf hbindings :=
    Store.setAll_induction fits fits_grows (good_set _) (good_newScope_closure h hf) fun e he =>
      fits_grows (hbindings e he) (Store.grows_newScope _ _)

namespace Invariant.Core

variable {I : Invariant.Core} {st : Store}

theorem fits_of_items? {v : Value} {items : List Value} (h : v.items? = some items) (hv : I.fits st v) :
    ∀ item ∈ items, I.fits st item := by
  cases v with
  | list _   => cases h; exact I.fits_list.mp hv
  | vector _ => cases h; exact I.fits_vector.mp hv
  | _        => cases h

theorem fits_of_operand? {v operand : Value} {m : Mark} (h : v.operand? m = some operand) (hv : I.fits st v) :
    I.fits st operand := by
  rcases Value.operand?_eq_some_iff.mp h with rfl | rfl
  · exact I.fits_marked.mp hv
  · exact I.fits_list.mp hv operand (by simp)

theorem fits_of_bindings {params : List String} {args : List Value} (hargs : ∀ v ∈ args, I.fits st v) :
    ∀ e ∈ Params.bindings params args, I.fits st e.2 :=
  fun e he => (Params.forall_mem_bindings (fun _ => I.fits_list.mpr) hargs e he).2

theorem fits_of_call {b : Builtin} {args : List Value} {a : Answer} (h : b.call args = .ok a)
    (hargs : ∀ v ∈ args, I.fits st v) : I.fits st a.value := by
  rcases Builtin.value_of_call h with hscalar | hlist
  · exact I.fits_scalar hscalar
  · rw [hlist]
    exact I.fits_list.mpr hargs

end Invariant.Core

theorem Invariant.good_setAll {I : Invariant} {st : Store} (h : I.good st) (s : ScopeId)
    {bindings : List (String × Value)} (hbindings : ∀ e ∈ bindings, I.fits st e.2) : I.good (st.setAll s bindings) :=
  Store.setAll_induction I.fits I.fits_grows (I.good_set s) h hbindings

/-! ## Runs and actions -/

variable {α β : Type}

/-- The run has let the store grow and kept it good. A value that it has given is `ok` in the store that it leaves,
and the values that an error speaks of fit there. -/
structure Run.Keeps (I : Invariant.Core) (ok : Store → α → Prop) (st : Store) (r : Run α) : Prop where
  grows : st.Grows r.store
  good : I.good r.store
  value_ok : ∀ a, r.outcome = .value a → ok r.store a
  error_fits : ∀ e, r.outcome = .error e → ∀ v ∈ e.values, I.fits r.store v

namespace Invariant.Core

variable {I : Invariant.Core} {st : Store} {ok : Store → α → Prop} {okβ : Store → β → Prop}

/-- Done in the store, the action keeps the invariant however it ends. -/
def Keeps (I : Invariant.Core) (ok : Store → α → Prop) (x : Action α) (st : Store) : Prop := Run.Keeps I ok st (x st)

/-- The action gives a value that fits. -/
abbrev KeepsValue (I : Invariant.Core) : Action Value → Store → Prop := I.Keeps I.fits

/-- The action gives values that fit. -/
abbrev KeepsItems (I : Invariant.Core) : Action (List Value) → Store → Prop := I.Keeps fun st vs => ∀ v ∈ vs, I.fits st v

/-- What follows a first action starts in a good store, in which all that fitted before still does. -/
theorem Keeps.bind {x : Action α} {f : α → Action β} (hx : I.Keeps ok x st)
    (hf : ∀ a after, st.Grows after → I.good after → ok after a → I.Keeps okβ (f a) after) :
    I.Keeps okβ (x >>= f) st := by
  unfold Keeps at hx ⊢
  rw [Action.bind_apply]
  generalize x st = r at hx
  obtain ⟨hgrows, hgood, hok, herror⟩ := hx
  obtain ⟨outcome, after, text⟩ := r
  cases outcome with
  | value a =>
      have hrest := hf a after hgrows hgood (hok a rfl)
      exact ⟨hgrows.trans hrest.grows, hrest.good, hrest.value_ok, hrest.error_fits⟩
  | error e =>
      refine ⟨hgrows, hgood, nofun, ?_⟩
      intro e' he
      cases he
      exact herror e rfl
  | tooDeep => exact ⟨hgrows, hgood, nofun, nofun⟩

theorem keeps_pure (hst : I.good st) {a : α} (ha : ok st a) : I.Keeps ok (pure a) st := by
  refine ⟨Store.Grows.refl st, hst, ?_, nofun⟩
  intro b hb
  cases hb
  exact ha

theorem keeps_fail (hst : I.good st) {e : EvalError} (he : ∀ v ∈ e.values, I.fits st v) :
    I.Keeps ok (Action.fail e) st := by
  refine ⟨Store.Grows.refl st, hst, nofun, ?_⟩
  intro e' heq
  cases heq
  exact he

/-- The error speaks of no value. -/
theorem keeps_fail_nil (hst : I.good st) {e : EvalError} (he : e.values = []) : I.Keeps ok (Action.fail e) st :=
  keeps_fail hst (he ▸ List.forall_mem_nil _)

/-- The error speaks of one value. -/
theorem keeps_fail_singleton (hst : I.good st) {e : EvalError} {got : Value} (he : e.values = [got])
    (hgot : I.fits st got) : I.Keeps ok (Action.fail e) st :=
  keeps_fail hst (he ▸ List.forall_mem_singleton.mpr hgot)

theorem keeps_giveUp (hst : I.good st) : I.Keeps ok Action.giveUp st := ⟨Store.Grows.refl st, hst, nofun, nofun⟩

theorem keeps_answer (hst : I.good st) (b : Builtin) {args : List Value} (hargs : ∀ v ∈ args, I.fits st v) :
    I.KeepsValue (Action.answer (b.call args)) st := by
  cases hcall : b.call args with
  | error e =>
      have hsubset := (b.blamesOnly_call args e hcall).values_subset
      exact keeps_fail hst fun v hv => hargs v (hsubset hv)
  | ok a =>
      refine ⟨Store.Grows.refl st, hst, ?_, nofun⟩
      intro v hv
      cases hv
      exact fits_of_call hcall hargs

theorem keeps_lookup (hst : I.good st) (s : ScopeId) {name : String} (hname : I.fits st (.symbol name)) :
    I.KeepsValue (Action.lookup s name) st := by
  unfold KeepsValue Keeps Action.lookup
  cases hget : st.get? s name with
  | none   => exact keeps_fail_singleton hst rfl hname
  | some v => exact keeps_pure hst (I.fits_get? hst hget)

theorem keeps_enclose {outer : ScopeId} {bindings : List (String × Value)}
    (hgood : I.good ((st.newScope (some outer)).setAll st.nextId bindings)) :
    I.Keeps Store.Has (Action.enclose outer bindings) st := by
  have hnew := Store.grows_newScope st (some outer)
  have hall := Store.grows_setAll (st.newScope (some outer)) st.nextId bindings
  refine ⟨hnew.trans hall, hgood, fun inner hvalue => ?_, nofun⟩
  cases hvalue
  exact hall.has (Store.has_newScope.mpr (Or.inr rfl))

theorem keeps_define (s : ScopeId) (name : String) {v : Value} (hgood : I.good (st.set s name v)) :
    I.Keeps (fun _ _ => True) (Action.define s name v) st :=
  ⟨Store.grows_set st s name v, hgood, fun _ _ => trivial, nofun⟩

end Invariant.Core

end SmallLisp
