import SmallLisp.Proofs.Value.Rename

/-!
# `SmallLisp.Proofs.Likeness` — stores that no program can tell apart

Two stores may differ and still be alike to every program at hand: one has more scopes than the other, or other
numbers for them, or another value for a name that the programs do not mention. What it takes is that the two stay
alike while scopes are made and names are bound in both, and that they agree on what a mentioned name means. This
file says so as a structure, `Likeness`, and shows that the single steps of `SmallLisp.Action` do the same in two
stores that are alike. That whole evaluations do is the business of `SmallLisp.Proofs.Eval.Likeness`.

## Contents
* **Names in use** `Mention.Uses`.
* **Likenesses** `Likeness`, and the values that may occur under one, `Likeness.Allows`.
* **Runs and actions** that are alike: `Run.Alike`, `Likeness.Simulates`, kept by sequencing and by every step.
-/

namespace SmallLisp

/-! ## Names in use -/

/-- The names that a mention may look up or bind have a property. -/
def Mention.Uses (names : String → Prop) : Mention → Prop
  | symbol name        => names name
  | closure params _ _ => ∀ name ∈ params, names name
  | _                  => True

/-! ## Likenesses -/

/-- A way in which two stores can be alike to all programs that mention no other names than `names`. -/
structure Likeness where
  /-- The scope of the second store that answers to a scope of the first one. -/
  ρ : ScopeId → ScopeId
  names : String → Prop
  stores : Store → Store → Prop
  nextId_eq {a b : Store} : stores a b → b.nextId = ρ a.nextId
  newScope {a b : Store} (outer : ScopeId) :
    stores a b → stores (a.newScope (some outer)) (b.newScope (some (ρ outer)))
  set {a b : Store} (s : ScopeId) {name : String} {v : Value} :
    stores a b → names name → v.OnlyMentions (Mention.Uses names) →
    stores (a.set s name v) (b.set (ρ s) name (v.rename ρ))
  get?_eq {a b : Store} (s : ScopeId) {name : String} :
    stores a b → names name → b.get? (ρ s) name = (a.get? s name).map (Value.rename ρ)
  get?_uses {a b : Store} {s : ScopeId} {name : String} {v : Value} :
    stores a b → names name → a.get? s name = some v → v.OnlyMentions (Mention.Uses names)

/-- The value mentions no other names than those that matter. -/
def Likeness.Allows (L : Likeness) (v : Value) : Prop := v.OnlyMentions (Mention.Uses L.names)

theorem Likeness.setAll {L : Likeness} {a b : Store} (s : ScopeId) {bindings : List (String × Value)}
    (h : L.stores a b) (hbindings : ∀ e ∈ bindings, L.names e.1 ∧ L.Allows e.2) :
    L.stores (a.setAll s bindings) (b.setAll (L.ρ s) (bindings.map fun e => (e.1, e.2.rename L.ρ))) := by
  induction bindings generalizing a b with
  | nil => exact h
  | cons e bindings ih =>
      obtain ⟨⟨hname, hvalue⟩, hrest⟩ := List.forall_mem_cons.mp hbindings
      exact ih (L.set s h hname hvalue) hrest

/-! ## Runs and actions -/

/-- An outcome with other numbers for scopes; what they are in its value is said by `f`. -/
def Outcome.rename {α : Type} (ρ : ScopeId → ScopeId) (f : α → α) : Outcome α → Outcome α
  | value a => value (f a)
  | error e => error (e.rename ρ)
  | tooDeep => tooDeep

variable {α β : Type} {L : Likeness}

/-- The second run ends as the first one does, up to the numbers of scopes; it has printed the same text and leaves
a store that is alike. A value of the first run satisfies `ok`. -/
structure Run.Alike (L : Likeness) (f : α → α) (ok : α → Prop) (r r' : Run α) : Prop where
  outcome_eq : r'.outcome = r.outcome.rename L.ρ f
  value_ok : ∀ a, r.outcome = .value a → ok a
  stores : L.stores r.store r'.store
  printed_eq : r'.printed = r.printed

namespace Likeness

variable {f : α → α} {ok : α → Prop} {g : β → β} {okβ : β → Prop}

/-- In two stores that are alike the second action does what the first one does. -/
def Simulates (L : Likeness) (f : α → α) (ok : α → Prop) (x y : Action α) : Prop :=
  ∀ a b, L.stores a b → Run.Alike L f ok (x a) (y b)

/-- The second action gives the value that the first one gives, with other numbers for scopes. -/
abbrev SimulatesValue (L : Likeness) : Action Value → Action Value → Prop := L.Simulates (Value.rename L.ρ) L.Allows

/-- The second action gives the values that the first one gives, with other numbers for scopes. -/
abbrev SimulatesItems (L : Likeness) : Action (List Value) → Action (List Value) → Prop :=
  L.Simulates (List.map (Value.rename L.ρ)) fun vs => ∀ v ∈ vs, L.Allows v

/-- The second action gives the entries that the first one gives, with other numbers for scopes. -/
abbrev SimulatesEntries (L : Likeness) : Action (List (String × Value)) → Action (List (String × Value)) → Prop :=
  L.Simulates (List.map fun e => (e.1, e.2.rename L.ρ)) fun es => ∀ e ∈ es, L.Allows e.2

/-- What follows a first step may use its value, which is alike in both. -/
theorem Simulates.bind {x x' : Action α} {k k' : α → Action β} (hx : L.Simulates f ok x x')
    (hk : ∀ a, ok a → L.Simulates g okβ (k a) (k' (f a))) : L.Simulates g okβ (x >>= k) (x' >>= k') := by
  intro a b hab
  obtain ⟨houtcome, hok, hstores, hprinted⟩ := hx a b hab
  rw [Action.bind_apply, Action.bind_apply]
  generalize x a = r at houtcome hok hstores hprinted
  generalize x' b = r' at houtcome hstores hprinted
  obtain ⟨outcome, store, printed⟩ := r
  obtain ⟨outcome', store', printed'⟩ := r'
  simp only at houtcome hok hstores hprinted
  subst houtcome hprinted
  cases outcome with
  | value v =>
      have hrest := hk v (hok v rfl) store store' hstores
      exact ⟨hrest.outcome_eq, hrest.value_ok, hrest.stores, congrArg (_ ++ ·) hrest.printed_eq⟩
  | error e => exact ⟨rfl, nofun, hstores, rfl⟩
  | tooDeep => exact ⟨rfl, nofun, hstores, rfl⟩

theorem simulates_pure {a a' : α} (h : a' = f a) (hok : ok a) : L.Simulates f ok (pure a) (pure a') := by
  subst h
  intro st st' hstores
  refine ⟨rfl, fun b hb => ?_, hstores, rfl⟩
  cases hb
  exact hok

theorem simulates_fail {e e' : EvalError} (h : e' = e.rename L.ρ) :
    L.Simulates f ok (Action.fail e) (Action.fail e') := by
  subst h
  exact fun _ _ hstores => ⟨rfl, nofun, hstores, rfl⟩

theorem simulates_giveUp : L.Simulates f ok Action.giveUp Action.giveUp :=
  fun _ _ hstores => ⟨rfl, nofun, hstores, rfl⟩

/-- A builtin sees nothing of a store, and hands on the mentions of its arguments. -/
theorem simulates_answer (b : Builtin) {args : List Value} (hargs : ∀ v ∈ args, L.Allows v) :
    L.SimulatesValue (Action.answer (b.call args)) (Action.answer (b.call (args.map (Value.rename L.ρ)))) := by
  rw [Builtin.call_rename]
  cases hcall : b.call args with
  | error e => exact simulates_fail rfl
  | ok answer =>
      intro st st' hstores
      refine ⟨rfl, fun v hv => ?_, hstores, rfl⟩
      cases hv
      exact Builtin.onlyMentions_of_call hcall hargs

theorem simulates_lookup (s : ScopeId) {name : String} (hname : L.names name) :
    L.SimulatesValue (Action.lookup s name) (Action.lookup (L.ρ s) name) := by
  intro a b hab
  unfold Action.lookup
  rw [L.get?_eq s hab hname]
  cases hget : a.get? s name with
  | none   => exact ⟨rfl, nofun, hab, rfl⟩
  | some v =>
      refine ⟨rfl, fun w hw => ?_, hab, rfl⟩
      cases hw
      exact L.get?_uses hab hname hget

theorem simulates_define (s : ScopeId) {name : String} {v : Value} (hname : L.names name) (hv : L.Allows v) :
    L.Simulates id (fun _ => True) (Action.define s name v) (Action.define (L.ρ s) name (v.rename L.ρ)) :=
  fun _ _ hab => ⟨rfl, fun _ _ => trivial, L.set s hab hname hv, rfl⟩

theorem simulates_enclose (outer : ScopeId) {bindings : List (String × Value)}
    (hbindings : ∀ e ∈ bindings, L.names e.1 ∧ L.Allows e.2) :
    L.Simulates L.ρ (fun _ => True) (Action.enclose outer bindings)
      (Action.enclose (L.ρ outer) (bindings.map fun e => (e.1, e.2.rename L.ρ))) := by
  intro a b hab
  have hnext := L.nextId_eq hab
  refine ⟨?_, fun _ _ => trivial, ?_, rfl⟩
  · show Outcome.value b.nextId = Outcome.value (L.ρ a.nextId)
    rw [hnext]
  · show L.stores _ ((b.newScope (some (L.ρ outer))).setAll b.nextId _)
    rw [hnext]
    exact setAll a.nextId (L.newScope outer hab) hbindings

end Likeness

end SmallLisp
