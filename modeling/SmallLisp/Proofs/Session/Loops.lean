import SmallLisp.Proofs.Session.Scopes

/-!
# `SmallLisp.Proofs.Session.Loops` — where scopes come to refer to themselves

A scope refers to the scope around it and to those of all closures that it binds, at any depth. Outer links lead back
in time, but a closure may be bound in the very scope that it was made in, or in one that its own scope can reach, and
then scopes refer to one another in a loop. A recursive function is such a closure, and so is one that the prelude
binds, so there is no evaluation without loops. What can be said is where they come from. Making a scope never closes
a loop, be it for a call with all the bindings of its parameters or for a `let*` form. A loop is closed where a `def!`
or a `let*` form binds a closure in a scope that the scope of the closure reaches, and nowhere else.

## Contents
* **References** `Store.Refers`, `Store.Loops`.
* **Relations** with new pairs: `transGen_of_fresh`, `transGen_of_extended`, `reflTransGen_up_to`.
* **Operations** `loops_of_loops_enclose`, `closesLoop_of_loops_set`, and `loops_set` for the converse.
* **Evaluations that close no loop** `evalRefusingLoops`, which keep `Invariant.Core.loopless`.
* **The result** `loops_come_from_bindings`, with a closure over its own scope and a program without loops.
-/

namespace SmallLisp

open Relation (ReflTransGen TransGen)

/-! ## References -/

/-- The value holds a closure over the scope, at any depth. -/
def Value.Captures (v : Value) (o : ScopeId) : Prop := ∃ params body, Mention.closure params body o ∈ v.mentions

namespace Store

/-- A scope refers to the one around it and to the scopes of the closures that its bindings hold. -/
inductive Refers (st : Store) (s o : ScopeId) : Prop where
  | outward : st.outer? s = some o → Refers st s o
  | binding {name : String} {v : Value} : st.own? s name = some v → v.Captures o → Refers st s o

/-- A scope that can be reached from itself. -/
def Loops (st : Store) (s : ScopeId) : Prop := TransGen st.Refers s s

/-- Bound in the scope `s`, the value would close a loop through a scope of `T`: it holds a closure from whose scope
there is a way to `s` over a scope of `T`. -/
def ClosesLoop (T : ScopeId → Prop) (st : Store) (s : ScopeId) (v : Value) : Prop :=
  ∃ c o, v.Captures c ∧ T o ∧ ReflTransGen st.Refers c o ∧ ReflTransGen st.Refers o s

end Store

theorem Value.InStore.has_of_captures {v : Value} {st : Store} {o : ScopeId} (hv : v.InStore st) (h : v.Captures o) :
    st.Has o := by
  obtain ⟨params, body, hmem⟩ := h
  exact hv _ hmem

/-! ## Relations -/

section Relations

variable {α : Type} {R R' : α → α → Prop}

/-- If nothing is related to a fresh element, then it is on no loop. -/
theorem transGen_of_fresh {fresh a b : α} (h : ∀ a b, R' a b → b ≠ fresh ∧ (a ≠ fresh → R a b))
    (hab : TransGen R' a b) : b ≠ fresh ∧ (a ≠ fresh → TransGen R a b) := by
  induction hab with
  | single hab =>
      obtain ⟨hne, hold⟩ := h _ _ hab
      exact ⟨hne, fun ha => TransGen.single (hold ha)⟩
  | tail _ hbc ih =>
      obtain ⟨hb, hab⟩ := ih
      obtain ⟨hc, hold⟩ := h _ _ hbc
      exact ⟨hc, fun ha => (hab ha).tail (hold hb)⟩

/-- Where all new pairs start at `s`, a way that was not there before leads to `s` by old pairs, then takes a new one,
and goes on by old pairs. -/
theorem transGen_of_extended {s a b : α} {new : α → Prop} (h : ∀ a b, R' a b → R a b ∨ (a = s ∧ new b))
    (hab : TransGen R' a b) :
    TransGen R a b ∨ (ReflTransGen R a s ∧ ∃ c, new c ∧ ReflTransGen R c b) := by
  induction hab with
  | single hab =>
      rcases h _ _ hab with hold | ⟨rfl, hnew⟩
      · exact Or.inl (TransGen.single hold)
      · exact Or.inr ⟨ReflTransGen.refl, _, hnew, ReflTransGen.refl⟩
  | tail _ hbc ih =>
      rcases h _ _ hbc with hold | ⟨rfl, hnew⟩
      · rcases ih with hab | ⟨has, c, hc, hcb⟩
        · exact Or.inl (hab.tail hold)
        · exact Or.inr ⟨has, c, hc, hcb.tail hold⟩
      · rcases ih with hab | ⟨has, -⟩
        · exact Or.inr ⟨hab.to_reflTransGen, _, hnew, ReflTransGen.refl⟩
        · exact Or.inr ⟨has, _, hnew, ReflTransGen.refl⟩

/-- A way to `s` may be followed up to where it first meets `s`. -/
theorem reflTransGen_up_to {s a : α} (h : ReflTransGen R a s) : ReflTransGen (fun a b => a ≠ s ∧ R a b) a s := by
  induction h using ReflTransGen.head_induction_on with
  | refl => exact ReflTransGen.refl
  | head hab _ ih =>
      rename_i a b _
      by_cases ha : a = s
      · rw [ha]
      · exact ih.head ⟨ha, hab⟩

end Relations

/-! ## Operations -/

namespace Store

variable {st : Store} {s o a b : ScopeId} {T : ScopeId → Prop}

theorem has_of_refers (h : st.Refers a b) : st.Has a := by
  by_contra hnot
  cases h with
  | outward houter => exact hnot (has_of_outer? houter)
  | binding hown _ =>
      rw [own?_eq_none hnot] at hown
      cases hown

theorem has_of_loops (h : st.Loops s) : st.Has s := by
  obtain ⟨o, hso, -⟩ := TransGen.head'_iff.mp h
  exact has_of_refers hso

/-- A binding adds references from its own scope only, to the scopes that the value captures. -/
theorem refers_set {name : String} {v : Value} (h : (st.set s name v).Refers a b) :
    st.Refers a b ∨ (a = s ∧ v.Captures b) := by
  cases h with
  | outward houter =>
      rw [outer?_set] at houter
      exact Or.inl (Refers.outward houter)
  | binding hown hcaptures =>
      rw [own?_set] at hown
      split at hown
      · rename_i hs
        cases hown
        exact Or.inr ⟨hs.1.symm, hcaptures⟩
      · exact Or.inl (Refers.binding hown hcaptures)

/-- **A binding closes a loop** only by a closure from whose scope there is a way to the scope of the binding. -/
theorem closesLoop_of_loops_set {name : String} {v : Value} (ho : T o) (hst : ¬ st.Loops o)
    (h : (st.set s name v).Loops o) : st.ClosesLoop T s v := by
  have hedges : ∀ a b, (st.set s name v).Refers a b → st.Refers a b ∨ (a = s ∧ v.Captures b) := fun a b => refers_set
  rcases transGen_of_extended hedges h with hold | ⟨hos, c, hcaptures, hco⟩
  · exact absurd hold hst
  · exact ⟨c, o, hcaptures, ho, hco, hos⟩

/-- Every such binding closes a loop, whatever it replaces. -/
theorem loops_set (hs : st.Has s) {c : ScopeId} {v : Value} (hcaptures : v.Captures c)
    (hcs : ReflTransGen st.Refers c s) (name : String) : (st.set s name v).Loops s := by
  have hown : (st.set s name v).own? s name = some v := by rw [own?_set, if_pos ⟨rfl, rfl, hs⟩]
  -- The binding may replace one that the way goes over, but not before the way comes to `s`.
  have hold : ∀ a b, a ≠ s ∧ st.Refers a b → (st.set s name v).Refers a b := by
    rintro a b ⟨ha, hab⟩
    cases hab with
    | outward houter => exact Refers.outward (by rwa [outer?_set])
    | binding hown hcaptures =>
        exact Refers.binding (by rwa [own?_set, if_neg fun h => ha h.1.symm]) hcaptures
  exact TransGen.head' (Refers.binding hown hcaptures) (ReflTransGen.mono hold _ _ (reflTransGen_up_to hcs))

variable {root outer : ScopeId} {bindings : List (String × Value)}

/-- What is referred to is there. -/
theorem has_of_refers_to (hst : (Invariant.scopes root).good st) (h : st.Refers a b) : st.Has b := by
  cases h with
  | outward houter => exact hst.1.has_outer houter
  | binding hown hcaptures => exact Value.InStore.has_of_captures (hst.2.values _ _ _ hown) hcaptures

/-- Nothing refers to a new scope, and all other scopes refer to what they did before. -/
theorem refers_enclose (hst : (Invariant.scopes root).good st) (houter : st.Has outer)
    (hbindings : ∀ e ∈ bindings, e.2.InStore st)
    (h : ((st.newScope (some outer)).setAll st.nextId bindings).Refers a b) :
    b ≠ st.nextId ∧ (a ≠ st.nextId → st.Refers a b) := by
  have hne : ∀ o, st.Has o → o ≠ st.nextId := by
    rintro o ho rfl
    exact Nat.lt_irrefl _ ho
  by_cases ha : a = st.nextId
  · subst ha
    refine ⟨hne b ?_, fun hnot => absurd rfl hnot⟩
    cases h with
    | outward h =>
        rw [outer?_setAll, outer?_newScope, if_pos rfl] at h
        cases h
        exact houter
    | binding hown hcaptures =>
        rw [own?_newScope_setAll] at hown
        have hmem := List.mem_reverse.mp (Entries.mem_of_find? hown)
        exact Value.InStore.has_of_captures (hbindings _ hmem) hcaptures
  · have hscope : ((st.newScope (some outer)).setAll st.nextId bindings).scope? a = st.scope? a := by
      rw [scope?_setAll_of_ne ha, scope?_newScope, if_neg ha]
    have hold : st.Refers a b := by
      cases h with
      | outward h =>
          rw [outer?, hscope] at h
          exact Refers.outward h
      | binding hown hcaptures =>
          rw [own?, hscope] at hown
          exact Refers.binding hown hcaptures
    exact ⟨hne b (has_of_refers_to hst hold), fun _ => hold⟩

/-- **Making a scope closes no loop**, whatever it binds from the start. -/
theorem loops_of_loops_enclose (hst : (Invariant.scopes root).good st) (houter : st.Has outer)
    (hbindings : ∀ e ∈ bindings, e.2.InStore st)
    (h : ((st.newScope (some outer)).setAll st.nextId bindings).Loops o) : st.Loops o := by
  obtain ⟨hne, hold⟩ := transGen_of_fresh (fun _ _ => refers_enclose hst houter hbindings) h
  exact hold hne

end Store

/-! ## Evaluations that close no loop -/

namespace Eval

open Classical in
/-- Gives a value that is to be bound in a scope, but gives up where this would close a loop through a scope of `T`. -/
noncomputable def refuseLoop (T : ScopeId → Prop) (s : ScopeId) (v : Value) : Action Value := fun st =>
  if st.ClosesLoop T s v then ⟨.tooDeep, st, ""⟩ else ⟨.value v, st, ""⟩

/-- An evaluator for forms whose values are to be bound in their scope. -/
noncomputable def refuseLoops (T : ScopeId → Prop) (ev : Evaluator) : Evaluator := fun form s =>
  ev form s >>= refuseLoop T s

end Eval

open Eval

/-- Evaluation that gives up where a `def!` or a `let*` form would close a loop through a scope of `T`. -/
noncomputable def evalRefusingLoops (T : ScopeId → Prop) : Nat → Evaluator
  | 0         => fun _ _ => Action.giveUp
  | depth + 1 => evalFormWith (refuseLoops T (evalRefusingLoops T depth)) (evalRefusingLoops T depth)

section Refusing

variable {T : ScopeId → Prop} {root : ScopeId}

theorem refuseLoop_eq {s : ScopeId} {v : Value} {st : Store} (h : ¬ st.ClosesLoop T s v) :
    refuseLoop T s v st = (pure v : Action Value) st := if_neg h

theorem refuseLoops_eq {ev : Evaluator} {form v : Value} {s : ScopeId} {st : Store}
    (h : (ev form s st).outcome = .value v) (hv : ¬ (ev form s st).store.ClosesLoop T s v) :
    refuseLoops T ev form s st = ev form s st := by
  rw [refuseLoops, Action.bind_apply]
  generalize ev form s st = run at h hv
  obtain ⟨outcome, after, text⟩ := run
  cases h
  simp [refuseLoop_eq hv, Action.pure_apply]

/-- Where there is no scope to protect, nothing is refused. -/
theorem evalRefusingLoops_of_forall_not (hT : ∀ o, ¬ T o) (depth : Nat) : evalRefusingLoops T depth = eval depth := by
  induction depth with
  | zero => rfl
  | succ depth ih =>
      have hrefuse : refuseLoops T (eval depth) = eval depth := by
        funext form s
        have hpure : refuseLoop T s = pure := by
          funext v st
          apply refuseLoop_eq
          rintro ⟨_, o, _, ho, _⟩
          exact hT o ho
        rw [refuseLoops, hpure, bind_pure]
      rw [evalRefusingLoops, ih, hrefuse, evalFormWith_self]
      rfl

/-- All scopes but the root are inside earlier ones, closures know only scopes that are there, and no scope of `T` can
be reached from itself. A binding in a scope need not keep this. -/
def Invariant.Core.loopless (root : ScopeId) (T : ScopeId → Prop) : Invariant.Core :=
  { (Invariant.scopes root).toCore with
    good := fun st => (Invariant.scopes root).good st ∧ ∀ o, T o → ¬ st.Loops o
    good_newScope := fun ⟨hst, hloops⟩ hs =>
      ⟨(Invariant.scopes root).good_newScope hst hs, fun o ho h =>
        hloops o ho (Store.loops_of_loops_enclose hst hs (List.forall_mem_nil _) h)⟩
    good_call := fun ⟨hst, hloops⟩ hf hbindings =>
      ⟨(Invariant.scopes root).good_call hst hf hbindings, fun o ho h =>
        hloops o ho (Store.loops_of_loops_enclose hst (Value.onlyMentions_closure.mp hf).1 hbindings h)⟩
    fits_get? := fun ⟨hst, _⟩ hget => (Invariant.scopes root).fits_get? hst hget }

namespace Invariant

open Invariant.Core

/-- What is not refused may be bound. -/
theorem keeps_refuseLoop {s : ScopeId} {st : Store} {v : Value} (hst : (loopless root T).good st)
    (hv : (loopless root T).fits st v) :
    (loopless root T).Keeps
      (fun after v => (loopless root T).fits after v ∧ ∀ name, (loopless root T).good (after.set s name v))
      (refuseLoop T s v) st := by
  unfold Keeps refuseLoop
  split
  · exact keeps_giveUp hst
  · rename_i hcloses
    obtain ⟨hscopes, hloops⟩ := hst
    refine ⟨Store.Grows.refl st, ⟨hscopes, hloops⟩, fun w hw => ?_, nofun⟩
    cases hw
    refine ⟨hv, fun name => ⟨(Invariant.scopes root).good_set s name hscopes hv, fun o ho h => ?_⟩⟩
    exact hcloses (Store.closesLoop_of_loops_set ho (hloops o ho) h)

theorem boundBy_refuseLoops {ev : Evaluator} (hev : (loopless root T).KeptBy ev) :
    (loopless root T).BoundBy (refuseLoops T ev) := by
  intro form s st hst hs hform
  exact (hev form s st hst hs hform).bind fun v after _ hgood hv => keeps_refuseLoop hgood hv

theorem keptBy_evalRefusingLoops (depth : Nat) : (loopless root T).KeptBy (evalRefusingLoops T depth) := by
  induction depth with
  | zero          => exact fun _ _ _ hst _ _ => keeps_giveUp hst
  | succ depth ih => exact keptBy_evalFormWith (boundBy_refuseLoops ih) ih

end Invariant

end Refusing

namespace Store

/-- An evaluation or a call that a program may ask for and in which no `def!` or `let*` form closes a loop through a
scope of `T`: it goes as it does where such bindings are refused. -/
inductive LooplessStep (T : ScopeId → Prop) : Store → Store → Prop where
  | eval {st : Store} (depth : Nat) {form : Value} {s : ScopeId} : st.Has s → form.InStore st →
      evalRefusingLoops T depth form s st = SmallLisp.eval depth form s st →
      LooplessStep T st (SmallLisp.eval depth form s st).store
  | apply {st : Store} (depth : Nat) {f : Value} {args : List Value} : f.InStore st → (∀ v ∈ args, v.InStore st) →
      Eval.apply (evalRefusingLoops T depth) f args st = Eval.apply (SmallLisp.eval depth) f args st →
      LooplessStep T st (Eval.apply (SmallLisp.eval depth) f args st).store

variable {T : ScopeId → Prop} {root : ScopeId} {a b : Store}

theorem LooplessStep.good (h : LooplessStep T a b) (ha : (Invariant.Core.loopless root T).good a) :
    (Invariant.Core.loopless root T).good b := by
  cases h with
  | eval depth hs hform hrun =>
      rw [← hrun]
      exact (Invariant.keptBy_evalRefusingLoops depth _ _ a ha hs hform).good
  | apply depth hf hargs hrun =>
      rw [← hrun]
      exact (Invariant.keeps_apply (Invariant.keptBy_evalRefusingLoops depth) ha hf hargs).good

theorem good_of_looplessSteps (h : ReflTransGen (LooplessStep T) a b)
    (ha : (Invariant.Core.loopless root T).good a) : (Invariant.Core.loopless root T).good b := by
  induction h with
  | refl => exact ha
  | tail _ hstep ih => exact hstep.good ih

theorem not_loops_newScope_empty (o : ScopeId) : ¬ (empty.newScope none).Loops o := by
  intro h
  obtain ⟨p, hop, -⟩ := TransGen.head'_iff.mp h
  cases hop with
  | outward houter =>
      rw [outer?_newScope] at houter
      split at houter <;> cases houter
  | binding hown _ =>
      rw [own?_newScope, own?_eq_none (Nat.not_lt_zero _)] at hown
      cases hown

end Store

namespace Session

theorem eq_zero_of_loops_root {limit : Nat} {o : ScopeId} (h : (root limit).store.Loops o) : o = ⟨0⟩ := by
  obtain ⟨bindings, hroot, -⟩ := exists_root_eq_setAll limit
  have hhas := Store.has_of_loops h
  rw [hroot, Store.has_setAll] at hhas
  exact (Store.has_newScope.mp hhas).resolve_left (Nat.not_lt_zero _)

end Session

/-! ## The result -/

/-- **Loops come from bindings.** Start with one empty scope and let `T` be any scopes, or start with a root session
and leave out its root. Evaluate and call whatever you like as long as no `def!` and no `let*` form binds, in a scope, a
closure from whose scope there is a way to that scope over a scope of `T`. Then no scope of `T` can be reached from
itself. Conversely every binding of a closure in a scope that the scope of the closure reaches lets that scope be
reached from itself. -/
theorem loops_come_from_bindings {T : ScopeId → Prop} {limit : Nat} {start st : Store}
    (hstart : start = (Session.empty limit).store ∨ (start = (Session.root limit).store ∧ ¬ T ⟨0⟩))
    (h : ReflTransGen (Store.LooplessStep T) start st) :
    (∀ o, T o → ¬ st.Loops o) ∧
    ∀ s name v c, st.Has s → v.Captures c → ReflTransGen st.Refers c s → (st.set s name v).Loops s := by
  have hgood : (Invariant.Core.loopless ⟨0⟩ T).good start := by
    rcases hstart with rfl | ⟨rfl, hT⟩
    · have hclosed : (Store.empty.newScope none).Closed := Store.closed_empty.newScope nofun
      exact ⟨⟨Store.rooted_newScope_empty, hclosed⟩, fun o _ => Store.not_loops_newScope_empty o⟩
    · have hroot := (Session.good_root_scopes limit).store
      rw [Session.scope_root] at hroot
      refine ⟨hroot, fun o ho hloops => hT ?_⟩
      rwa [← Session.eq_zero_of_loops_root hloops]
  refine ⟨(Store.good_of_looplessSteps h hgood).2, ?_⟩
  intro s name v c hs hcaptures hcs
  exact Store.loops_set hs hcaptures hcs name

/-- After `(def! f (fn* () f))` the scope binds a closure over itself, and so does every root scope. -/
theorem closure_over_own_scope_loops :
    let f := Value.symbol "f"
    let form := Value.list [.symbol "def!", f, .list [.symbol "fn*", .list [], f]]
    let session := Session.empty 2
    let st := (eval 2 form session.scope session.store).store
    ReflTransGen Store.Step session.store st ∧ st.Loops session.scope ∧
      (Session.root 2).store.Loops (Session.root 2).scope := by
  intro f form session st
  have hform : form.InStore session.store := by simp [Value.InStore, form, f, Mention.InStore]
  have hown : st.own? session.scope "f" = some (.closure [] f ⟨0⟩) := rfl
  refine ⟨ReflTransGen.single (Store.Step.eval 2 (by decide) hform), ?_, ?_⟩
  · exact TransGen.single (Store.Refers.binding hown ⟨_, _, List.mem_cons_self⟩)
  · have hroot : (Session.root 2).store.own? ⟨0⟩ "not" = some (.closure ["a"]
        (.list [.symbol "if", .symbol "a", .boolean false, .boolean true]) ⟨0⟩) := by
      cbv
    rw [Session.scope_root]
    exact TransGen.single (Store.Refers.binding hroot ⟨_, _, List.mem_cons_self⟩)

/-- In `(def! x ((fn* (g) (g)) (fn* () 1)))` a function is handed to another one, and no loop is closed. -/
theorem function_as_argument_closes_no_loop :
    let call := Value.list [.list [.symbol "fn*", .list [.symbol "g"], .list [.symbol "g"]],
      .list [.symbol "fn*", .list [], .integer 1]]
    let form := Value.list [.symbol "def!", .symbol "x", call]
    let session := Session.empty 5
    let st := (eval 5 form session.scope session.store).store
    st.own? ⟨1⟩ "g" = some (.closure [] (.integer 1) session.scope) ∧
      st.own? session.scope "x" = some (.integer 1) ∧ ∀ o, ¬ st.Loops o := by
  intro call form session st
  have hg : st.own? ⟨1⟩ "g" = some (.closure [] (.integer 1) session.scope) := by
    simp only [st, session, form, call]
    cbv
  have hx : st.own? session.scope "x" = some (.integer 1) := by
    simp only [st, session, form, call]
    cbv
  refine ⟨hg, hx, ?_⟩
  let T : ScopeId → Prop := fun _ => True
  have hcall : evalRefusingLoops T 4 call session.scope session.store = eval 4 call session.scope session.store := by
    simp only [session, call]
    cbv
  have hone : (evalRefusingLoops T 4 call session.scope session.store).outcome = .value (.integer 1) := by
    simp only [session, call]
    cbv
  have hbound : refuseLoops T (evalRefusingLoops T 4) call session.scope session.store =
      eval 4 call session.scope session.store := by
    rw [refuseLoops_eq hone, hcall]
    rintro ⟨c, o, ⟨params, body, hmem⟩, -⟩
    cases hmem
  have hrun : evalRefusingLoops T 5 form session.scope session.store = eval 5 form session.scope session.store := by
    let rest : Value → Action Value := fun v => do
      Action.define session.scope "x" v
      return v
    show (refuseLoops T (evalRefusingLoops T 4) call session.scope >>= rest) session.store =
      (eval 4 call session.scope >>= rest) session.store
    rw [Action.bind_apply, Action.bind_apply, hbound]
  have hscope : session.store.Has session.scope := by decide
  have hform : form.InStore session.store := by simp [Value.InStore, form, call, Mention.InStore]
  have hstep : Store.LooplessStep T session.store st := Store.LooplessStep.eval 5 hscope hform hrun
  have hloops := (loops_come_from_bindings (Or.inl rfl) (ReflTransGen.single hstep)).1
  exact fun o => hloops o trivial

end SmallLisp
