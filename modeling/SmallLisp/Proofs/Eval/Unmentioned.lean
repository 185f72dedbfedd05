import SmallLisp.Proofs.Eval.Likeness
import SmallLisp.Proofs.Store

/-!
# `SmallLisp.Proofs.Eval.Unmentioned` — names that a program does not mention

If a name occurs nowhere in a form nor in any value that is bound, then no evaluation of the form can come across
it: symbols are only handed on, never made. So it makes no difference what the name is bound to, in whatever scope.

## Contents
* **Values and stores** that do not mention a name: `Value.Avoids`, `Store.Avoids`.
* **The likeness** `Likeness.binding` of a store and the same store with one more binding, or another one
  (`Store.Rebound`).
* **The result** `eval_set_of_avoids`, with a program that shows it.
-/

namespace SmallLisp

/-! ## Values and stores -/

/-- The name occurs nowhere in the value, neither as a symbol nor as a parameter. -/
def Value.Avoids (x : String) (v : Value) : Prop := v.OnlyMentions (Mention.Uses (· ≠ x))

/-- The name occurs nowhere in the values that are bound in the store. -/
def Store.Avoids (x : String) (st : Store) : Prop := st.OnlyBinds (Mention.Uses (· ≠ x))

/-! ## The likeness -/

theorem EvalError.rename_id (e : EvalError) : e.rename id = e := by
  cases e with
  | malformed fault => cases fault <;> simp [rename, Fault.rename, Value.rename_id]
  | _               => simp [rename, Value.rename_id]

theorem Outcome.rename_id {α : Type} (outcome : Outcome α) {f : α → α} (hf : ∀ a, f a = a) :
    outcome.rename id f = outcome := by
  cases outcome <;> simp [rename, hf, EvalError.rename_id]

/-- The second store is the first one with a value bound to a name that is not mentioned. -/
structure Store.Rebound (o : ScopeId) (x : String) (v : Value) (a b : Store) : Prop where
  eq_set : b = a.set o x v
  has : a.Has o
  avoids : a.Avoids x

namespace Store.Rebound

variable {o : ScopeId} {x : String} {v : Value} {a b : Store}

theorem nextId_eq (h : Rebound o x v a b) : b.nextId = a.nextId := by rw [h.eq_set, nextId_set]

theorem newScope (h : Rebound o x v a b) (outer : Option ScopeId) :
    Rebound o x v (a.newScope outer) (b.newScope outer) :=
  ⟨by rw [h.eq_set, newScope_set h.has], has_newScope.mpr (Or.inl h.has), h.avoids.newScope outer⟩

theorem set (h : Rebound o x v a b) (s : ScopeId) {name : String} {w : Value} (hname : name ≠ x) (hw : w.Avoids x) :
    Rebound o x v (a.set s name w) (b.set s name (w.rename id)) := by
  rw [Value.rename_id]
  exact ⟨by rw [h.eq_set, set_comm (Ne.symm hname)], has_set.mpr h.has, h.avoids.set hw s name⟩

/-- All other names have the values that they had. -/
theorem get?_eq (h : Rebound o x v a b) (s : ScopeId) {name : String} (hname : name ≠ x) :
    b.get? s name = (a.get? s name).map (Value.rename id) := by
  refine get?_of_alike (fun _ _ => Iff.rfl) (fun p => ?_) (fun p => ?_) s
  · show b.outer? p = (a.outer? p).map id
    rw [h.eq_set, outer?_set, Option.map_id, id]
  · show b.own? p name = (a.own? p name).map (Value.rename id)
    rw [h.eq_set, own?_set, if_neg fun heq => hname heq.2.1.symm, funext Value.rename_id, Option.map_id']

end Store.Rebound

/-- A store is alike to itself with any value bound to a name that is not mentioned. -/
def Likeness.binding (o : ScopeId) (x : String) (v : Value) : Likeness where
  ρ := id
  names := (· ≠ x)
  stores := Store.Rebound o x v
  nextId_eq h := h.nextId_eq
  newScope outer h := h.newScope (some outer)
  set s _ _ h hname hw := h.set s hname hw
  get?_eq s _ h hname := h.get?_eq s hname
  get?_uses h _ hv := h.avoids.get? hv

/-! ## The result -/

/-- **A name that is not mentioned has no influence.** If a name occurs nowhere in the form and in no value that is
bound in the store, then binding it, anew or not, to any value in any one scope changes nothing: the evaluation
ends alike, prints the same text, and leaves the same store, but for that one binding. -/
theorem eval_set_of_avoids {x : String} {form : Value} {st : Store} {o : ScopeId} (hform : form.Avoids x)
    (hst : st.Avoids x) (ho : st.Has o) (depth : Nat) (s : ScopeId) (v : Value) :
    eval depth form s (st.set o x v) =
      { eval depth form s st with store := (eval depth form s st).store.set o x v } := by
  obtain ⟨houtcome, -, hstores, hprinted⟩ :=
    (Likeness.binding o x v).simulates_eval depth form s hform st (st.set o x v) ⟨rfl, ho, hst⟩
  have hstore := hstores.eq_set
  simp only [Likeness.binding, Value.rename_id, Outcome.rename_id _ Value.rename_id, id] at houtcome hstore hprinted
  generalize eval depth form s (st.set o x v) = r at houtcome hstore hprinted ⊢
  obtain ⟨outcome, store, printed⟩ := r
  subst houtcome hstore hprinted
  rfl

/-- The name `x` is bound in the scope of the evaluation itself, to a function that would look it up. -/
theorem eval_set_of_unused_function :
    let root := (Store.empty.newScope none).set ⟨0⟩ "f" (.closure ["a"] (.symbol "a") ⟨0⟩)
    let st := (root.newScope (some ⟨0⟩)).set ⟨1⟩ "x" (.integer 1)
    let call (v : Value) := Value.list [.symbol "f", v]
    let form := Value.list [.symbol "do", .list [.symbol "def!", .symbol "y", call (.integer 7)], call (.symbol "y")]
    let v := Value.closure [] (.symbol "x") ⟨1⟩
    form.Avoids "x" ∧ st.Avoids "x" ∧ st.Has ⟨1⟩ ∧
    (eval 4 form ⟨1⟩ st).outcome = .value (.integer 7) ∧
    eval 4 form ⟨1⟩ (st.set ⟨1⟩ "x" v) =
      { eval 4 form ⟨1⟩ st with store := (eval 4 form ⟨1⟩ st).store.set ⟨1⟩ "x" v } := by
  intro root st call form v
  have hform : form.Avoids "x" := by simp [form, call, Value.Avoids, Mention.Uses]
  have hroot : root.Avoids "x" :=
    (Store.onlyBinds_empty.newScope none).set (by simp [Mention.Uses]) ⟨0⟩ "f"
  have hst : st.Avoids "x" := (hroot.newScope (some ⟨0⟩)).set (Value.onlyMentions_integer 1) ⟨1⟩ "x"
  have ho : st.Has ⟨1⟩ := by decide
  exact ⟨hform, hst, ho, by with_unfolding_all rfl, eval_set_of_avoids hform hst ho 4 ⟨1⟩ v⟩

end SmallLisp
