import Mathlib.Data.List.TakeWhile
import SmallLisp.Proofs.Entries
import SmallLisp.Proofs.Eval.Likeness
import SmallLisp.Proofs.Scoping

/-!
# `SmallLisp.Proofs.Eval.Call` — what a call binds

Three places read a parameter list: the form that makes a function refuses a marker with nothing after it, the arity
decides how many arguments will do, and a call binds names until it meets the marker. For functions that such a form
has made they fit together. A call with the right number of arguments gives every reachable parameter its value and
uses every argument; any other call is refused before anything happens.

## Contents
* **Reading a parameter list** `Params.rest?`, `Params.Refuses`, and the values of the parameters, `Params.Binds`.
* **Bindings in order** `Params.pairs`, with any number of arguments (`bindings_eq_pairs`) and with enough of them
  (`bindings_eq`), of which the last one for a name counts (`find?_bindings_reverse`).
* **The new scope** `Params.Entered`, which every call with the right number of arguments enters (`Params.entered`).
* **The result** `call_binds_reachable_parameters`, with a repeated name and two markers.
-/

namespace SmallLisp

/-! ## Reading a parameter list -/

namespace Params

/-- The parameter for the remaining arguments: the name right after the marker. -/
def rest? (params : List String) : Option String := (fromMarker params).tail.head?

/-- So many arguments will not do: there is no marker and their number is another than that of the parameters, or they
are fewer than the parameters before the marker. -/
def Refuses (params : List String) (n : Nat) : Prop :=
  (restMarker ∉ params ∧ n ≠ params.length) ∨ (restMarker ∈ params ∧ n < (fixed params).length)

instance (params : List String) (n : Nat) : Decidable (Refuses params n) := inferInstanceAs (Decidable (_ ∨ _))

/-- A parameter and the value that a call gives it. Of a repeated name the last place counts, and that of the
remaining arguments is behind all others. -/
inductive Binds (params : List String) (args : List Value) : String → Value → Prop where
  | rest {name : String} : rest? params = some name → Binds params args name (.list (args.drop (fixed params).length))
  | fixed {name : String} {v : Value} (i : Nat) : rest? params ≠ some name → (fixed params)[i]? = some name →
      args[i]? = some v → (∀ j : Nat, i < j → (fixed params)[j]? ≠ some name) → Binds params args name v

variable {params : List String} {args : List Value} {n : Nat}

theorem accepts_iff : (arity params).accepts n = true ↔ ¬ Refuses params n := by
  unfold arity Refuses
  by_cases hmarker : restMarker ∈ params
  · simp [hmarker, Arity.accepts]
  · simp [hmarker, Arity.accepts]

/-- Without a marker all parameters are fixed. -/
theorem fixed_eq_self (h : restMarker ∉ params) : fixed params = params := by
  rw [fixed, List.takeWhile_eq_self_iff]
  intro param hparam
  rw [bne_iff_ne]
  rintro rfl
  exact h hparam

/-- Without a marker no parameter takes the remaining arguments. -/
theorem rest?_eq_none (h : restMarker ∉ params) : rest? params = none := by
  have hsplit : fixed params ++ fromMarker params = params := List.takeWhile_append_dropWhile
  rw [fixed_eq_self h, List.append_right_eq_self] at hsplit
  rw [rest?, hsplit]
  rfl

/-- Where no marker stands last, a marker announces a parameter. -/
theorem exists_rest?_of_marker (hmarks : marksNothing params = false) (hmarker : restMarker ∈ params) :
    ∃ name, rest? params = some name := by
  unfold marksNothing at hmarks
  unfold rest?
  have hne : fromMarker params ≠ [] := by
    rw [fromMarker, Ne, List.dropWhile_eq_nil_iff]
    intro hall
    simpa using hall restMarker hmarker
  rcases hfrom : fromMarker params with _ | ⟨marker, _ | ⟨name, names⟩⟩
  · exact absurd hfrom hne
  · rw [hfrom] at hmarks
    cases hmarks
  · exact ⟨name, rfl⟩

/-! ## Bindings in order -/

/-- Parameters and the arguments that go with them, in order: the parameters before the marker and the arguments at
their places, as far as these go, and then, if they reach the marker, the parameter behind it and those that remain. -/
def pairs (params : List String) (args : List Value) : List (String × Value) :=
  (fixed params).zip args ++
    if (fixed params).length ≤ args.length then
      (rest? params).toList.map fun name => (name, .list (args.drop (fixed params).length))
    else []

/-- What is bound does not depend on the number of arguments being right. -/
theorem bindings_eq_pairs (params : List String) (args : List Value) : bindings params args = pairs params args := by
  induction params generalizing args with
  | nil => simp [bindings, pairs, fixed, rest?, fromMarker]
  | cons param params ih =>
      unfold bindings pairs
      by_cases hparam : param = restMarker
      · rw [if_pos hparam]
        cases params <;> simp [fixed, rest?, fromMarker, hparam]
      · have hfixed : fixed (param :: params) = param :: fixed params := by simp [fixed, hparam]
        have hrest : rest? (param :: params) = rest? params := by simp [rest?, fromMarker, hparam]
        rw [if_neg hparam, hfixed, hrest]
        cases args with
        | nil => rfl
        | cons arg args =>
            dsimp only
            rw [ih args, pairs]
            simp only [List.zip_cons_cons, List.length_cons, Nat.add_le_add_iff_right, List.drop_succ_cons,
              List.cons_append]

/-- A call with enough arguments binds the fixed parameters to the arguments at their places, and then the remaining
arguments. -/
theorem bindings_eq (h : (fixed params).length ≤ args.length) :
    bindings params args = (fixed params).zip args ++
      (rest? params).toList.map fun name => (name, .list (args.drop (fixed params).length)) := by
  rw [bindings_eq_pairs, pairs, if_pos h]

end Params

namespace Entries

variable {α : Type}

/-- Of some names that stand for the values at their places the last one of a name is found from behind. -/
theorem find?_zip_reverse {key : String} {names : List String} {vs : List α} (h : names.length ≤ vs.length) (v : α) :
    find? key (names.zip vs).reverse = some v ↔
      ∃ i, names[i]? = some key ∧ vs[i]? = some v ∧ ∀ j : Nat, i < j → names[j]? ≠ some key := by
  induction names generalizing vs with
  | nil => simp [find?]
  | cons name names ih =>
      cases vs with
      | nil => simp at h
      | cons w vs =>
          have hkeys : find? key (names.zip vs).reverse = none ↔ key ∉ names := by
            rw [find?_eq_none_iff, keys, List.map_reverse, List.map_fst_zip (Nat.le_of_succ_le_succ h), List.mem_reverse]
          rw [List.zip_cons_cons, List.reverse_cons, find?_append, Option.or_eq_some_iff, hkeys,
            ih (Nat.le_of_succ_le_succ h)]
          constructor
          · rintro (⟨i, hname, hv, hlast⟩ | ⟨hnotin, hhead⟩)
            · refine ⟨i + 1, hname, hv, fun j hj => ?_⟩
              obtain ⟨j, rfl⟩ := Nat.exists_eq_succ_of_ne_zero (Nat.ne_zero_of_lt hj)
              exact hlast j (Nat.lt_of_succ_lt_succ hj)
            · obtain ⟨rfl, rfl⟩ : name = key ∧ w = v := by simpa [find?] using hhead
              refine ⟨0, rfl, rfl, fun j hj hmem => ?_⟩
              obtain ⟨j, rfl⟩ := Nat.exists_eq_succ_of_ne_zero (Nat.ne_zero_of_lt hj)
              exact hnotin (List.mem_of_getElem? hmem)
          · rintro ⟨i, hname, hv, hlast⟩
            cases i with
            | zero =>
                obtain rfl := Option.some.inj hname
                obtain rfl := Option.some.inj hv
                refine Or.inr ⟨fun hmem => ?_, by simp [find?]⟩
                obtain ⟨j, hj⟩ := List.mem_iff_getElem?.mp hmem
                exact hlast (j + 1) (Nat.succ_pos j) hj
            | succ i => exact Or.inl ⟨i, hname, hv, fun j hj => hlast (j + 1) (Nat.succ_lt_succ hj)⟩

end Entries

/-! ## The result -/

namespace Params

variable {params : List String} {args : List Value}

/-- The last binding of a name is the value that the parameter of that name has. -/
theorem find?_bindings_reverse (h : (fixed params).length ≤ args.length) (name : String) (v : Value) :
    Entries.find? name (bindings params args).reverse = some v ↔ Binds params args name v := by
  rw [bindings_eq h, List.reverse_append, Entries.find?_append]
  by_cases hrest : rest? params = some name
  · rw [hrest]
    simp only [Option.toList_some, List.map_cons, List.map_nil, List.reverse_singleton, Entries.find?, if_true,
      Option.some_or, Option.some.injEq]
    constructor
    · rintro rfl
      exact Binds.rest hrest
    · rintro (_ | ⟨_, hne, _, _, _⟩)
      · rfl
      · exact absurd hrest hne
  · have hnone : Entries.find? name ((rest? params).toList.map fun name =>
        (name, Value.list (args.drop (fixed params).length))).reverse = none := by
      cases hother : rest? params with
      | none       => rfl
      | some other =>
          have hne : other ≠ name := by
            rintro rfl
            exact hrest hother
          simp [Entries.find?, hne]
    rw [hnone, Option.none_or, Entries.find?_zip_reverse h]
    constructor
    · rintro ⟨i, hname, hv, hlast⟩
      exact Binds.fixed i hrest hname hv hlast
    · rintro (hrest' | ⟨i, _, hname, hv, hlast⟩)
      · exact absurd hrest' hrest
      · exact ⟨i, hname, hv, hlast⟩

end Params

namespace Eval

/-- A function that an `fn*` form makes is a closure over the scope of the form, with the parameters written there and
no marker standing last. -/
theorem closure_of_function {depth : Nat} {s : ScopeId} {st : Store} {parts : List Value} {f : Value}
    (h : (eval depth (.list (.symbol "fn*" :: parts)) s st).outcome = .value f) :
    ∃ paramList params body, parts = [paramList, body] ∧ paramList.items? = some (params.map Value.symbol) ∧
      f = .closure params body s ∧ Params.marksNothing params = false := by
  cases depth with
  | zero => cases h
  | succ depth =>
      change (evalFunction s parts st).outcome = .value f at h
      match parts, h with
      | [paramList, body], h =>
          simp only [evalFunction] at h
          cases hitems : paramList.items? with
          | none =>
              rw [hitems] at h
              cases h
          | some items =>
              simp only [hitems] at h
              cases hnames : paramNames items with
              | error fault =>
                  rw [hnames] at h
                  cases h
              | ok params =>
                  simp only [hnames] at h
                  split at h
                  · cases h
                  · rename_i hmarks
                    cases h
                    refine ⟨paramList, params, body, rfl, ?_, rfl, by simpa using hmarks⟩
                    rw [hitems, paramNames_eq_ok hnames]
      | [], h | [_], h | _ :: _ :: _ :: _, h => cases h

end Eval

namespace Params

/-- The store with the scope of a call: a new scope inside `s` that binds the reachable parameters, each to its value,
and nothing else, in a store that is otherwise as before. -/
structure Entered (params : List String) (args : List Value) (s : ScopeId) (before inside : Store) : Prop where
  is_new : ¬ before.Has before.nextId
  outer : inside.outer? before.nextId = some s
  own_iff : ∀ name v, inside.own? before.nextId name = some v ↔ Binds params args name v
  bound_iff : ∀ name, (∃ v, inside.own? before.nextId name = some v) ↔ name ∈ reachable params
  /-- Without a parameter for the remaining arguments none remain. -/
  all_used : rest? params = none → args.length = (fixed params).length
  others : ∀ o, o ≠ before.nextId → inside.scope? o = before.scope? o

variable {params : List String} {args : List Value}

/-- Where no marker stands last, a call with enough arguments uses all of them. -/
theorem length_eq_of_rest?_eq_none (hmarks : marksNothing params = false) (haccepts : ¬ Refuses params args.length)
    (hrest : rest? params = none) : args.length = (fixed params).length := by
  have hmarker : restMarker ∉ params := by
    intro hmarker
    obtain ⟨name, hname⟩ := exists_rest?_of_marker hmarks hmarker
    rw [hrest] at hname
    cases hname
  rw [fixed_eq_self hmarker]
  by_contra hcount
  exact haccepts (Or.inl ⟨hmarker, hcount⟩)

theorem entered (hmarks : marksNothing params = false) (haccepts : ¬ Refuses params args.length) (s : ScopeId)
    (before : Store) :
    Entered params args s before
      ((before.newScope (some s)).setAll before.nextId (bindings params args)) := by
  have hlength : (fixed params).length ≤ args.length := length_fixed_le (accepts_iff.mpr haccepts)
  have hown := Store.own?_newScope_setAll s before (bindings params args)
  refine ⟨Nat.lt_irrefl _, ?_, ?_, ?_, length_eq_of_rest?_eq_none hmarks haccepts, ?_⟩
  · rw [Store.outer?_setAll, Store.outer?_newScope, if_pos rfl]
  · intro name v
    rw [hown, find?_bindings_reverse hlength]
  · intro name
    rw [Store.exists_own?_newScope_setAll_iff, map_fst_bindings hlength]
  · intro o ho
    rw [Store.scope?_setAll_of_ne ho, Store.scope?_newScope, if_neg ho]

end Params

/-- **A call binds the reachable parameters, or is refused.** Let an `fn*` form have made a function in a scope. A call
with a number of arguments that will not do ends as an error before the body is looked at, and changes nothing. Any
other call evaluates the body in a new scope inside that scope, and binds there the parameters before the marker and
the one right after it, each to its value, and no other names. -/
theorem call_binds_reachable_parameters {depth : Nat} {s : ScopeId} {st : Store} {parts : List Value} {f : Value}
    (h : (eval depth (.list (.symbol "fn*" :: parts)) s st).outcome = .value f) :
    ∃ paramList params body, parts = [paramList, body] ∧ paramList.items? = some (params.map Value.symbol) ∧
      f = .closure params body s ∧
      ∀ (args : List Value) (before : Store),
        (Params.Refuses params args.length ∧ ∀ ev : Evaluator, Eval.apply ev f args before =
          ⟨.error (.wrongCount "#<function>" (Params.arity params) args.length), before, ""⟩) ∨
        (¬ Params.Refuses params args.length ∧ ∃ inside : Store, Params.Entered params args s before inside ∧
          ∀ ev : Evaluator, Eval.apply ev f args before = ev body before.nextId inside) := by
  obtain ⟨paramList, params, body, hparts, hitems, rfl, hmarks⟩ := Eval.closure_of_function h
  refine ⟨paramList, params, body, hparts, hitems, rfl, fun args before => ?_⟩
  by_cases hrefuses : Params.Refuses params args.length
  · refine Or.inl ⟨hrefuses, fun ev => ?_⟩
    rw [Eval.apply, if_neg (mt Params.accepts_iff.mp (not_not.mpr hrefuses))]
    rfl
  · refine Or.inr ⟨hrefuses, _, Params.entered hmarks hrefuses s before, fun ev => ?_⟩
    rw [Eval.apply, if_pos (Params.accepts_iff.mpr hrefuses)]
    simp [Action.bind_apply, Action.enclose]

/-- Of `(fn* [a a & b & c] nil)` the second `a` and `b` are bound, and `c` is not. -/
theorem repeated_parameter_and_second_marker :
    let params := ["a", "a", "&", "b", "&", "c"]
    let form := Value.list [.symbol "fn*", .vector (params.map Value.symbol), .nil]
    let f := Value.closure params .nil ⟨0⟩
    let st := Store.empty.newScope none
    (eval 1 form ⟨0⟩ st).outcome = .value f ∧
      (∀ ev : Evaluator, Eval.apply ev f [.integer 1] st =
        ⟨.error (.wrongCount "#<function>" (.atLeast 2) 1), st, ""⟩) ∧
      ∃ inside : Store, (∀ ev : Evaluator, Eval.apply ev f ([1, 2, 3].map Value.integer) st = ev .nil ⟨1⟩ inside) ∧
        inside.own? ⟨1⟩ "a" = some (.integer 2) ∧ inside.own? ⟨1⟩ "b" = some (.list [.integer 3]) ∧
        inside.own? ⟨1⟩ "c" = none := by
  intro params form f st
  have hf : (eval 1 form ⟨0⟩ st).outcome = .value f := rfl
  refine ⟨hf, ?_⟩
  obtain ⟨paramList, params', body, -, -, hclosure, hcall⟩ := call_binds_reachable_parameters hf
  obtain ⟨rfl, rfl, -⟩ := Value.closure.inj hclosure
  constructor
  · rcases hcall [.integer 1] st with ⟨-, hrefused⟩ | ⟨haccepts, -⟩
    · exact hrefused
    · exact absurd (by decide) haccepts
  · rcases hcall ([1, 2, 3].map Value.integer) st with ⟨hrefuses, -⟩ | ⟨-, inside, hentered, hbody⟩
    · exact absurd hrefuses (by decide)
    · have hlast : ∀ j : Nat, 1 < j → (Params.fixed params)[j]? ≠ some "a" := by
        intro j hj
        rw [List.getElem?_eq_none hj]
        nofun
      have hc : ¬ ∃ v, inside.own? st.nextId "c" = some v := mt (hentered.bound_iff "c").mp (by decide)
      refine ⟨inside, hbody, ?_, (hentered.own_iff _ _).mpr (Params.Binds.rest rfl), ?_⟩
      · exact (hentered.own_iff _ _).mpr (Params.Binds.fixed 1 (by decide) rfl rfl hlast)
      · exact Option.eq_none_iff_forall_ne_some.mpr fun v hv => hc ⟨v, hv⟩

end SmallLisp
