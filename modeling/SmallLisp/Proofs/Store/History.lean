import SmallLisp.Proofs.Eval.Call
import SmallLisp.Proofs.Store.Chain

/-!
# `SmallLisp.Proofs.Store.History` — scopes show what was last written

Scopes are made and bound one operation at a time, and a scope may be bound again while others see it from inside. A
history is what has been done, in order. By itself, without any store, it says which scope lies inside which, and what
was written in each of them and when. A store that has gone through it shows no more and no less: a name has the value
that was written last for it, in the nearest scope in which it was ever written.

## Contents
* **Operations** `Store.Operation`, and what each of them writes where.
* **Histories** `Store.History`, and what they say: `History.Inside`, `History.LastWritten`, `History.Shows`.
* **One operation** on a store: `Operation.scope?_apply_of_ne`, `Operation.outer?_apply`, `Operation.own?_apply`.
* **All operations** `History.Records`, kept by each of them (`Records.next`), and what is seen then.
* **Arguments that are too few or too many** `Params.bindings_of_length_lt`, `Params.bindings_of_length_le`.
* **The result** `scopes_show_latest_writes`, with a scope that sees a later write outside.
-/

namespace SmallLisp

open Relation (ReflTransGen)

namespace Store

/-! ## Operations -/

/-- What can be done to the scopes of a store. -/
inductive Operation where
  /-- Makes a scope inside no other. -/
  | new
  /-- Makes a scope inside another. -/
  | enclosed (outer : ScopeId)
  /-- Makes a scope inside another and binds parameters to arguments there, whether or not they fit. -/
  | bound (outer : ScopeId) (params : List String) (args : List Value)
  /-- Binds a name in a scope. -/
  | set (s : ScopeId) (name : String) (v : Value)

namespace Operation

/-- Does the operation. -/
def apply : Operation → Store → Store
  | new, st                     => st.newScope none
  | enclosed outer, st          => st.newScope (some outer)
  | bound outer params args, st => (st.newScope (some outer)).setAll st.nextId (Params.bindings params args)
  | set s name v, st            => st.set s name v

/-- The scope that the operation is given, if any. -/
def given? : Operation → Option ScopeId
  | new             => none
  | enclosed outer  => some outer
  | bound outer _ _ => some outer
  | set s _ _       => some s

/-- The scope around the one that the operation makes, which may be none, if it makes one. -/
def made? : Operation → Option (Option ScopeId)
  | new             => some none
  | enclosed outer  => some (some outer)
  | bound outer _ _ => some (some outer)
  | set _ _ _       => none

/-- The scope that the operation makes or changes; one that it makes has the number `fresh`. -/
def target (fresh : ScopeId) : Operation → ScopeId
  | new         => fresh
  | enclosed _  => fresh
  | bound _ _ _ => fresh
  | set s _ _   => s

/-- What the operation writes in its target, in order. -/
def written : Operation → List (String × Value)
  | new                 => []
  | enclosed _          => []
  | bound _ params args => Params.pairs params args
  | set _ name v        => [(name, v)]

end Operation

/-! ## Histories -/

/-- What has been done, from the store without scopes on. -/
inductive History where
  | start
  | next (earlier : History) (op : Operation)

namespace History

/-- The scope around each scope that has been made, in the order of their numbers. -/
def outers : History → List (Option ScopeId)
  | start           => []
  | next earlier op => earlier.outers ++ op.made?.toList

/-- The number of the scope that is made next. -/
def fresh (h : History) : ScopeId := ⟨h.outers.length⟩

/-- The scope has been made. -/
def Made (h : History) (s : ScopeId) : Prop := s.index < h.outers.length

/-- Every operation was given a scope that had been made by then. -/
def Possible : History → Prop
  | start           => True
  | next earlier op => earlier.Possible ∧ ∀ s ∈ op.given?, earlier.Made s

instance (h : History) (s : ScopeId) : Decidable (h.Made s) := inferInstanceAs (Decidable (_ < _))

instance decidablePossible : (h : History) → Decidable h.Possible
  | start           => inferInstanceAs (Decidable True)
  | next earlier op =>
    have := decidablePossible earlier
    inferInstanceAs (Decidable (earlier.Possible ∧ ∀ s ∈ op.given?, earlier.Made s))

/-- The first scope was made directly inside the second one. -/
def Inside (h : History) (s o : ScopeId) : Prop := h.outers[s.index]? = some (some o)

/-- All that has been written in a scope, in order. -/
def writes : History → ScopeId → List (String × Value)
  | start, _           => []
  | next earlier op, s => earlier.writes s ++ if s = op.target earlier.fresh then op.written else []

/-- The name has been written in the scope. -/
def Written (h : History) (s : ScopeId) (name : String) : Prop := ∃ v, (name, v) ∈ h.writes s

/-- The value is the one written last for the name in the scope. -/
def LastWritten (h : History) (s : ScopeId) (name : String) (v : Value) : Prop :=
  ∃ before after, h.writes s = before ++ (name, v) :: after ∧ ∀ w ∈ after, w.1 ≠ name

/-- Of the scopes from `s` outward, `v` was written last for the name in the first one in which it was ever written. -/
inductive Shows (h : History) (name : String) (v : Value) : ScopeId → Prop where
  | own {s : ScopeId} : h.LastWritten s name v → Shows h name v s
  | outward {s o : ScopeId} : ¬ h.Written s name → h.Inside s o → Shows h name v o → Shows h name v s

/-- The store that has gone through the history. -/
def store : History → Store
  | start           => Store.empty
  | next earlier op => op.apply earlier.store

end History

/-! ## One operation -/

namespace Operation

variable {op : Operation} {st : Store} {s : ScopeId}

/-- Nothing but its target is changed by an operation. -/
theorem scope?_apply_of_ne (h : s ≠ op.target st.nextId) : (op.apply st).scope? s = st.scope? s := by
  cases op with
  | new                     => exact (scope?_newScope st none s).trans (if_neg h)
  | enclosed outer          => exact (scope?_newScope st (some outer) s).trans (if_neg h)
  | bound outer params args =>
      exact (scope?_setAll_of_ne h _ _).trans ((scope?_newScope st (some outer) s).trans (if_neg h))
  | set o name v =>
      have hne : o ≠ s := Ne.symm h
      simp [apply, scope?_set, hne]

theorem size_apply (op : Operation) (st : Store) :
    (op.apply st).scopes.size = st.scopes.size + op.made?.toList.length := by
  cases op with
  | new                     => exact Array.size_push _
  | enclosed outer          => exact Array.size_push _
  | bound outer params args => exact (congrArg ScopeId.index nextId_setAll).trans (Array.size_push _)
  | set o name v            => exact Array.size_modify

theorem outer?_apply (op : Operation) (st : Store) (s : ScopeId) :
    (op.apply st).outer? s = if s = st.nextId then op.made?.join else st.outer? s := by
  cases op with
  | new                     => exact outer?_newScope none
  | enclosed outer          => exact outer?_newScope (some outer)
  | bound outer params args => exact (outer?_setAll _ _ _ _).trans (outer?_newScope (some outer))
  | set o name v =>
      rw [apply, outer?_set]
      split
      · rename_i hs
        rw [hs, outer?, scope?_nextId]
        rfl
      · rfl

/-- A scope is made inside the one that the operation is given. -/
theorem mem_given?_of_made? {o : ScopeId} (h : op.made?.join = some o) : o ∈ op.given? := by
  cases op with
  | new         => cases h
  | enclosed _  => exact h
  | bound _ _ _ => exact h
  | set _ _ _   => cases h

theorem own?_apply (hgiven : ∀ s ∈ op.given?, st.Has s) (s : ScopeId) (name : String) :
    (op.apply st).own? s name =
      (Entries.find? name (if s = op.target st.nextId then op.written else []).reverse).or (st.own? s name) := by
  split
  · rename_i hs
    subst hs
    have hfresh : st.own? st.nextId name = none := own?_eq_none (Nat.lt_irrefl _) name
    cases op with
    | new                     => exact own?_newScope none name
    | enclosed outer          => exact own?_newScope (some outer) name
    | bound outer params args =>
        rw [apply, target, own?_newScope_setAll, written, Params.bindings_eq_pairs, hfresh, Option.or_none]
    | set o k v =>
        rw [apply, target, written, own?_set]
        simp only [true_and, hgiven o rfl, and_true, List.reverse_singleton, Entries.find?]
        split <;> rfl
  · rename_i hs
    rw [own?, own?, scope?_apply_of_ne hs]
    rfl

end Operation

/-! ## Names in order -/

/-- The bindings of every scope are in the order of their names. -/
def Ordered (st : Store) : Prop := ∀ s sc, st.scope? s = some sc → sc.bindings.Ordered

namespace Ordered

variable {st : Store}

theorem newScope (h : st.Ordered) (outer : Option ScopeId) : (st.newScope outer).Ordered := by
  intro s sc hsc
  rw [scope?_newScope] at hsc
  split at hsc
  · cases hsc
    exact List.Pairwise.nil
  · exact h s sc hsc

theorem set (h : st.Ordered) (o : ScopeId) (name : String) (v : Value) : (st.set o name v).Ordered := by
  intro s sc hsc
  rw [scope?_set] at hsc
  obtain ⟨sc', hsc', rfl⟩ := Option.map_eq_some_iff.mp hsc
  split
  · exact (h s sc' hsc').insert name v
  · exact h s sc' hsc'

theorem setAll (h : st.Ordered) (o : ScopeId) (bindings : List (String × Value)) : (st.setAll o bindings).Ordered := by
  induction bindings generalizing st with
  | nil => exact h
  | cons e bindings ih => exact ih (h.set o e.1 e.2)

theorem apply (h : st.Ordered) (op : Operation) : (op.apply st).Ordered := by
  cases op with
  | new                     => exact h.newScope none
  | enclosed outer          => exact h.newScope (some outer)
  | bound outer params args => exact (h.newScope (some outer)).setAll _ _
  | set o name v            => exact h.set o name v

/-- The names of a scope ascend, so none is repeated. -/
theorem names (h : st.Ordered) (s : ScopeId) : (st.names s).Pairwise (· < ·) := by
  rw [Store.names]
  cases hsc : st.scope? s with
  | none    => exact List.Pairwise.nil
  | some sc => exact List.pairwise_map.mpr (h s sc hsc)

end Ordered

/-! ## All operations -/

namespace History

variable {h : History} {op : Operation} {st : Store} {s o : ScopeId} {name : String} {v : Value}

/-- The store has the scopes that the history has made, inside the same scopes, and each of them binds what was
written last. -/
structure Records (h : History) (st : Store) : Prop where
  size_eq : st.scopes.size = h.outers.length
  outer?_eq : ∀ s, st.outer? s = h.outers[s.index]?.join
  own?_eq : ∀ s name, st.own? s name = Entries.find? name (h.writes s).reverse
  ordered : st.Ordered
  descends : st.Descends

/-- Every scope but the last is inside the same one as before. -/
theorem join_getElem?_outers_next (h : History) (op : Operation) (s : ScopeId) :
    (h.next op).outers[s.index]?.join = if s = h.fresh then op.made?.join else h.outers[s.index]?.join := by
  obtain ⟨i⟩ := s
  simp only [outers, fresh, ScopeId.mk.injEq]
  rcases Nat.lt_trichotomy i h.outers.length with hlt | rfl | hgt
  · rw [List.getElem?_append_left hlt, if_neg (Nat.ne_of_lt hlt)]
  · rw [List.getElem?_append_right (Nat.le_refl _), Nat.sub_self, if_pos rfl]
    cases op.made? <;> rfl
  · have hlength : op.made?.toList.length ≤ i - h.outers.length := by
      cases op.made? with
      | none   => exact Nat.zero_le _
      | some _ => exact Nat.sub_pos_of_lt hgt
    rw [List.getElem?_append_right (Nat.le_of_lt hgt), List.getElem?_eq_none hlength, if_neg (Nat.ne_of_gt hgt),
      List.getElem?_eq_none (Nat.le_of_lt hgt)]

namespace Records

theorem nextId_eq (hr : h.Records st) : st.nextId = h.fresh := congrArg ScopeId.mk hr.size_eq

theorem has_iff (hr : h.Records st) : st.Has s ↔ h.Made s := by rw [Has, Made, hr.size_eq]

theorem start : start.Records empty := by
  refine ⟨rfl, ?_, ?_, ?_, ?_⟩
  · intro s
    simp [outer?, scope?, empty, outers]
  · intro s name
    exact own?_eq_none (Nat.not_lt_zero _) name
  · intro s sc hsc
    cases hsc
  · intro s o ho
    cases ho

/-- **One more operation** is recorded too. -/
theorem next (hr : h.Records st) (hgiven : ∀ s ∈ op.given?, h.Made s) : (h.next op).Records (op.apply st) := by
  have hhas : ∀ s ∈ op.given?, st.Has s := fun s hs => hr.has_iff.mpr (hgiven s hs)
  refine ⟨?_, ?_, ?_, hr.ordered.apply op, ?_⟩
  · rw [op.size_apply, hr.size_eq, outers, List.length_append]
  · intro s
    rw [op.outer?_apply, hr.outer?_eq, hr.nextId_eq, join_getElem?_outers_next]
  · intro s name
    rw [Operation.own?_apply hhas, hr.own?_eq, hr.nextId_eq, writes, List.reverse_append, Entries.find?_append]
  · -- A new scope lies inside one that was there, and the others lie where they did.
    intro s o ho
    rw [op.outer?_apply] at ho
    split at ho
    · rename_i hs
      rw [hs]
      exact hhas o (Operation.mem_given?_of_made? ho)
    · exact hr.descends s o ho

end Records

theorem Possible.records (hp : h.Possible) : h.Records h.store := by
  induction h with
  | start => exact Records.start
  | next earlier op ih => exact (ih hp.1).next hp.2

/-! ## What is seen -/

namespace Records

variable (hr : h.Records st)

include hr

theorem inside_iff : st.Inside s o ↔ h.Inside s o := by
  rw [Store.Inside, hr.outer?_eq, Option.join_eq_some_iff, Inside]

theorem own?_eq_some_iff : st.own? s name = some v ↔ h.LastWritten s name v := by
  rw [hr.own?_eq, Entries.find?_reverse_eq_some_iff, LastWritten]

theorem own?_eq_none_iff : st.own? s name = none ↔ ¬ h.Written s name := by
  rw [hr.own?_eq, Entries.find?_eq_none_iff, Entries.keys, List.map_reverse, List.mem_reverse, List.mem_map, Written]
  simp

theorem finds_iff : st.Finds name v s ↔ h.Shows name v s := by
  constructor
  · intro hfinds
    induction hfinds with
    | own hown                 => exact Shows.own (hr.own?_eq_some_iff.mp hown)
    | outward hnone hlink _ ih => exact Shows.outward (hr.own?_eq_none_iff.mp hnone) (hr.inside_iff.mp hlink) ih
  · intro hshows
    induction hshows with
    | own hlast                => exact Finds.own (hr.own?_eq_some_iff.mpr hlast)
    | outward hnone hlink _ ih => exact Finds.outward (hr.own?_eq_none_iff.mpr hnone) (hr.inside_iff.mpr hlink) ih

theorem outward_iff : ReflTransGen st.Inside s o ↔ ReflTransGen h.Inside s o := by
  have hlinks : st.Inside = h.Inside := funext₂ fun _ _ => propext hr.inside_iff
  rw [hlinks]

theorem get?_eq_some_iff : st.get? s name = some v ↔ h.Shows name v s := by
  rw [hr.descends.get?_eq_some_iff, hr.finds_iff]

theorem get?_eq_none_iff : st.get? s name = none ↔ ∀ o, ReflTransGen h.Inside s o → ¬ h.Written o name := by
  simp only [hr.descends.get?_eq_none_iff, hr.outward_iff, hr.own?_eq_none_iff]

theorem mem_names_iff : name ∈ st.names s ↔ h.Written s name := by
  rw [← exists_own?_iff, ← Option.isSome_iff_exists, ← Option.ne_none_iff_isSome, Ne, hr.own?_eq_none_iff, not_not]

/-- The next scope cannot be seen from any that is there. -/
theorem not_outward_fresh (hs : h.Made s) : ¬ ReflTransGen h.Inside s h.fresh := by
  intro hfresh
  have hle : h.fresh.index ≤ s.index := hr.descends.index_le (hr.outward_iff.mpr hfresh)
  exact Nat.not_lt_of_le hle hs

/-- **An operation is not seen** from scopes whose chain does not lead to its target. -/
theorem unseen (hr' : (h.next op).Records (op.apply st)) (hs : ¬ ReflTransGen h.Inside s (op.target h.fresh)) :
    (op.apply st).names s = st.names s ∧ ∀ name, (op.apply st).get? s name = st.get? s name := by
  have hscope : ∀ o, ReflTransGen st.Inside s o → (op.apply st).scope? o = st.scope? o := by
    intro o ho
    apply Operation.scope?_apply_of_ne
    rintro rfl
    rw [hr.nextId_eq] at ho
    exact hs (hr.outward_iff.mp ho)
  refine ⟨?_, fun name => hr.descends.get?_congr hr'.descends hscope⟩
  rw [names, names, hscope s ReflTransGen.refl]

end Records

end History

end Store

/-! ## Arguments that are too few or too many -/

namespace Params

variable {params : List String} {args : List Value}

/-- Where the arguments do not reach the marker, binding stops with the last of them. -/
theorem bindings_of_length_lt (h : args.length < (fixed params).length) :
    bindings params args = (params.take args.length).zip args := by
  have hfixed : (fixed params).take args.length = params.take args.length := by
    have hsplit : fixed params ++ fromMarker params = params := List.takeWhile_append_dropWhile
    rw [← List.take_append_of_le_length (Nat.le_of_lt h), hsplit]
  rw [bindings_eq_pairs, pairs, if_neg (Nat.not_le_of_lt h), List.append_nil, List.zip_eq_zip_take_min,
    Nat.min_eq_right (Nat.le_of_lt h), List.take_length, hfixed]

/-- Without a marker the arguments that no parameter is left for are dropped. -/
theorem bindings_of_length_le (hmarker : restMarker ∉ params) (h : params.length ≤ args.length) :
    bindings params args = params.zip (args.take params.length) := by
  rw [bindings_eq_pairs, pairs, fixed_eq_self hmarker, if_pos h, rest?_eq_none hmarker, Option.toList_none, List.map_nil,
    List.append_nil, List.zip_eq_zip_take_min, Nat.min_eq_left h, List.take_length]

end Params

/-- A scope made anew binds the names that there are values for. -/
theorem Store.mem_names_zip {st : Store} {outer : ScopeId} {names : List String} {vs : List Value} {name : String}
    (h : names.length ≤ vs.length) :
    name ∈ ((st.newScope (some outer)).setAll st.nextId (names.zip vs)).names st.nextId ↔ name ∈ names := by
  rw [← exists_own?_iff, exists_own?_newScope_setAll_iff, List.map_fst_zip h]

/-! ## The result -/

/-- **Scopes show what was last written.** Let a store have gone through any operations on scopes that were there. The
value of a name as seen from a scope is the one written last for it in the nearest scope, outward, in which it was ever
written. If there is none the name has no value, and a look-up names it in its error. The names of a scope are those
ever written there, in ascending order. No operation is seen from a scope whose chain does not lead to the scope that
it makes or changes, and no chain leads to a scope that is made later. Where arguments run out before the marker, as
many parameters are bound as there are arguments, and no other names. Where there is no marker and there are too many
arguments, as many of them are bound as there are parameters. -/
theorem scopes_show_latest_writes {h : Store.History} (hp : h.Possible) :
    let st := h.store
    (∀ e name v, st.get? e name = some v ↔ h.Shows name v e) ∧
    (∀ e name, st.get? e name = none ↔ ∀ o, ReflTransGen h.Inside e o → ¬ h.Written o name) ∧
    (∀ e name v, h.Shows name v e → Action.lookup e name st = ⟨.value v, st, ""⟩) ∧
    (∀ e name, (∀ o, ReflTransGen h.Inside e o → ¬ h.Written o name) →
      Action.lookup e name st = ⟨.error (.symbolNotFound name), st, ""⟩) ∧
    (∀ e, (∀ name, name ∈ st.names e ↔ h.Written e name) ∧ (st.names e).Pairwise (· < ·)) ∧
    (∀ op, (h.next op).Possible → ∀ e, ¬ ReflTransGen h.Inside e (op.target h.fresh) →
      (op.apply st).names e = st.names e ∧ ∀ name, (op.apply st).get? e name = st.get? e name) ∧
    (∀ e, h.Made e → ¬ ReflTransGen h.Inside e h.fresh) ∧
    (∀ outer params args, args.length < (Params.fixed params).length →
      let after := (Store.Operation.bound outer params args).apply st
      after = (st.newScope (some outer)).setAll h.fresh ((params.take args.length).zip args) ∧
      ∀ name, name ∈ after.names h.fresh ↔ name ∈ params.take args.length) ∧
    (∀ outer params args, Params.restMarker ∉ params → params.length < args.length →
      let after := (Store.Operation.bound outer params args).apply st
      after = (st.newScope (some outer)).setAll h.fresh (params.zip (args.take params.length)) ∧
      ∀ name, name ∈ after.names h.fresh ↔ name ∈ params) := by
  have hr : h.Records h.store := hp.records
  intro st
  refine ⟨?_, ?_, ?_, ?_, ?_, ?_, ?_, ?_, ?_⟩
  · intro e name v
    exact hr.get?_eq_some_iff
  · intro e name
    exact hr.get?_eq_none_iff
  · intro e name v hshows
    rw [Action.lookup, hr.get?_eq_some_iff.mpr hshows]
  · intro e name hunwritten
    rw [Action.lookup, hr.get?_eq_none_iff.mpr hunwritten]
  · intro e
    exact ⟨fun name => hr.mem_names_iff, hr.ordered.names e⟩
  · intro op hp' e he
    exact hr.unseen hp'.records he
  · intro e he
    exact hr.not_outward_fresh he
  · intro outer params args hfew
    rw [Store.Operation.apply, Params.bindings_of_length_lt hfew, ← hr.nextId_eq]
    exact ⟨rfl, fun name => Store.mem_names_zip (List.length_take_le _ _)⟩
  · intro outer params args hmarker hmany
    have hlength : (args.take params.length).length = params.length := List.length_take_of_le (Nat.le_of_lt hmany)
    rw [Store.Operation.apply, Params.bindings_of_length_le hmarker (Nat.le_of_lt hmany), ← hr.nextId_eq]
    exact ⟨rfl, fun name => Store.mem_names_zip (Nat.le_of_eq hlength.symm)⟩

/-- A scope made with too few arguments, which sees what is written later in the scope around it but not the other way
round. -/
theorem write_outside_seen_inside :
    let params := ["b", "c", "&", "d"]
    let h := Store.History.start |>.next .new |>.next (.set ⟨0⟩ "a" (.integer 1))
      |>.next (.bound ⟨0⟩ params [.integer 2]) |>.next (.set ⟨1⟩ "b" (.integer 3)) |>.next (.set ⟨0⟩ "a" (.integer 4))
    let later := h.next (.set ⟨1⟩ "a" (.integer 5))
    h.Possible ∧ later.Possible ∧
    h.store.get? ⟨1⟩ "a" = some (.integer 4) ∧ h.store.get? ⟨1⟩ "b" = some (.integer 3) ∧
    Action.lookup ⟨0⟩ "b" h.store = ⟨.error (.symbolNotFound "b"), h.store, ""⟩ ∧
    (∀ name, name ∈ h.store.names ⟨1⟩ ↔ name = "b") ∧ later.store.get? ⟨0⟩ "a" = h.store.get? ⟨0⟩ "a" := by
  intro params h later
  have hp : h.Possible := by decide
  have hp' : later.Possible := by decide
  -- Nothing is outside the first scope.
  have hroot : ∀ o, ReflTransGen h.Inside ⟨0⟩ o → o = ⟨0⟩ := by
    intro o ho
    rcases ho.cases_head with rfl | ⟨p, hlink, -⟩
    · rfl
    · cases hlink
  have hinner : h.writes ⟨1⟩ = [("b", .integer 2), ("b", .integer 3)] := rfl
  have houter : h.writes ⟨0⟩ = [("a", .integer 1), ("a", .integer 4)] := rfl
  obtain ⟨hget, -, -, hlookup, hnames, hunseen, -, -, -⟩ := scopes_show_latest_writes hp
  refine ⟨hp, hp', (hget _ _ _).mpr ?_, (hget _ _ _).mpr ?_, hlookup _ _ ?_, fun name => ?_, ?_⟩
  · refine Store.History.Shows.outward ?_ rfl (Store.History.Shows.own ⟨[("a", .integer 1)], [], houter, nofun⟩)
    rw [Store.History.Written, hinner]
    simp
  · exact Store.History.Shows.own ⟨[("b", .integer 2)], [], hinner, nofun⟩
  · intro o ho
    rw [hroot o ho, Store.History.Written, houter]
    simp
  · rw [(hnames ⟨1⟩).1, Store.History.Written, hinner]
    constructor
    · rintro ⟨v, hv⟩
      rcases List.mem_cons.mp hv with hv | hv
      · exact congrArg Prod.fst hv
      · exact congrArg Prod.fst (List.mem_singleton.mp hv)
    · rintro rfl
      exact ⟨_, List.mem_cons_self⟩
  · refine (hunseen _ hp' ⟨0⟩ fun houtward => ?_).2 "a"
    cases hroot _ houtward

end SmallLisp
