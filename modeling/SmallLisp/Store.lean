import SmallLisp.Value

/-!
# `SmallLisp.Store` — scopes that see outward

A scope binds names to values and may lie inside an outer scope. All scopes of a session stand in one store in
the order in which they were made, and are known by their numbers. A name is looked up in a scope and then in
the ones around it, the nearest first, while a binding always goes into the scope that is named.

## Contents
* **Scopes and stores** `Scope`, `Store`.
* **Making and binding.** `newScope`, `set`, `setAll`.
* **Looking up.** `chain`, the scopes that are visible from a scope, and `get?`.
* **Listing.** `names`, `outer?`.
* **One equation per operation.** `scope?_newScope`, `scope?_set`.
-/

namespace SmallLisp

/-- A scope: the scope around it, if any, and its own bindings. -/
structure Scope where
  outer : Option ScopeId
  bindings : Entries Value

/-- All scopes, in the order in which they were made. -/
structure Store where
  scopes : Array Scope

namespace Store

/-- The store without scopes. -/
def empty : Store := ⟨#[]⟩

/-- The scope of a number. -/
def scope? (st : Store) (s : ScopeId) : Option Scope := st.scopes[s.index]?

/-! ## Making and binding -/

/-- The number that the next scope gets. -/
def nextId (st : Store) : ScopeId := ⟨st.scopes.size⟩

/-- Makes a scope without bindings; its number is the `nextId` of the store before. -/
def newScope (st : Store) (outer : Option ScopeId) : Store := ⟨st.scopes.push ⟨outer, []⟩⟩

/-- Binds a name in a scope, in place of the binding it may have there; no other scope changes. -/
def set (st : Store) (s : ScopeId) (name : String) (v : Value) : Store :=
  ⟨st.scopes.modify s.index fun sc => { sc with bindings := sc.bindings.insert name v }⟩

/-- Binds names in a scope, one after the other. -/
def setAll (st : Store) (s : ScopeId) (bindings : List (String × Value)) : Store :=
  bindings.foldl (fun acc b => acc.set s b.1 b.2) st

/-! ## Looking up -/

/-- The scope around a scope. -/
def outer? (st : Store) (s : ScopeId) : Option ScopeId := (st.scope? s).bind Scope.outer

/-- The numbers of the scopes that are visible from the scope of number `i`, the nearest first.

A scope lies only inside scopes that were made before it, so the numbers descend. -/
def chainFrom (st : Store) (i : Nat) : List ScopeId :=
  ⟨i⟩ :: match st.outer? ⟨i⟩ with
    | some o => if o.index < i then chainFrom st o.index else []
    | none   => []
termination_by i

/-- The scopes that are visible from a scope, the nearest first. -/
def chain (st : Store) (s : ScopeId) : List ScopeId := st.chainFrom s.index

/-- The value that a scope itself binds a name to. -/
def own? (st : Store) (s : ScopeId) (name : String) : Option Value :=
  (st.scope? s).bind fun sc => sc.bindings.find? name

/-- The value of a name as seen from a scope: that of the nearest scope that binds it. -/
def get? (st : Store) (s : ScopeId) (name : String) : Option Value :=
  (st.chain s).findSome? fun o => st.own? o name

/-! ## Listing -/

/-- The names that a scope itself binds, in order. -/
def names (st : Store) (s : ScopeId) : List String :=
  match st.scope? s with
  | some sc => sc.bindings.keys
  | none    => []

/-! ## One equation per operation -/

theorem scope?_newScope (st : Store) (outer : Option ScopeId) (s : ScopeId) :
    (st.newScope outer).scope? s = if s = st.nextId then some ⟨outer, []⟩ else st.scope? s := by
  obtain ⟨i⟩ := s
  simp only [scope?, newScope, nextId, Array.getElem?_push, ScopeId.mk.injEq]

theorem scope?_set (st : Store) (s o : ScopeId) (name : String) (v : Value) :
    (st.set s name v).scope? o =
      (st.scope? o).map fun sc =>
        if s = o then { sc with bindings := sc.bindings.insert name v } else sc := by
  obtain ⟨i⟩ := s
  obtain ⟨j⟩ := o
  simp only [scope?, set, Array.getElem?_modify, ScopeId.mk.injEq]
  split <;> simp

end Store

end SmallLisp
