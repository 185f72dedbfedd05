import SmallLisp.Eval
import SmallLisp.Proofs.Builtin

/-!
# `SmallLisp.Proofs.Value.Mentions` — what a value mentions

Besides plain data a value holds names and functions. What an evaluation may look up, bind or call is decided by
these *mentions* alone, those in the bodies of functions included, and no builtin makes new ones: it hands on the
mentions of its arguments. A property of mentions is therefore the natural form of an invariant on the values of a
program.

## Contents
* **Mentions** `Mention`, and those of a value, `Value.mentions`.
* **Properties** `Value.OnlyMentions`, with one equivalence per kind of value.
* **Views, builtins and parameters** mention nothing new: `onlyMentions_of_items?`, `onlyMentions_of_operand?`,
  `onlyMentions_of_call`, `onlyMentions_of_mem_bindings`.
-/

namespace SmallLisp

/-! ## Mentions -/

/-- Something in a value that is not plain data: a name of any kind, or a function with a scope. -/
inductive Mention where
  | symbol (name : String)
  | keyword (name : String)
  /-- A key of a map, as it is written. -/
  | key (text : String)
  | closure (params : List String) (body : Value) (scope : ScopeId)

namespace Value

mutual

/-- All mentions in a value, at any depth; a closure mentions itself and what its body does. -/
@[simp] def mentions : Value → List Mention
  | symbol name               => [.symbol name]
  | keyword name              => [.keyword name]
  | list items                => mentionsItems items
  | vector items              => mentionsItems items
  | map entries               => mentionsEntries entries
  | closure params body scope => .closure params body scope :: mentions body
  | marked _ form             => mentions form
  | _                         => []

/-- The mentions in some values. -/
def mentionsItems : List Value → List Mention
  | []            => []
  | item :: items => mentions item ++ mentionsItems items

/-- The mentions in some entries, their keys included. -/
def mentionsEntries : List (String × Value) → List Mention
  | []                      => []
  | (key, value) :: entries => .key key :: (mentions value ++ mentionsEntries entries)

end

theorem mentionsItems_eq_flatMap (items : List Value) : mentionsItems items = items.flatMap mentions := by
  induction items with
  | nil => rfl
  | cons item items ih => rw [mentionsItems, ih, List.flatMap_cons]

theorem mentionsEntries_eq_flatMap (entries : List (String × Value)) :
    mentionsEntries entries = entries.flatMap fun e => .key e.1 :: mentions e.2 := by
  induction entries with
  | nil => rfl
  | cons e entries ih => rw [mentionsEntries, ih, List.flatMap_cons, List.cons_append]

/-! ## Properties -/

/-- Everything that the value mentions has a property. -/
def OnlyMentions (p : Mention → Prop) (v : Value) : Prop := ∀ m ∈ v.mentions, p m

variable {p q : Mention → Prop}

theorem OnlyMentions.imp {v : Value} (h : v.OnlyMentions p) (hpq : ∀ m, p m → q m) : v.OnlyMentions q :=
  fun m hm => hpq m (h m hm)

@[simp] theorem onlyMentions_nil : nil.OnlyMentions p := by simp [OnlyMentions, mentions]

@[simp] theorem onlyMentions_boolean (b : Bool) : (boolean b).OnlyMentions p := by simp [OnlyMentions, mentions]

@[simp] theorem onlyMentions_integer (n : Int64) : (integer n).OnlyMentions p := by simp [OnlyMentions, mentions]

@[simp] theorem onlyMentions_float (x : Float) : (float x).OnlyMentions p := by simp [OnlyMentions, mentions]

@[simp] theorem onlyMentions_string (s : String) : (string s).OnlyMentions p := by simp [OnlyMentions, mentions]

@[simp] theorem onlyMentions_builtin (b : Builtin) : (builtin b).OnlyMentions p := by simp [OnlyMentions, mentions]

@[simp] theorem onlyMentions_symbol {name : String} : (symbol name).OnlyMentions p ↔ p (.symbol name) := by
  simp [OnlyMentions, mentions]

@[simp] theorem onlyMentions_keyword {name : String} : (keyword name).OnlyMentions p ↔ p (.keyword name) := by
  simp [OnlyMentions, mentions]

@[simp] theorem onlyMentions_list {items : List Value} :
    (list items).OnlyMentions p ↔ ∀ v ∈ items, v.OnlyMentions p := by
  simp only [OnlyMentions, mentions, mentionsItems_eq_flatMap, List.forall_mem_flatMap]

@[simp] theorem onlyMentions_vector {items : List Value} :
    (vector items).OnlyMentions p ↔ ∀ v ∈ items, v.OnlyMentions p := by
  simp only [OnlyMentions, mentions, mentionsItems_eq_flatMap, List.forall_mem_flatMap]

@[simp] theorem onlyMentions_map {entries : List (String × Value)} :
    (map entries).OnlyMentions p ↔ ∀ e ∈ entries, p (.key e.1) ∧ e.2.OnlyMentions p := by
  simp only [OnlyMentions, mentions, mentionsEntries_eq_flatMap, List.forall_mem_flatMap, List.forall_mem_cons]

@[simp] theorem onlyMentions_closure {params : List String} {body : Value} {scope : ScopeId} :
    (closure params body scope).OnlyMentions p ↔ p (.closure params body scope) ∧ body.OnlyMentions p := by
  simp only [OnlyMentions, mentions, List.forall_mem_cons]

@[simp] theorem onlyMentions_marked {m : Mark} {form : Value} :
    (marked m form).OnlyMentions p ↔ form.OnlyMentions p := by
  simp only [OnlyMentions, mentions]

/-! ## Views, builtins and parameters -/

theorem onlyMentions_of_items? {v : Value} {items : List Value} (h : v.items? = some items) :
    v.OnlyMentions p ↔ ∀ item ∈ items, item.OnlyMentions p := by
  cases v with
  | list _   => cases h; exact onlyMentions_list
  | vector _ => cases h; exact onlyMentions_vector
  | _        => cases h

theorem onlyMentions_of_operand? {v operand : Value} {m : Mark} (h : v.operand? m = some operand)
    (hv : v.OnlyMentions p) : operand.OnlyMentions p := by
  rcases operand?_eq_some_iff.mp h with rfl | rfl
  · exact onlyMentions_marked.mp hv
  · exact onlyMentions_list.mp hv operand (by simp)

theorem onlyMentions_of_isScalar {v : Value} (h : v.isScalar = true) : v.OnlyMentions p := by
  cases v with
  | nil | boolean _ | integer _ | float _ | string _ => simp
  | _                                                => cases h

end Value

/-- **A builtin mentions nothing new.** -/
theorem Builtin.onlyMentions_of_call {p : Mention → Prop} {b : Builtin} {args : List Value} {a : Answer}
    (h : b.call args = .ok a) (hargs : ∀ v ∈ args, v.OnlyMentions p) : a.value.OnlyMentions p := by
  rcases value_of_call h with hscalar | hlist
  · exact Value.onlyMentions_of_isScalar hscalar
  · rw [hlist]
    exact Value.onlyMentions_list.mpr hargs

/-- A call binds parameters, each to an argument or to a list of arguments. -/
theorem Params.forall_mem_bindings {P : Value → Prop} (hlist : ∀ vs, (∀ v ∈ vs, P v) → P (.list vs))
    {params : List String} {args : List Value} (hargs : ∀ v ∈ args, P v) :
    ∀ e ∈ bindings params args, e.1 ∈ params ∧ P e.2 := by
  fun_induction bindings params args with
  | case1 args => nofun
  | case2 args => nofun
  | case3 args rest params =>
      rintro e he
      obtain rfl := List.mem_singleton.mp he
      exact ⟨by simp, hlist args hargs⟩
  | case4 param params hparam => nofun
  | case5 param params hparam arg args ih =>
      obtain ⟨harg, hargs⟩ := List.forall_mem_cons.mp hargs
      refine List.forall_mem_cons.mpr ⟨⟨List.mem_cons_self, harg⟩, fun e he => ?_⟩
      obtain ⟨hname, hvalue⟩ := ih hargs e he
      exact ⟨List.mem_cons_of_mem _ hname, hvalue⟩

theorem Params.onlyMentions_of_mem_bindings {p : Mention → Prop} {params : List String} {args : List Value}
    (hargs : ∀ v ∈ args, v.OnlyMentions p) : ∀ e ∈ bindings params args, e.1 ∈ params ∧ e.2.OnlyMentions p :=
  forall_mem_bindings (fun _ => Value.onlyMentions_list.mpr) hargs

end SmallLisp
