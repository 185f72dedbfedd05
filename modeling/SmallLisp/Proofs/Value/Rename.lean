import SmallLisp.Proofs.Value.Mentions

/-!
# `SmallLisp.Proofs.Value.Rename` — values under other numbers for their scopes

Which number a scope has is an accident of the order in which scopes were made. A renaming gives other numbers to
the scopes of all closures in a value. Nothing that can be seen of a value depends on them: not its text, not what
it is equal to, and not what a builtin makes of it.

## Contents
* **Renaming** `Value.rename`, also of answers and errors.
* **Values that stay** `Value.rename_eq_self`.
* **Views** of a renamed value: its parts, its text, its equality.
* **Builtins** `Builtin.call_rename`.
-/

namespace SmallLisp

variable {ρ : ScopeId → ScopeId}

/-! ## Renaming -/

namespace Value

mutual

/-- A value with other numbers for the scopes of its closures. -/
def rename (ρ : ScopeId → ScopeId) : Value → Value
  | list items                => list (renameItems ρ items)
  | vector items              => vector (renameItems ρ items)
  | map entries               => map (renameEntries ρ entries)
  | closure params body scope => closure params (rename ρ body) (ρ scope)
  | marked m form             => marked m (rename ρ form)
  | v                         => v

/-- Some values with other numbers for scopes. -/
def renameItems (ρ : ScopeId → ScopeId) : List Value → List Value
  | []            => []
  | item :: items => rename ρ item :: renameItems ρ items

/-- Some entries with other numbers for scopes in their values. -/
def renameEntries (ρ : ScopeId → ScopeId) : List (String × Value) → List (String × Value)
  | []                      => []
  | (key, value) :: entries => (key, rename ρ value) :: renameEntries ρ entries

end

theorem renameItems_eq_map (items : List Value) : renameItems ρ items = items.map (rename ρ) := by
  induction items with
  | nil => rfl
  | cons item items ih => rw [renameItems, ih, List.map_cons]

theorem renameEntries_eq_map (entries : List (String × Value)) :
    renameEntries ρ entries = entries.map fun e => (e.1, rename ρ e.2) := by
  induction entries with
  | nil => rfl
  | cons e entries ih => rw [renameEntries, ih, List.map_cons]

theorem rename_list (items : List Value) : (list items).rename ρ = list (items.map (rename ρ)) := by
  rw [rename, renameItems_eq_map]

theorem rename_vector (items : List Value) : (vector items).rename ρ = vector (items.map (rename ρ)) := by
  rw [rename, renameItems_eq_map]

theorem rename_map (entries : List (String × Value)) :
    (map entries).rename ρ = map (entries.map fun e => (e.1, rename ρ e.2)) := by
  rw [rename, renameEntries_eq_map]

end Value

/-- An answer with other numbers for scopes. -/
def Answer.rename (ρ : ScopeId → ScopeId) (a : Answer) : Answer := ⟨a.value.rename ρ, a.printed⟩

/-- A fault with other numbers for scopes. -/
def Fault.rename (ρ : ScopeId → ScopeId) : Fault → Fault
  | bindingTarget form got => bindingTarget form (got.rename ρ)
  | bindingsNotAList got   => bindingsNotAList (got.rename ρ)
  | paramsNotAList got     => paramsNotAList (got.rename ρ)
  | paramNotASymbol got    => paramNotASymbol (got.rename ρ)
  | fault                  => fault

/-- An error with other numbers for scopes. -/
def EvalError.rename (ρ : ScopeId → ScopeId) : EvalError → EvalError
  | notAFunction got                => notAFunction (got.rename ρ)
  | wrongType function expected got => wrongType function expected (got.rename ρ)
  | malformed fault                 => malformed (fault.rename ρ)
  | e                               => e

/-! ## Values that stay -/

/-- The mention has no scope that a renaming changes. -/
def Mention.FixedBy (ρ : ScopeId → ScopeId) : Mention → Prop
  | closure _ _ scope => ρ scope = scope
  | _                 => True

namespace Value

mutual

/-- A value stays as it is if the scopes of all its closures do. -/
theorem rename_eq_self : ∀ {v : Value}, v.OnlyMentions (Mention.FixedBy ρ) → v.rename ρ = v
  | list items, h => by rw [rename, renameItems_eq_self (onlyMentions_list.mp h)]
  | vector items, h => by rw [rename, renameItems_eq_self (onlyMentions_vector.mp h)]
  | map entries, h => by rw [rename, renameEntries_eq_self fun e he => (onlyMentions_map.mp h e he).2]
  | closure params body scope, h => by
      obtain ⟨hscope, hbody⟩ := onlyMentions_closure.mp h
      have hscope : ρ scope = scope := hscope
      rw [rename, rename_eq_self hbody, hscope]
  | marked m form, h => by rw [rename, rename_eq_self (onlyMentions_marked.mp h)]
  | nil, _ | boolean _, _ | integer _, _ | float _, _ | string _, _ | keyword _, _ | symbol _, _ | builtin _, _ => by
      simp only [rename]

theorem renameItems_eq_self : ∀ {items : List Value}, (∀ v ∈ items, v.OnlyMentions (Mention.FixedBy ρ)) →
    renameItems ρ items = items
  | [], _ => rfl
  | item :: items, h => by
      obtain ⟨hitem, hitems⟩ := List.forall_mem_cons.mp h
      rw [renameItems, rename_eq_self hitem, renameItems_eq_self hitems]

theorem renameEntries_eq_self : ∀ {entries : List (String × Value)},
    (∀ e ∈ entries, e.2.OnlyMentions (Mention.FixedBy ρ)) → renameEntries ρ entries = entries
  | [], _ => rfl
  | (key, value) :: entries, h => by
      obtain ⟨hvalue, hentries⟩ := List.forall_mem_cons.mp h
      rw [renameEntries, rename_eq_self hvalue, renameEntries_eq_self hentries]

end

theorem rename_id (v : Value) : v.rename id = v :=
  rename_eq_self fun m _ => by cases m <;> simp [Mention.FixedBy]

/-! ## Views -/

theorem symbol?_rename (v : Value) : (v.rename ρ).symbol? = v.symbol? := by
  cases v <;> simp only [rename, symbol?]

theorem isTruthy_rename (v : Value) : (v.rename ρ).isTruthy = v.isTruthy := by
  cases v <;> simp only [rename, isTruthy]

theorem items?_rename (v : Value) : (v.rename ρ).items? = v.items?.map (List.map (rename ρ)) := by
  cases v <;> simp only [rename, items?, Option.map_some, Option.map_none, renameItems_eq_map]

theorem eq_symbol_of_rename {v : Value} {name : String} (h : v.rename ρ = .symbol name) : v = .symbol name := by
  cases v <;> simp_all [rename]

theorem operand?_rename (m : Mark) (v : Value) : (v.rename ρ).operand? m = (v.operand? m).map (rename ρ) := by
  cases hoperand : v.operand? m with
  | some operand =>
      rw [Option.map_some, operand?_eq_some_iff]
      rcases operand?_eq_some_iff.mp hoperand with rfl | rfl
      · exact Or.inl (by rw [rename])
      · exact Or.inr (by simp only [rename, renameItems])
  | none =>
      rw [Option.map_none, Option.eq_none_iff_forall_ne_some]
      rw [Option.eq_none_iff_forall_ne_some] at hoperand
      intro operand' hsome
      -- A renamed value is a mark, or a list with a symbol as head, only if the value was one before.
      rcases operand?_eq_some_iff.mp hsome with heq | heq
      · cases v with
        | marked n form =>
            rw [rename] at heq
            cases heq
            exact hoperand form (operand?_eq_some_iff.mpr (Or.inl rfl))
        | _ => simp [rename] at heq
      · cases v with
        | list items =>
            rw [rename_list] at heq
            injection heq with heq
            obtain ⟨head, rest, rfl, hhead, hrest⟩ := List.map_eq_cons_iff.mp heq
            obtain ⟨operand, rest, rfl, -, hnil⟩ := List.map_eq_cons_iff.mp hrest
            obtain rfl := List.map_eq_nil_iff.mp hnil
            obtain rfl := eq_symbol_of_rename hhead
            exact hoperand operand (operand?_eq_some_iff.mpr (Or.inr rfl))
        | _ => simp [rename] at heq

theorem charsItems_renameItems {readable : Bool} {items : List Value}
    (h : ∀ v ∈ items, (v.rename ρ).chars readable = v.chars readable) :
    charsItems readable (renameItems ρ items) = charsItems readable items := by
  induction items with
  | nil => rfl
  | cons item items ih =>
      obtain ⟨hitem, hitems⟩ := List.forall_mem_cons.mp h
      -- The last element has no space after it.
      cases items with
      | nil => simp only [renameItems, charsItems, hitem]
      | cons next items =>
          have hrest := ih hitems
          simp only [renameItems, charsItems, hitem] at hrest ⊢
          rw [hrest]

theorem charsEntries_renameEntries {readable : Bool} {entries : List (String × Value)}
    (h : ∀ e ∈ entries, (e.2.rename ρ).chars readable = e.2.chars readable) :
    charsEntries readable (renameEntries ρ entries) = charsEntries readable entries := by
  induction entries with
  | nil => rfl
  | cons e entries ih =>
      obtain ⟨key, value⟩ := e
      obtain ⟨hvalue, hentries⟩ := List.forall_mem_cons.mp h
      cases entries with
      | nil => simp only [renameEntries, charsEntries, hvalue]
      | cons next entries =>
          obtain ⟨nextKey, nextValue⟩ := next
          have hrest := ih hentries
          simp only [renameEntries, charsEntries, hvalue] at hrest ⊢
          rw [hrest]

mutual

/-- The text of a value does not show the numbers of scopes. -/
theorem chars_rename (readable : Bool) : ∀ v : Value, (v.rename ρ).chars readable = v.chars readable
  | list items => by
      show enclosed .round (charsItems readable (renameItems ρ items)) = enclosed .round (charsItems readable items)
      rw [charsItems_renameItems (forall_chars_rename readable items)]
  | vector items => by
      show enclosed .square (charsItems readable (renameItems ρ items)) = enclosed .square (charsItems readable items)
      rw [charsItems_renameItems (forall_chars_rename readable items)]
  | map entries => by
      show enclosed .curly (charsEntries readable (renameEntries ρ entries)) =
        enclosed .curly (charsEntries readable entries)
      rw [charsEntries_renameEntries (forall_chars_renameEntries readable entries)]
  | closure params body scope => rfl
  | marked m form => by
      show enclosed .round (m.name.toList ++ ' ' :: chars readable (form.rename ρ)) =
        enclosed .round (m.name.toList ++ ' ' :: chars readable form)
      rw [chars_rename readable form]
  | nil | boolean _ | integer _ | float _ | string _ | keyword _ | symbol _ | builtin _ => by simp only [rename]

theorem forall_chars_rename (readable : Bool) :
    ∀ items : List Value, ∀ v ∈ items, (v.rename ρ).chars readable = v.chars readable
  | [] => nofun
  | item :: items =>
      List.forall_mem_cons.mpr ⟨chars_rename readable item, forall_chars_rename readable items⟩

theorem forall_chars_renameEntries (readable : Bool) :
    ∀ entries : List (String × Value), ∀ e ∈ entries, (e.2.rename ρ).chars readable = e.2.chars readable
  | [] => nofun
  | (_, value) :: entries =>
      List.forall_mem_cons.mpr ⟨chars_rename readable value, forall_chars_renameEntries readable entries⟩

end

theorem print_rename (readable : Bool) (v : Value) : (v.rename ρ).print readable = v.print readable := by
  rw [print, print, chars_rename]

theorem printAll_rename (readable : Bool) (separator : String) (vs : List Value) :
    printAll readable separator (vs.map (rename ρ)) = printAll readable separator vs := by
  have htexts : (vs.map (rename ρ)).map (print readable) = vs.map (print readable) := by
    rw [List.map_map]
    exact List.map_congr_left fun v _ => print_rename readable v
  rw [printAll, printAll, htexts]

mutual

theorem equal_rename : ∀ v w : Value, equal (v.rename ρ) (w.rename ρ) = equal v w
  | list xs, w => by cases w <;> simp [rename, equal, equalItems_rename xs]
  | vector xs, w => by cases w <;> simp [rename, equal, equalItems_rename xs]
  | map es, w => by cases w <;> simp [rename, equal, equalEntries_rename es]
  | marked m form, w => by cases w <;> simp [rename, equal, equal_rename form]
  | nil, w | boolean _, w | integer _, w | float _, w | string _, w | keyword _, w | symbol _, w | builtin _, w
  | closure _ _ _, w => by cases w <;> simp [rename, equal]

theorem equalItems_rename : ∀ xs ys : List Value, equalItems (renameItems ρ xs) (renameItems ρ ys) = equalItems xs ys
  | [], ys => by cases ys <;> simp [renameItems, equalItems]
  | x :: xs, ys => by cases ys <;> simp [renameItems, equalItems, equal_rename x, equalItems_rename xs]

theorem equalEntries_rename : ∀ es fs : List (String × Value),
    equalEntries (renameEntries ρ es) (renameEntries ρ fs) = equalEntries es fs
  | [], fs => by cases fs <;> simp [renameEntries, equalEntries]
  | (k, x) :: es, fs => by
      cases fs <;> simp [renameEntries, equalEntries, equal_rename x, equalEntries_rename es]

end

end Value

/-! ## Builtins -/

@[simp] theorem mapError_ok {ε ε' α : Type} (f : ε → ε') (a : α) : (Except.ok a).mapError f = .ok a := rfl

@[simp] theorem mapError_error {ε ε' α : Type} (f : ε → ε') (e : ε) :
    (Except.error e : Except ε α).mapError f = .error (f e) := rfl

theorem Number.ofArgument_rename (function : String) (v : Value) :
    ofArgument function (v.rename ρ) = (ofArgument function v).mapError (EvalError.rename ρ) := by
  cases v <;> simp [Value.rename, ofArgument, EvalError.rename]

theorem Number.toValue_rename (n : Number) : n.toValue.rename ρ = n.toValue := by
  cases n <;> simp [toValue, Value.rename]

namespace Arithmetic

variable {op : Arithmetic}

theorem combine_rename (op : Arithmetic) (ρ : ScopeId → ScopeId) (a b : Number) :
    (op.combine a b).mapError (EvalError.rename ρ) = op.combine a b := by
  unfold combine
  repeat' split
  all_goals rfl

theorem fold_rename (acc : Number) (args : List Value) :
    op.fold acc (args.map (Value.rename ρ)) = (op.fold acc args).mapError (EvalError.rename ρ) := by
  induction args generalizing acc with
  | nil => rfl
  | cons v rest ih =>
      rw [List.map_cons, fold, fold, Number.ofArgument_rename]
      cases Number.ofArgument op.name v with
      | error e => rfl
      | ok n =>
          have hcombine := combine_rename op ρ acc n
          simp only [mapError_ok]
          cases hnext : op.combine acc n with
          | error e =>
              rw [hnext] at hcombine
              exact congrArg Except.error (Except.error.inj hcombine).symm
          | ok next => exact ih next

theorem call_rename (args : List Value) :
    op.call (args.map (Value.rename ρ)) = (op.call args).mapError (EvalError.rename ρ) := by
  unfold call
  split
  · exact fold_rename _ args
  · match args with
    | [] => rfl
    | [only] => exact fold_rename _ [only]
    | first :: second :: rest =>
        simp only [List.map_cons, Number.ofArgument_rename]
        cases Number.ofArgument op.name first with
        | error e => rfl
        | ok n    => exact fold_rename n (second :: rest)

end Arithmetic

namespace Builtin

variable {b : Builtin}

theorem oneArgument_rename (args : List Value) :
    b.oneArgument (args.map (Value.rename ρ)) =
      ((b.oneArgument args).map (Value.rename ρ)).mapError (EvalError.rename ρ) := by
  rcases args with _ | ⟨v, _ | ⟨w, rest⟩⟩ <;>
    simp [oneArgument, Except.map, EvalError.rename]

theorem twoArguments_rename (args : List Value) :
    b.twoArguments (args.map (Value.rename ρ)) =
      ((b.twoArguments args).map fun vs => (vs.1.rename ρ, vs.2.rename ρ)).mapError (EvalError.rename ρ) := by
  rcases args with _ | ⟨v, _ | ⟨w, _ | ⟨u, rest⟩⟩⟩ <;>
    simp [twoArguments, Except.map, EvalError.rename]

theorem compare_rename (rel : Comparison) (args : List Value) :
    compare rel (args.map (Value.rename ρ)) = (compare rel args).mapError (EvalError.rename ρ) := by
  simp only [compare, twoArguments_rename]
  cases twoArguments (comparison rel) args with
  | error e => rfl
  | ok vs =>
      obtain ⟨v, w⟩ := vs
      simp only [Except.map, mapError_ok, Bind.bind, Except.bind, Number.ofArgument_rename]
      cases Number.ofArgument rel.name v with
      | error e => rfl
      | ok a =>
          cases Number.ofArgument rel.name w with
          | error e => rfl
          | ok b => rfl

theorem countOf_rename (v : Value) : countOf (v.rename ρ) = (countOf v).mapError (EvalError.rename ρ) := by
  cases v <;> simp [Value.rename, countOf, Value.items?, EvalError.rename, Value.renameItems_eq_map]

theorem emptinessOf_rename (v : Value) :
    emptinessOf (v.rename ρ) = (emptinessOf v).mapError (EvalError.rename ρ) := by
  cases v <;>
    simp [Value.rename, emptinessOf, Value.items?, EvalError.rename, Value.renameItems_eq_map]

theorem listness_rename (v : Value) : listness (v.rename ρ) = listness v := by
  cases v <;> simp only [Value.rename, listness]

/-- What follows a step sees no numbers of scopes if it sees none in the value of the step. -/
theorem bind_rename {α β : Type} {r r' : Except EvalError α} {g : α → α} {k : α → Except EvalError β}
    (hr : r' = (r.map g).mapError (EvalError.rename ρ)) (hk : ∀ a, k (g a) = (k a).mapError (EvalError.rename ρ)) :
    r'.bind k = (r.bind k).mapError (EvalError.rename ρ) := by
  rw [hr]
  cases r with
  | error e => rfl
  | ok a    => exact hk a

/-- An answer that is made from a result has other numbers if the result has. -/
theorem silent_rename {α : Type} {r r' : Except EvalError α} {g : α → α} {f : α → Value}
    (hr : r' = (r.map g).mapError (EvalError.rename ρ)) (hf : ∀ a, r = .ok a → f (g a) = (f a).rename ρ) :
    r'.map (fun a => Answer.silent (f a)) =
      ((r.map fun a => Answer.silent (f a)).map (Answer.rename ρ)).mapError (EvalError.rename ρ) := by
  rw [hr]
  cases r with
  | error e => rfl
  | ok a    => exact congrArg (fun v => Except.ok (Answer.silent v)) (hf a rfl)

/-- **A builtin does not see the numbers of scopes.** -/
theorem call_rename (args : List Value) :
    b.call (args.map (Value.rename ρ)) =
      ((b.call args).map (Answer.rename ρ)).mapError (EvalError.rename ρ) := by
  cases b with
  | arithmetic op =>
      refine silent_rename (g := id) ?_ fun v hv => ?_
      · rw [Except.map_id, id, Arithmetic.call_rename]
      · obtain ⟨n, rfl⟩ := Arithmetic.exists_number_of_call hv
        exact n.toValue_rename.symm
  | comparison rel =>
      refine silent_rename (g := id) ?_ fun holds _ => rfl
      rw [Except.map_id, id, compare_rename]
  | equal =>
      exact silent_rename (twoArguments_rename args) fun vs _ => congrArg Value.boolean (Value.equal_rename vs.1 vs.2)
  | isList =>
      exact silent_rename (oneArgument_rename args) fun v _ => congrArg Value.boolean (listness_rename v)
  | isEmpty =>
      refine silent_rename (g := id) ?_ fun e _ => rfl
      rw [Except.map_id, id, bind_rename (oneArgument_rename args) emptinessOf_rename]
  | count =>
      refine silent_rename (g := id) ?_ fun n _ => rfl
      rw [Except.map_id, id, bind_rename (oneArgument_rename args) countOf_rename]
  | list => exact congrArg (fun v => Except.ok (Answer.silent v)) (Value.rename_list args).symm
  | printString | string | printReadable | printRaw =>
      simp [call, Except.map, Answer.silent, Answer.rename, Value.rename, Value.printAll_rename]

end Builtin

end SmallLisp
