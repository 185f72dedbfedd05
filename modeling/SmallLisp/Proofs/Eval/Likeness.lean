import SmallLisp.Proofs.Eval.Frame
import SmallLisp.Proofs.Likeness

/-!
# `SmallLisp.Proofs.Eval.Likeness` — evaluation in stores that are alike

An evaluation has the same outcome, prints the same text and leaves stores that are alike, in any two stores that
are alike (`Likeness.simulates_eval`). The argument goes rule by rule: every rule does the same in both stores if
the evaluations inside it do, and takes only names from the forms that it is given.

## Contents
* **Parameters** are bound to the same arguments.
* **Rules.** `simulates_apply`, one lemma per special form, `simulates_fill` and `simulates_evalForm`.
* **The result** `Likeness.simulates_eval`.
-/

namespace SmallLisp

variable {ρ : ScopeId → ScopeId}

/-! ## Parameters -/

theorem Params.bindings_rename (params : List String) (args : List Value) :
    bindings params (args.map (Value.rename ρ)) = (bindings params args).map fun e => (e.1, e.2.rename ρ) := by
  fun_induction bindings params args with
  | case1 args => rfl
  | case2 args => rfl
  | case3 args rest params => simp [bindings, Value.rename_list]
  | case4 param params hparam => simp [bindings, hparam]
  | case5 param params hparam arg args ih => simp [bindings, hparam, ih]

namespace Eval

theorem paramNames_rename (params : List Value) :
    paramNames (params.map (Value.rename ρ)) = (paramNames params).mapError (Fault.rename ρ) := by
  induction params with
  | nil => rfl
  | cons param params ih =>
      rw [List.map_cons, paramNames, paramNames, Value.symbol?_rename, ih]
      cases param.symbol? with
      | none      => rfl
      | some name => cases paramNames params <;> rfl

/-- The names of a parameter list are those of the symbols in it. -/
theorem paramNames_eq_ok {params : List Value} {names : List String} (h : paramNames params = .ok names) :
    params = names.map .symbol := by
  induction params generalizing names with
  | nil =>
      cases h
      rfl
  | cons param params ih =>
      rw [paramNames] at h
      cases param with
      | symbol name =>
          cases hrest : paramNames params with
          | error fault =>
              rw [hrest] at h
              cases h
          | ok rest =>
              rw [hrest] at h
              cases h
              rw [ih hrest, List.map_cons]
      | _ => cases h

theorem specialHead?_rename (head : Value) : specialHead? (head.rename ρ) = specialHead? head := by
  rw [specialHead?, specialHead?, Value.symbol?_rename]

end Eval

/-! ## Rules -/

namespace Likeness

open SmallLisp.Eval SmallLisp.Value

/-- The evaluator does the same in stores that are alike. -/
def Evaluates (L : Likeness) (ev : Evaluator) : Prop :=
  ∀ form s, L.Allows form → L.SimulatesValue (ev form s) (ev (form.rename L.ρ) (L.ρ s))

variable {L : Likeness} {ev : Evaluator} {s : ScopeId}

theorem simulates_evalItems (hev : L.Evaluates ev) {forms : List Value} (h : ∀ form ∈ forms, L.Allows form) :
    L.SimulatesItems (evalItems ev s forms) (evalItems ev (L.ρ s) (forms.map (rename L.ρ))) := by
  induction forms with
  | nil => exact simulates_pure rfl nofun
  | cons form forms ih =>
      obtain ⟨hform, hforms⟩ := List.forall_mem_cons.mp h
      refine (hev form s hform).bind fun v hv => ?_
      refine (ih hforms).bind fun vs hvs => ?_
      exact simulates_pure rfl (List.forall_mem_cons.mpr ⟨hv, hvs⟩)

theorem simulates_evalEntries (hev : L.Evaluates ev) {entries : List (String × Value)}
    (h : ∀ e ∈ entries, L.Allows e.2) :
    L.SimulatesEntries (evalEntries ev s entries)
      (evalEntries ev (L.ρ s) (entries.map fun e => (e.1, e.2.rename L.ρ))) := by
  induction entries with
  | nil => exact simulates_pure rfl nofun
  | cons e entries ih =>
      obtain ⟨key, form⟩ := e
      obtain ⟨hform, hentries⟩ := List.forall_mem_cons.mp h
      refine (hev form s hform).bind fun v hv => ?_
      refine (ih hentries).bind fun vs hvs => ?_
      exact simulates_pure rfl (List.forall_mem_cons.mpr ⟨hv, hvs⟩)

theorem simulates_evalSequence (hev : L.Evaluates ev) {forms : List Value} (h : ∀ form ∈ forms, L.Allows form) :
    L.SimulatesValue (evalSequence ev s forms) (evalSequence ev (L.ρ s) (forms.map (rename L.ρ))) := by
  induction forms with
  | nil => exact simulates_pure rfl onlyMentions_nil
  | cons form forms ih =>
      obtain ⟨hform, hforms⟩ := List.forall_mem_cons.mp h
      cases forms with
      | nil               => exact hev form s hform
      | cons next forms => exact (hev form s hform).bind fun _ _ => ih hforms

/-! ### Calls -/

theorem simulates_apply (hev : L.Evaluates ev) {f : Value} {args : List Value} (hf : L.Allows f)
    (hargs : ∀ v ∈ args, L.Allows v) :
    L.SimulatesValue (apply ev f args) (apply ev (f.rename L.ρ) (args.map (rename L.ρ))) := by
  cases f with
  | builtin b => exact simulates_answer b hargs
  | closure params body scope =>
      obtain ⟨hparams, hbody⟩ := onlyMentions_closure.mp hf
      simp only [rename, apply, List.length_map, Params.bindings_rename]
      split
      · have hbindings : ∀ e ∈ Params.bindings params args, L.names e.1 ∧ L.Allows e.2 := fun e he =>
          (Params.onlyMentions_of_mem_bindings hargs e he).imp_left (hparams e.1)
        exact (simulates_enclose scope hbindings).bind fun inner _ => hev body inner hbody
      · exact simulates_fail rfl
  | _ => exact simulates_fail rfl

/-! ### Special forms -/

theorem names_of_symbol? {target : Value} {name : String} (htarget : target.symbol? = some name)
    (h : L.Allows target) : L.names name := by
  cases target with
  | symbol other =>
      cases htarget
      exact onlyMentions_symbol.mp h
  | _ => cases htarget

theorem simulates_evalDefine (hev : L.Evaluates ev) {parts : List Value} (h : ∀ part ∈ parts, L.Allows part) :
    L.SimulatesValue (evalDefine ev s parts) (evalDefine ev (L.ρ s) (parts.map (rename L.ρ))) := by
  match parts, h with
  | [target, form], h =>
      simp only [List.map_cons, List.map_nil, evalDefine, symbol?_rename]
      cases htarget : target.symbol? with
      | none => exact simulates_fail rfl
      | some name =>
          have hname := names_of_symbol? htarget (h target (by simp))
          refine (hev form s (h form (by simp))).bind fun v hv => ?_
          refine (simulates_define s hname hv).bind fun _ _ => ?_
          exact simulates_pure rfl hv
  | [], _ | [_], _ | _ :: _ :: _ :: _, _ => exact simulates_fail rfl

theorem simulates_evalBindings (hev : L.Evaluates ev) {items : List Value} (h : ∀ item ∈ items, L.Allows item) :
    L.Simulates id (fun _ => True) (evalBindings ev s items) (evalBindings ev (L.ρ s) (items.map (rename L.ρ))) := by
  fun_induction evalBindings ev s items with
  | case1 target form rest name htarget ih =>
      obtain ⟨htargetAllowed, h⟩ := List.forall_mem_cons.mp h
      obtain ⟨hform, hrest⟩ := List.forall_mem_cons.mp h
      simp only [List.map_cons, evalBindings, symbol?_rename, htarget]
      refine (hev form s hform).bind fun v hv => ?_
      exact (simulates_define s (names_of_symbol? htarget htargetAllowed) hv).bind fun _ _ => ih hrest
  | case2 target form rest htarget =>
      simp only [List.map_cons, evalBindings, symbol?_rename, htarget]
      exact simulates_fail rfl
  | case3 items hshort =>
      match items, hshort with
      | [], _ | [_], _ => exact simulates_pure rfl trivial
      | target :: form :: rest, hshort => exact absurd rfl (hshort target form rest)

theorem simulates_evalLet (hev : L.Evaluates ev) {parts : List Value} (h : ∀ part ∈ parts, L.Allows part) :
    L.SimulatesValue (evalLet ev s parts) (evalLet ev (L.ρ s) (parts.map (rename L.ρ))) := by
  match parts, h with
  | [bindings, body], h =>
      simp only [List.map_cons, List.map_nil, evalLet, items?_rename]
      cases hitems : bindings.items? with
      | none => exact simulates_fail rfl
      | some items =>
          have hallowed := (onlyMentions_of_items? hitems).mp (h bindings (by simp))
          simp only [Option.map_some, List.length_map]
          split
          · refine (simulates_enclose s (List.forall_mem_nil _)).bind fun inner _ => ?_
            refine (simulates_evalBindings hev hallowed).bind fun _ _ => ?_
            exact hev body inner (h body (by simp))
          · exact simulates_fail rfl
  | [], _ | [_], _ | _ :: _ :: _ :: _, _ => exact simulates_fail rfl

theorem simulates_evalConditional (hev : L.Evaluates ev) {parts : List Value} (h : ∀ part ∈ parts, L.Allows part) :
    L.SimulatesValue (evalConditional ev s parts) (evalConditional ev (L.ρ s) (parts.map (rename L.ρ))) := by
  match parts, h with
  | [condition, thenForm], h =>
      refine (hev condition s (h condition (by simp))).bind fun v _ => ?_
      simp only [isTruthy_rename]
      split
      · exact hev thenForm s (h thenForm (by simp))
      · exact simulates_pure rfl onlyMentions_nil
  | [condition, thenForm, elseForm], h =>
      refine (hev condition s (h condition (by simp))).bind fun v _ => ?_
      simp only [isTruthy_rename]
      split
      · exact hev thenForm s (h thenForm (by simp))
      · exact hev elseForm s (h elseForm (by simp))
  | [], _ | [_], _ | _ :: _ :: _ :: _ :: _, _ => exact simulates_fail rfl

theorem simulates_evalFunction {parts : List Value} (h : ∀ part ∈ parts, L.Allows part) :
    L.SimulatesValue (evalFunction s parts) (evalFunction (L.ρ s) (parts.map (rename L.ρ))) := by
  match parts, h with
  | [params, body], h =>
      simp only [List.map_cons, List.map_nil, evalFunction, items?_rename]
      cases hitems : params.items? with
      | none => exact simulates_fail rfl
      | some items =>
          have hallowed := (onlyMentions_of_items? hitems).mp (h params (by simp))
          simp only [Option.map_some, paramNames_rename]
          cases hnames : paramNames items with
          | error fault => exact simulates_fail rfl
          | ok names =>
              obtain rfl := paramNames_eq_ok hnames
              have hparams : ∀ name ∈ names, L.names name := fun name hname =>
                onlyMentions_symbol.mp (hallowed (.symbol name) (List.mem_map_of_mem hname))
              simp only [mapError_ok]
              split
              · exact simulates_fail rfl
              · exact simulates_pure rfl (onlyMentions_closure.mpr ⟨hparams, h body (by simp)⟩)
  | [], _ | [_], _ | _ :: _ :: _ :: _, _ => exact simulates_fail rfl

/-! ### Templates -/

mutual

theorem simulates_fill (hev : L.Evaluates ev) :
    ∀ {t : Value}, L.Allows t → L.SimulatesValue (fill ev s t) (fill ev (L.ρ s) (t.rename L.ρ))
  | .list items, h => by
      have hoperand : ((Value.list items).rename L.ρ).operand? .unquote =
          ((Value.list items).operand? .unquote).map (Value.rename L.ρ) := operand?_rename .unquote (.list items)
      rw [rename] at hoperand ⊢
      rw [fill, fill, hoperand]
      cases hunquote : (Value.list items).operand? .unquote with
      | some operand => exact hev operand s (onlyMentions_of_operand? hunquote h)
      | none =>
          refine (simulates_fillItems hev (onlyMentions_list.mp h)).bind fun vs hvs => ?_
          exact simulates_pure (rename_list vs).symm (onlyMentions_list.mpr hvs)
  | .vector items, h => by
      rw [rename, fill, fill]
      refine (simulates_fillItems hev (onlyMentions_vector.mp h)).bind fun vs hvs => ?_
      exact simulates_pure (rename_vector vs).symm (onlyMentions_vector.mpr hvs)
  | .marked .quote form, h => by
      rw [rename, fill, fill]
      refine (simulates_fill hev (onlyMentions_marked.mp h)).bind fun v hv => ?_
      exact simulates_pure rfl (onlyMentions_marked.mpr hv)
  | .marked .quasiquote form, h => by
      rw [rename, fill, fill]
      refine (simulates_fill hev (onlyMentions_marked.mp h)).bind fun v hv => ?_
      exact simulates_pure rfl (onlyMentions_marked.mpr hv)
  | .marked .unquote operand, h => by
      rw [rename, fill, fill]
      exact hev operand s (onlyMentions_marked.mp h)
  | .marked .spliceUnquote _, _ => simulates_fail rfl
  | .nil, h | .boolean _, h | .integer _, h | .float _, h | .string _, h | .keyword _, h | .symbol _, h | .map _, h
  | .builtin _, h | .closure _ _ _, h => simulates_pure rfl h

theorem simulates_fillItems (hev : L.Evaluates ev) : ∀ {items : List Value}, (∀ item ∈ items, L.Allows item) →
    L.SimulatesItems (fillItems ev s items) (fillItems ev (L.ρ s) (renameItems L.ρ items))
  | [], _ => simulates_pure rfl nofun
  | item :: items, h => by
      obtain ⟨hitem, hitems⟩ := List.forall_mem_cons.mp h
      rw [renameItems, fillItems, fillItems, operand?_rename]
      cases hsplice : item.operand? .spliceUnquote with
      | some operand =>
          refine (hev operand s (onlyMentions_of_operand? hsplice hitem)).bind fun v hv => ?_
          simp only [items?_rename]
          cases helements : v.items? with
          | none => exact simulates_fail rfl
          | some elements =>
              have hallowed := (onlyMentions_of_items? helements).mp hv
              refine (simulates_fillItems hev hitems).bind fun vs hvs => ?_
              exact simulates_pure List.map_append.symm (List.forall_mem_append.mpr ⟨hallowed, hvs⟩)
      | none =>
          refine (simulates_fill hev hitem).bind fun v hv => ?_
          refine (simulates_fillItems hev hitems).bind fun vs hvs => ?_
          exact simulates_pure rfl (List.forall_mem_cons.mpr ⟨hv, hvs⟩)

end

/-! ### Forms -/

theorem simulates_evalSpecial (hev : L.Evaluates ev) {parts : List Value} (h : ∀ part ∈ parts, L.Allows part)
    (special : SpecialForm) :
    L.SimulatesValue (evalSpecial ev s parts special) (evalSpecial ev (L.ρ s) (parts.map (rename L.ρ)) special) := by
  cases special with
  | define      => exact simulates_evalDefine hev h
  | letIn       => exact simulates_evalLet hev h
  | conditional => exact simulates_evalConditional hev h
  | function    => exact simulates_evalFunction h
  | quote =>
      match parts, h with
      | [form], h => exact simulates_pure rfl (h form (by simp))
      | [], _ | _ :: _ :: _, _ => exact simulates_fail rfl
  | quasiquote =>
      match parts, h with
      | [form], h => exact simulates_fill hev (h form (by simp))
      | [], _ | _ :: _ :: _, _ => exact simulates_fail rfl
  | sequence =>
      simp only [evalSpecial, List.isEmpty_map]
      split
      · exact simulates_fail rfl
      · exact simulates_evalSequence hev h

theorem simulates_evalList (hev : L.Evaluates ev) {head : Value} {parts : List Value} (hhead : L.Allows head)
    (hparts : ∀ part ∈ parts, L.Allows part) :
    L.SimulatesValue (evalList ev s head parts) (evalList ev (L.ρ s) (head.rename L.ρ) (parts.map (rename L.ρ))) := by
  unfold evalList
  rw [specialHead?_rename]
  cases specialHead? head with
  | some special => exact simulates_evalSpecial hev hparts special
  | none =>
      refine (hev head s hhead).bind fun f hf => ?_
      exact (simulates_evalItems hev hparts).bind fun args hargs => simulates_apply hev hf hargs

/-- **One nesting.** The value of a form is found alike if the values of the forms inside it are. -/
theorem simulates_evalForm (hev : L.Evaluates ev) : L.Evaluates (evalForm ev) := by
  intro form s h
  cases form with
  | symbol name => exact simulates_lookup s (onlyMentions_symbol.mp h)
  | vector items =>
      rw [rename_vector]
      refine (simulates_evalItems hev (onlyMentions_vector.mp h)).bind fun vs hvs => ?_
      exact simulates_pure (rename_vector vs).symm (onlyMentions_vector.mpr hvs)
  | map entries =>
      rw [rename_map]
      have hentries := onlyMentions_map.mp h
      refine (simulates_evalEntries hev fun e he => (hentries e he).2).bind fun es hes => ?_
      exact simulates_pure (rename_map es).symm (onlyMentions_map.mpr fun e he => ⟨trivial, hes e he⟩)
  | list items =>
      rw [rename_list]
      cases items with
      | nil => exact simulates_pure rfl h
      | cons head parts =>
          obtain ⟨hhead, hparts⟩ := List.forall_mem_cons.mp (onlyMentions_list.mp h)
          exact simulates_evalList hev hhead hparts
  | marked m form =>
      have hform := onlyMentions_marked.mp h
      cases m with
      | quote         => exact simulates_pure rfl hform
      | quasiquote    => exact simulates_fill hev hform
      | unquote       => exact simulates_fail rfl
      | spliceUnquote => exact simulates_fail rfl
  | _ => exact simulates_pure rfl h

/-! ## The result -/

/-- **Evaluations cannot tell stores that are alike from one another.** -/
theorem simulates_eval (depth : Nat) : L.Evaluates (eval depth) := by
  induction depth with
  | zero          => exact fun _ _ _ => simulates_giveUp
  | succ depth ih => exact simulates_evalForm ih

end Likeness

end SmallLisp
