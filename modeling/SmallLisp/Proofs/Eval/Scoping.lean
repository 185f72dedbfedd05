import SmallLisp.Proofs.Eval.Likeness
import SmallLisp.Proofs.Scoping

/-!
# `SmallLisp.Proofs.Eval.Scoping` — evaluations look up known names only

In a well-scoped store a form that is covered by the names visible from a scope is evaluated there without a failed
look-up, and what the evaluation leaves is well scoped again: the store, and the value if there is one. The argument
goes rule by rule. A call finds the parameters of the closure bound because the number of arguments has been checked,
and all other names because the closure was well scoped when it was made and scopes only gain names.

## Contents
* **Evaluators** `Evaluator.Safe`.
* **Rules.** `safe_apply`, one lemma per special form, `safe_fill` and `safe_evalForm`.
* **The result** `eval_finds_names`, with a program whose closure is called where its names are not visible.
-/

namespace SmallLisp

variable {st a b : Store} {s : ScopeId} {ev : Evaluator}

/-! ## Evaluators -/

/-- The form can be evaluated in the scope: the names visible there cover it, and its closures are well scoped. -/
structure Value.ScopedIn (st : Store) (s : ScopeId) (form : Value) : Prop where
  wellScoped : form.WellScoped st
  covered : form.covered (st.visible s)

theorem Value.ScopedIn.grows {form : Value} (h : form.ScopedIn a s) (hab : a.Grows b) : form.ScopedIn b s :=
  ⟨h.wellScoped.grows hab, covered_mono (hab.visible_subset s) form h.covered⟩

theorem Value.wellScoped_closure {params : List String} {body : Value} {scope : ScopeId} :
    (closure params body scope).WellScoped st ↔
      body.covered (Params.reachable params ++ st.visible scope) ∧ body.WellScoped st := onlyMentions_closure

/-- The evaluator looks up no name in vain, as far as forms are scoped where it evaluates them. -/
def Evaluator.Safe (ev : Evaluator) : Prop :=
  ∀ form s st, st.WellScoped → form.ScopedIn st s → Action.SafeValue (ev form s) st

/-! ## Rules -/

namespace Eval

open SmallLisp.Action SmallLisp.Value

theorem safe_evalItems (hev : ev.Safe) (hst : st.WellScoped) {forms : List Value}
    (h : ∀ form ∈ forms, form.ScopedIn st s) : SafeItems (evalItems ev s forms) st := by
  induction forms generalizing st with
  | nil => exact safe_pure hst (List.forall_mem_nil _)
  | cons form forms ih =>
      obtain ⟨hform, hforms⟩ := List.forall_mem_cons.mp h
      refine (hev form s st hst hform).bind fun v after hafter hwell hv => ?_
      refine (ih hwell fun f hf => (hforms f hf).grows hafter).bind fun vs last hlast hwell hvs => ?_
      exact safe_pure hwell (List.forall_mem_cons.mpr ⟨hv.grows hlast, hvs⟩)

theorem safe_evalEntries (hev : ev.Safe) (hst : st.WellScoped) {entries : List (String × Value)}
    (h : ∀ e ∈ entries, e.2.ScopedIn st s) :
    Safe (fun after es => ∀ e ∈ es, e.2.WellScoped after) (evalEntries ev s entries) st := by
  induction entries generalizing st with
  | nil => exact safe_pure hst (List.forall_mem_nil _)
  | cons e entries ih =>
      obtain ⟨hform, hentries⟩ := List.forall_mem_cons.mp h
      refine (hev e.2 s st hst hform).bind fun v after hafter hwell hv => ?_
      refine (ih hwell fun e' he' => (hentries e' he').grows hafter).bind fun es last hlast hwell hes => ?_
      exact safe_pure hwell (List.forall_mem_cons.mpr ⟨hv.grows hlast, hes⟩)

theorem safe_evalSequence (hev : ev.Safe) (hst : st.WellScoped) {forms : List Value}
    (h : ∀ form ∈ forms, form.ScopedIn st s) : SafeValue (evalSequence ev s forms) st := by
  induction forms generalizing st with
  | nil => exact safe_pure hst onlyMentions_nil
  | cons form forms ih =>
      obtain ⟨hform, hforms⟩ := List.forall_mem_cons.mp h
      cases forms with
      | nil => exact hev form s st hst hform
      | cons next forms =>
          refine (hev form s st hst hform).bind fun _ after hafter hwell _ => ?_
          exact ih hwell fun f hf => (hforms f hf).grows hafter

/-! ### Calls -/

/-- The new scope of a call is inside that of the closure, and the reachable parameters are bound in it. -/
theorem safe_apply (hev : ev.Safe) (hst : st.WellScoped) {f : Value} {args : List Value} (hf : f.WellScoped st)
    (hargs : ∀ v ∈ args, v.WellScoped st) : SafeValue (apply ev f args) st := by
  cases f with
  | builtin b => exact safe_answer hst b hargs
  | closure params body scope =>
      obtain ⟨hcovered, hbody⟩ := wellScoped_closure.mp hf
      simp only [apply]
      split
      · rename_i hcount
        have hbindings : ∀ e ∈ Params.bindings params args, e.2.WellScoped st := fun e he =>
          (Params.onlyMentions_of_mem_bindings hargs e he).2
        refine (safe_enclose hst scope hbindings).bind fun inner after hafter hwell hinner => ?_
        have hvisible := hinner.2
        rw [Params.map_fst_bindings (Params.length_fixed_le hcount)] at hvisible
        exact hev body inner after hwell ⟨hbody.grows hafter, covered_mono hvisible body hcovered⟩
      · exact safe_fail hst rfl
  | _ => exact safe_fail hst rfl

/-! ### Special forms -/

theorem safe_evalDefine (hev : ev.Safe) (hst : st.WellScoped) {parts : List Value}
    (h : ∀ part ∈ parts, part.WellScoped st) (hparts : coveredSpecial (st.visible s) .define parts) :
    SafeValue (evalDefine ev s parts) st := by
  match parts, h, hparts with
  | [target, form], h, hparts =>
      simp only [evalDefine]
      cases target.symbol? with
      | none => exact safe_fail hst rfl
      | some name =>
          refine (hev form s st hst ⟨h form (by simp), hparts⟩).bind fun v after _ hwell hv => ?_
          refine (safe_define hwell s name hv).bind fun _ last hlast hwell _ => ?_
          exact safe_pure hwell (hv.grows hlast)
  | [], _, _ | [_], _, _ | _ :: _ :: _ :: _, _, _ => exact safe_fail hst rfl

/-- Afterwards the names bound are visible besides those that were. -/
theorem safe_evalBindings (hev : ev.Safe) (hst : st.WellScoped) (hs : st.Has s) {items : List Value}
    (h : ∀ item ∈ items, item.WellScoped st) (hitems : coveredBindings (st.visible s) items) :
    Safe (fun after _ => boundNames items ++ st.visible s ⊆ after.visible s) (evalBindings ev s items) st := by
  fun_induction evalBindings ev s items generalizing st with
  | case1 target form rest name htarget ih =>
      obtain ⟨-, h⟩ := List.forall_mem_cons.mp h
      obtain ⟨hform, hrest⟩ := List.forall_mem_cons.mp h
      simp only [coveredBindings, htarget, Option.toList_some, Bool.and_eq_true] at hitems
      refine (hev form s st hst ⟨hform, hitems.1⟩).bind fun v after hafter hwell hv => ?_
      refine (safe_define hwell s name hv).bind fun _ next hnext hwell hname => ?_
      have hgrows := hafter.trans hnext
      -- The other values are evaluated in sight of this name, so their coverage is carried on to the store after it.
      have hvisible : [name] ++ st.visible s ⊆ next.visible s :=
        List.cons_subset.mpr ⟨hname (hafter.has hs), hgrows.visible_subset s⟩
      have hallowed : ∀ item ∈ rest, item.WellScoped next := fun item hitem => (hrest item hitem).grows hgrows
      have hcovered := coveredBindings_mono hvisible rest hitems.2
      refine (ih hwell (hgrows.has hs) hallowed hcovered).imp fun last _ hlast => ?_
      rw [boundNames, htarget, Option.toList_some, List.append_assoc]
      exact List.Subset.trans (bound_subset hvisible (boundNames rest)) hlast
  | case2 target form rest htarget => exact safe_fail hst rfl
  | case3 items hshort =>
      have hnone : boundNames items = [] := by
        rcases items with _ | ⟨target, _ | ⟨form, rest⟩⟩
        · rfl
        · rfl
        · exact absurd rfl (hshort target form rest)
      rw [hnone]
      exact safe_pure hst (List.Subset.refl _)

theorem safe_evalLet (hev : ev.Safe) (hst : st.WellScoped) {parts : List Value}
    (h : ∀ part ∈ parts, part.WellScoped st) (hparts : coveredSpecial (st.visible s) .letIn parts) :
    SafeValue (evalLet ev s parts) st := by
  match parts, h, hparts with
  | [bindings, body], h, hparts =>
      simp only [evalLet]
      cases hitems : bindings.items? with
      | none => exact safe_fail hst rfl
      | some items =>
          have hallowed := (onlyMentions_of_items? hitems).mp (h bindings (by simp))
          have hbody := h body (by simp)
          simp only [coveredSpecial, hitems, coveredBinder_of_items? hitems, Bool.and_eq_true] at hparts
          dsimp only
          split
          · refine (safe_enclose hst s (List.forall_mem_nil _)).bind fun inner after hafter hwell hinner => ?_
            obtain ⟨hhas, hvisible⟩ := hinner
            have hvalues : ∀ item ∈ items, item.WellScoped after := fun item hitem =>
              Value.WellScoped.grows (hallowed item hitem) hafter
            refine (safe_evalBindings hev hwell hhas hvalues
              (coveredBindings_mono hvisible items hparts.1)).bind fun _ last hlast hwell hbound => ?_
            refine hev body inner last hwell ⟨hbody.grows (hafter.trans hlast), ?_⟩
            exact covered_mono (List.Subset.trans (bound_subset hvisible _) hbound) body hparts.2
          · exact safe_fail hst rfl
  | [], _, _ | [_], _, _ | _ :: _ :: _ :: _, _, _ => exact safe_fail hst rfl

theorem safe_evalConditional (hev : ev.Safe) (hst : st.WellScoped) {parts : List Value}
    (h : ∀ part ∈ parts, part.ScopedIn st s) : SafeValue (evalConditional ev s parts) st := by
  match parts, h with
  | [condition, thenForm], h =>
      refine (hev condition s st hst (h condition (by simp))).bind fun v after hafter hwell _ => ?_
      split
      · exact hev thenForm s after hwell ((h thenForm (by simp)).grows hafter)
      · exact safe_pure hwell onlyMentions_nil
  | [condition, thenForm, elseForm], h =>
      refine (hev condition s st hst (h condition (by simp))).bind fun v after hafter hwell _ => ?_
      split
      · exact hev thenForm s after hwell ((h thenForm (by simp)).grows hafter)
      · exact hev elseForm s after hwell ((h elseForm (by simp)).grows hafter)
  | [], _ | [_], _ | _ :: _ :: _ :: _ :: _, _ => exact safe_fail hst rfl

/-- A closure is well scoped where it is made. -/
theorem safe_evalFunction (hst : st.WellScoped) {parts : List Value} (h : ∀ part ∈ parts, part.WellScoped st)
    (hparts : coveredSpecial (st.visible s) .function parts) : SafeValue (evalFunction s parts) st := by
  match parts, h, hparts with
  | [params, body], h, hparts =>
      simp only [evalFunction]
      cases hitems : params.items? with
      | none => exact safe_fail hst rfl
      | some items =>
          dsimp only
          cases hnames : paramNames items with
          | error fault => exact safe_fail hst rfl
          | ok names =>
              obtain rfl := paramNames_eq_ok hnames
              have hsymbols : (names.map symbol).filterMap symbol? = names := by
                rw [List.filterMap_map]
                exact List.filterMap_some
              simp only [coveredSpecial, hitems, hsymbols] at hparts
              dsimp only
              split
              · exact safe_fail hst rfl
              · exact safe_pure hst (wellScoped_closure.mpr ⟨hparts, h body (by simp)⟩)
  | [], _, _ | [_], _, _ | _ :: _ :: _ :: _, _, _ => exact safe_fail hst rfl

/-! ### Templates -/

mutual

theorem safe_fill (hev : ev.Safe) : ∀ {t : Value} {st : Store}, st.WellScoped → t.WellScoped st →
    coveredHoles (st.visible s) .whole t → SafeValue (fill ev s t) st
  | .list items, st, hst, ht, hholes => by
      rw [fill]
      cases hunquote : (Value.list items).operand? .unquote with
      | some operand =>
          have hcovered := covered_operand (Place.mem_holes.mpr (Or.inl rfl)) hunquote hholes
          exact hev operand s st hst ⟨onlyMentions_of_operand? hunquote ht, hcovered⟩
      | none =>
          refine (safe_fillItems hev hst (onlyMentions_list.mp ht) (coveredHolesItems_of_list hunquote hholes)).bind
            fun vs last _ hwell hvs => ?_
          exact safe_pure hwell (onlyMentions_list.mpr hvs)
  | .vector items, st, hst, ht, hholes => by
      rw [fill]
      refine (safe_fillItems hev hst (onlyMentions_vector.mp ht) hholes).bind fun vs last _ hwell hvs => ?_
      exact safe_pure hwell (onlyMentions_vector.mpr hvs)
  | .marked .quote form, st, hst, ht, hholes => by
      rw [fill]
      refine (safe_fill hev hst (onlyMentions_marked.mp ht) hholes).bind fun v last _ hwell hv => ?_
      exact safe_pure hwell (onlyMentions_marked.mpr hv)
  | .marked .quasiquote form, st, hst, ht, hholes => by
      rw [fill]
      refine (safe_fill hev hst (onlyMentions_marked.mp ht) hholes).bind fun v last _ hwell hv => ?_
      exact safe_pure hwell (onlyMentions_marked.mpr hv)
  | .marked .unquote operand, st, hst, ht, hholes => by
      rw [fill]
      exact hev operand s st hst ⟨onlyMentions_marked.mp ht, hholes⟩
  | .marked .spliceUnquote _, st, hst, _, _ => safe_fail hst rfl
  | .nil, st, hst, ht, _ | .boolean _, st, hst, ht, _ | .integer _, st, hst, ht, _ | .float _, st, hst, ht, _
  | .string _, st, hst, ht, _ | .keyword _, st, hst, ht, _ | .symbol _, st, hst, ht, _ | .map _, st, hst, ht, _
  | .builtin _, st, hst, ht, _ | .closure _ _ _, st, hst, ht, _ => safe_pure hst ht

theorem safe_fillItems (hev : ev.Safe) : ∀ {items : List Value} {st : Store}, st.WellScoped →
    (∀ item ∈ items, item.WellScoped st) → coveredHolesItems (st.visible s) items →
    SafeItems (fillItems ev s items) st
  | [], st, hst, _, _ => safe_pure hst (List.forall_mem_nil _)
  | item :: items, st, hst, h, hholes => by
      obtain ⟨hitem, hitems⟩ := List.forall_mem_cons.mp h
      simp only [coveredHolesItems, Bool.and_eq_true] at hholes
      -- Whatever the item does, the others are still covered after it.
      have hothers : ∀ after, st.Grows after → after.WellScoped → SafeItems (fillItems ev s items) after :=
        fun after hafter hwell => safe_fillItems hev hwell (fun other hother => (hitems other hother).grows hafter)
          (coveredHolesItems_mono (hafter.visible_subset s) items hholes.2)
      rw [fillItems]
      cases hsplice : item.operand? .spliceUnquote with
      | some operand =>
          have hcovered := covered_operand (Place.mem_holes.mpr (Or.inr ⟨rfl, rfl⟩)) hsplice hholes.1
          refine (hev operand s st hst ⟨onlyMentions_of_operand? hsplice hitem, hcovered⟩).bind
            fun v after hafter hwell hv => ?_
          cases helements : v.items? with
          | none => exact safe_fail hwell rfl
          | some elements =>
              have hspliced := (onlyMentions_of_items? helements).mp hv
              refine (hothers after hafter hwell).bind fun vs last hlast hwell hvs => ?_
              refine safe_pure hwell (List.forall_mem_append.mpr ⟨fun element helement => ?_, hvs⟩)
              exact Value.WellScoped.grows (hspliced element helement) hlast
      | none =>
          refine (safe_fill hev hst hitem (coveredHoles_whole hsplice hholes.1)).bind
            fun v after hafter hwell hv => ?_
          refine (hothers after hafter hwell).bind fun vs last hlast hwell hvs => ?_
          exact safe_pure hwell (List.forall_mem_cons.mpr ⟨hv.grows hlast, hvs⟩)

end

/-! ### Forms -/

theorem forall_scopedIn {forms : List Value} (h : ∀ form ∈ forms, form.WellScoped st)
    (hcovered : coveredItems (st.visible s) forms) : ∀ form ∈ forms, form.ScopedIn st s :=
  fun form hform => ⟨h form hform, forall_covered hcovered form hform⟩

theorem safe_evalSpecial (hev : ev.Safe) (hst : st.WellScoped) {parts : List Value}
    (h : ∀ part ∈ parts, part.WellScoped st) (special : SpecialForm)
    (hparts : coveredSpecial (st.visible s) special parts) : SafeValue (evalSpecial ev s parts special) st := by
  cases special with
  | define   => exact safe_evalDefine hev hst h hparts
  | letIn    => exact safe_evalLet hev hst h hparts
  | function => exact safe_evalFunction hst h hparts
  | conditional =>
      match parts, h, hparts with
      | [], _, _ => exact safe_fail hst rfl
      | part :: parts, h, hparts => exact safe_evalConditional hev hst (forall_scopedIn h hparts)
  | sequence =>
      match parts, h, hparts with
      | [], _, _ => exact safe_fail hst rfl
      | part :: parts, h, hparts => exact safe_evalSequence hev hst (forall_scopedIn h hparts)
  | quote =>
      match parts, h with
      | [form], h => exact safe_pure hst (h form (by simp))
      | [], _ | _ :: _ :: _, _ => exact safe_fail hst rfl
  | quasiquote =>
      match parts, h, hparts with
      | [form], h, hparts => exact safe_fill hev hst (h form (by simp)) hparts
      | [], _, _ | _ :: _ :: _, _, _ => exact safe_fail hst rfl

theorem safe_evalList (hev : ev.Safe) (hst : st.WellScoped) {head : Value} {parts : List Value}
    (h : ∀ form ∈ head :: parts, form.WellScoped st) (hcovered : coveredList (st.visible s) (head :: parts)) :
    SafeValue (evalList ev s head parts) st := by
  obtain ⟨hhead, hparts⟩ := List.forall_mem_cons.mp h
  unfold evalList
  unfold coveredList at hcovered
  cases hspecial : specialHead? head with
  | some special =>
      rw [hspecial] at hcovered
      exact safe_evalSpecial hev hst hparts special hcovered
  | none =>
      simp only [hspecial, Bool.and_eq_true] at hcovered
      refine (hev head s st hst ⟨hhead, hcovered.1⟩).bind fun f after hafter hwell hf => ?_
      have hargs : ∀ part ∈ parts, part.ScopedIn after s := fun part hpart =>
        (forall_scopedIn hparts hcovered.2 part hpart).grows hafter
      refine (safe_evalItems hev hwell hargs).bind fun args last hlast hwell hargs => ?_
      -- The function is called in a later store than it was found in, where it is still well scoped.
      exact safe_apply hev hwell (hf.grows hlast) hargs

/-- **One nesting.** The value of a form is found safely if the values of the forms inside it are. -/
theorem safe_evalForm (hev : ev.Safe) : Evaluator.Safe (evalForm ev) := by
  rintro form s st hst ⟨hform, hcovered⟩
  cases form with
  | symbol name =>
      simp only [covered, decide_eq_true_eq] at hcovered
      exact safe_lookup hst hcovered
  | vector items =>
      refine (safe_evalItems hev hst (forall_scopedIn (onlyMentions_vector.mp hform) hcovered)).bind
        fun vs last _ hwell hvs => ?_
      exact safe_pure hwell (onlyMentions_vector.mpr hvs)
  | map entries =>
      have hentries := onlyMentions_map.mp hform
      refine (safe_evalEntries hev hst fun e he => ⟨(hentries e he).2, forall_coveredEntries hcovered e he⟩).bind
        fun es last _ hwell hes => ?_
      exact safe_pure hwell (onlyMentions_map.mpr fun e he => ⟨trivial, hes e he⟩)
  | list items =>
      cases items with
      | nil => exact safe_pure hst hform
      | cons head parts => exact safe_evalList hev hst (onlyMentions_list.mp hform) hcovered
  | marked m form =>
      have hinner := onlyMentions_marked.mp hform
      cases m with
      | quote         => exact safe_pure hst hinner
      | quasiquote    => exact safe_fill hev hst hinner hcovered
      | unquote       => exact safe_fail hst rfl
      | spliceUnquote => exact safe_fail hst rfl
  | _ => exact safe_pure hst hform

theorem safe_eval (depth : Nat) : Evaluator.Safe (eval depth) := by
  induction depth with
  | zero          => exact fun _ _ _ hst _ => safe_giveUp hst
  | succ depth ih => exact safe_evalForm ih

end Eval

/-! ## The result -/

/-- **No name is looked up in vain.** In a well-scoped store, a form whose closures are well scoped and that is covered
by the names visible from a scope is evaluated there without a failed look-up. However the evaluation ends, the store
that it leaves is well scoped again, and so is the value that it gives. -/
theorem eval_finds_names {form : Value} (hst : st.WellScoped) (hform : form.WellScoped st)
    (hcovered : form.covered (st.visible s)) (depth : Nat) :
    (∀ name, (eval depth form s st).outcome ≠ .error (.symbolNotFound name)) ∧
    (eval depth form s st).store.WellScoped ∧
    ∀ v, (eval depth form s st).outcome = .value v → v.WellScoped (eval depth form s st).store := by
  have hsafe := Eval.safe_eval depth form s st hst ⟨hform, hcovered⟩
  refine ⟨fun name hfailed => ?_, hsafe.wellScoped, hsafe.value_ok⟩
  exact Option.some_ne_none name (hsafe.found _ hfailed)

/-- The name `n` is visible from the scope of the closure `f`, but not from the one that the form is evaluated in. -/
theorem eval_finds_names_of_closure_call :
    let scopes := (Store.empty.newScope none).newScope (some ⟨0⟩)
    let st := (scopes.set ⟨1⟩ "n" (.integer 5)).set ⟨0⟩ "f" (.closure [] (.symbol "n") ⟨1⟩)
    let template := Value.vector [.symbol "a", .marked .unquote (.symbol "a"), .marked .spliceUnquote (.symbol "rest")]
    let body := Value.marked .quasiquote template
    let form := Value.list [.symbol "let*", .vector [.symbol "a", .list [.symbol "f"]],
      .list [.symbol "fn*", .list [.symbol "&", .symbol "rest"], body]]
    st.WellScoped ∧ form.WellScoped st ∧ form.covered (st.visible ⟨0⟩) ∧ "n" ∉ st.visible ⟨0⟩ ∧
    (eval 4 form ⟨0⟩ st).outcome = .value (.closure ["&", "rest"] body ⟨2⟩) ∧
    (∀ name, (eval 4 form ⟨0⟩ st).outcome ≠ .error (.symbolNotFound name)) ∧
    (eval 4 form ⟨0⟩ st).store.WellScoped ∧
    ∀ v, (eval 4 form ⟨0⟩ st).outcome = .value v → v.WellScoped (eval 4 form ⟨0⟩ st).store := by
  intro scopes st template body form
  have hscopes : scopes.WellScoped := (Store.wellScoped_empty.newScope none).newScope (some ⟨0⟩)
  have hn : (scopes.set ⟨1⟩ "n" (.integer 5)).WellScoped := hscopes.set (Value.onlyMentions_integer 5) ⟨1⟩ "n"
  have hf : (Value.closure [] (.symbol "n") ⟨1⟩).WellScoped (scopes.set ⟨1⟩ "n" (.integer 5)) :=
    Value.wellScoped_closure.mpr ⟨by decide +kernel, Value.onlyMentions_symbol.mpr trivial⟩
  have hst : st.WellScoped := hn.set hf ⟨0⟩ "f"
  have hform : form.WellScoped st := by simp [form, body, template, Value.WellScoped, Mention.WellScoped]
  have hcovered : form.covered (st.visible ⟨0⟩) := by decide +kernel
  refine ⟨hst, hform, hcovered, by decide +kernel, ?_, eval_finds_names hst hform hcovered 4⟩
  with_unfolding_all rfl

end SmallLisp
