import SmallLisp.Proofs.Eval.Likeness
import SmallLisp.Proofs.Invariant

/-!
# `SmallLisp.Proofs.Eval.Invariant` — evaluations keep every invariant

An evaluation in a good store, of a form that fits and in a scope that is there, leaves a good store and gives a
value that fits, however it ends. The argument goes rule by rule and is the same for every invariant: a part of what
fits fits, what is put together from parts that fit does too, and what fitted before some evaluation still fits
after it.

What a `def!` or `let*` form binds goes into a scope that is there already, which is more than some properties bear. So
the rules let another evaluator give the values that are bound, one that may hold back what would do harm.

## Contents
* **Evaluators** `Invariant.Core.KeptBy`, `Invariant.Core.BoundBy`, and `Eval.evalFormWith`, which takes one of each.
* **Rules.** `keeps_apply`, one lemma per special form, `keeps_fill` and `keptBy_evalFormWith`.
* **Evaluation** `keptBy_eval`.
-/

namespace SmallLisp

/-! ## Evaluators -/

namespace Eval

open SmallLisp.Action

/-- A `let*` form, with an evaluator of its own for the values that are bound. -/
def evalLetWith (binding ev : Evaluator) (s : ScopeId) : List Value → Action Value
  | [bindings, body] =>
    match bindings.items? with
    | some items =>
      if items.length % 2 = 0 then do
        let inner ← enclose s []
        evalBindings binding inner items
        ev body inner
      else fail (.malformed .oddBindings)
    | none => fail (.malformed (.bindingsNotAList bindings))
  | _ => fail (.malformed (.parts .letIn))

/-- The value of a form, with an evaluator of its own for the values that `def!` and `let*` forms bind. -/
def evalFormWith (binding ev : Evaluator) (form : Value) (s : ScopeId) : Action Value :=
  match form with
  | .list (head :: parts) =>
    match specialHead? head with
    | some .define => evalDefine binding s parts
    | some .letIn  => evalLetWith binding ev s parts
    | _            => evalForm ev (.list (head :: parts)) s
  | form => evalForm ev form s

theorem evalLetWith_self (ev : Evaluator) : evalLetWith ev ev = evalLet ev := rfl

theorem evalFormWith_self (ev : Evaluator) : evalFormWith ev ev = evalForm ev := by
  funext form s
  unfold evalFormWith
  split
  · rename_i head parts
    split
    · rename_i hspecial
      simp only [evalForm, evalList, hspecial, evalSpecial]
    · rename_i hspecial
      simp only [evalForm, evalList, hspecial, evalSpecial, evalLetWith_self]
    · rfl
  · rfl

end Eval

namespace Invariant.Core

/-- The evaluator keeps the invariant, as far as forms fit and are evaluated in scopes that are there. -/
def KeptBy (I : Invariant.Core) (ev : Evaluator) : Prop :=
  ∀ form s st, I.good st → st.Has s → I.fits st form → I.KeepsValue (ev form s) st

/-- The evaluator keeps the invariant, and the values that it gives may be bound in the scope of the form. -/
def BoundBy (I : Invariant.Core) (binding : Evaluator) : Prop :=
  ∀ form s st, I.good st → st.Has s → I.fits st form →
    I.Keeps (fun after v => I.fits after v ∧ ∀ name, I.good (after.set s name v)) (binding form s) st

end Invariant.Core

/-! ## Rules -/

/-- What is not a parameter list has an item that is not a symbol. -/
theorem Eval.exists_param_of_paramNames {items : List Value} {fault : Fault} (h : paramNames items = .error fault) :
    ∃ param ∈ items, fault = .paramNotASymbol param := by
  fun_induction paramNames items with
  | case1 => cases h
  | case2 param rest name hname ih =>
      cases hrest : paramNames rest with
      | ok names =>
          rw [hrest] at h
          cases h
      | error other =>
          rw [hrest] at h
          cases h
          obtain ⟨found, hfound, heq⟩ := ih hrest
          exact ⟨found, List.mem_cons_of_mem param hfound, heq⟩
  | case3 param rest hname =>
      cases h
      exact ⟨param, List.mem_cons_self, rfl⟩

namespace Invariant

open SmallLisp.Eval SmallLisp.Value Invariant.Core

variable {I : Invariant.Core} {ev : Evaluator} {s : ScopeId} {st : Store}

theorem keeps_evalItems (hev : I.KeptBy ev) (hst : I.good st) (hs : st.Has s) {forms : List Value}
    (h : ∀ form ∈ forms, I.fits st form) : I.KeepsItems (evalItems ev s forms) st := by
  induction forms generalizing st with
  | nil => exact keeps_pure hst (List.forall_mem_nil _)
  | cons form forms ih =>
      obtain ⟨hform, hforms⟩ := List.forall_mem_cons.mp h
      refine (hev form s st hst hs hform).bind fun v after hafter hgood hv => ?_
      refine (ih hgood (hafter.has hs) fun f hf => I.fits_grows (hforms f hf) hafter).bind
        fun vs last hlast hgood hvs => ?_
      exact keeps_pure hgood (List.forall_mem_cons.mpr ⟨I.fits_grows hv hlast, hvs⟩)

/-- The keys of a map stay, in their order. -/
theorem keeps_evalEntries (hev : I.KeptBy ev) (hst : I.good st) (hs : st.Has s) {entries : List (String × Value)}
    (h : ∀ e ∈ entries, I.fits st e.2) :
    I.Keeps (fun after es => es.map Prod.fst = entries.map Prod.fst ∧ ∀ e ∈ es, I.fits after e.2)
      (evalEntries ev s entries) st := by
  induction entries generalizing st with
  | nil => exact keeps_pure hst ⟨rfl, List.forall_mem_nil _⟩
  | cons e entries ih =>
      obtain ⟨hform, hentries⟩ := List.forall_mem_cons.mp h
      refine (hev e.2 s st hst hs hform).bind fun v after hafter hgood hv => ?_
      refine (ih hgood (hafter.has hs) fun e' he' => I.fits_grows (hentries e' he') hafter).bind
        fun es last hlast hgood hes => ?_
      obtain ⟨hkeys, hvalues⟩ := hes
      have hkeys : (e.1, v).1 :: es.map Prod.fst = e.1 :: entries.map Prod.fst := congrArg (e.1 :: ·) hkeys
      exact keeps_pure hgood ⟨hkeys, List.forall_mem_cons.mpr ⟨I.fits_grows hv hlast, hvalues⟩⟩

theorem keeps_evalSequence (hev : I.KeptBy ev) (hst : I.good st) (hs : st.Has s) {forms : List Value}
    (h : ∀ form ∈ forms, I.fits st form) : I.KeepsValue (evalSequence ev s forms) st := by
  induction forms generalizing st with
  | nil => exact keeps_pure hst (I.fits_scalar rfl)
  | cons form forms ih =>
      obtain ⟨hform, hforms⟩ := List.forall_mem_cons.mp h
      cases forms with
      | nil => exact hev form s st hst hs hform
      | cons next forms =>
          refine (hev form s st hst hs hform).bind fun _ after hafter hgood _ => ?_
          exact ih hgood (hafter.has hs) fun f hf => I.fits_grows (hforms f hf) hafter

/-! ### Calls -/

/-- The body of a closure is evaluated in the new scope, so nothing need be known of the scope of the call. -/
theorem keeps_apply (hev : I.KeptBy ev) (hst : I.good st) {f : Value} {args : List Value} (hf : I.fits st f)
    (hargs : ∀ v ∈ args, I.fits st v) : I.KeepsValue (apply ev f args) st := by
  cases f with
  | builtin b => exact keeps_answer hst b hargs
  | closure params body scope =>
      simp only [apply]
      split
      · have hbindings : ∀ e ∈ Params.bindings params args, I.fits st e.2 := fits_of_bindings hargs
        refine (keeps_enclose (I.good_call hst hf hbindings)).bind fun inner after hafter hgood hinner => ?_
        exact hev body inner after hgood hinner (I.fits_grows (I.fits_body hf) hafter)
      · exact keeps_fail_nil hst rfl
  | _ => exact keeps_fail_singleton hst rfl hf

/-! ### Special forms -/

theorem keeps_evalDefine {binding : Evaluator} (hbinding : I.BoundBy binding) (hst : I.good st) (hs : st.Has s)
    {parts : List Value} (h : ∀ part ∈ parts, I.fits st part) : I.KeepsValue (evalDefine binding s parts) st := by
  match parts, h with
  | [target, form], h =>
      simp only [evalDefine]
      cases target.symbol? with
      | none => exact keeps_fail_singleton hst rfl (h target (by simp))
      | some name =>
          refine (hbinding form s st hst hs (h form (by simp))).bind fun v after _ _ hv => ?_
          obtain ⟨hv, hbound⟩ := hv
          refine (keeps_define s name (hbound name)).bind fun _ last hlast hgood _ => ?_
          exact keeps_pure hgood (I.fits_grows hv hlast)
  | [], _ | [_], _ | _ :: _ :: _ :: _, _ => exact keeps_fail_nil hst rfl

theorem keeps_evalBindings {binding : Evaluator} (hbinding : I.BoundBy binding) (hst : I.good st) (hs : st.Has s)
    {items : List Value} (h : ∀ item ∈ items, I.fits st item) :
    I.Keeps (fun _ _ => True) (evalBindings binding s items) st := by
  fun_induction evalBindings binding s items generalizing st with
  | case1 target form rest name htarget ih =>
      obtain ⟨-, h⟩ := List.forall_mem_cons.mp h
      obtain ⟨hform, hrest⟩ := List.forall_mem_cons.mp h
      refine (hbinding form s st hst hs hform).bind fun v after hafter _ hv => ?_
      refine (keeps_define s name (hv.2 name)).bind fun _ next hnext hgood _ => ?_
      have hgrows := hafter.trans hnext
      exact ih hgood (hgrows.has hs) fun item hitem => I.fits_grows (hrest item hitem) hgrows
  | case2 target form rest htarget => exact keeps_fail_singleton hst rfl (h target (by simp))
  | case3 items hshort => exact keeps_pure hst trivial

theorem keeps_evalLetWith {binding : Evaluator} (hbinding : I.BoundBy binding) (hev : I.KeptBy ev) (hst : I.good st)
    (hs : st.Has s) {parts : List Value} (h : ∀ part ∈ parts, I.fits st part) :
    I.KeepsValue (evalLetWith binding ev s parts) st := by
  match parts, h with
  | [bindings, body], h =>
      simp only [evalLetWith]
      cases hitems : bindings.items? with
      | none => exact keeps_fail_singleton hst rfl (h bindings (by simp))
      | some items =>
          have hvalues := fits_of_items? hitems (h bindings (by simp))
          dsimp only
          split
          · have hnew : I.good ((st.newScope (some s)).setAll st.nextId []) := I.good_newScope hst hs
            refine (keeps_enclose hnew).bind fun inner after hafter hgood hinner => ?_
            refine (keeps_evalBindings hbinding hgood hinner fun item hitem =>
              I.fits_grows (hvalues item hitem) hafter).bind fun _ last hlast hgood _ => ?_
            have hbody := I.fits_grows (h body (by simp)) (hafter.trans hlast)
            exact hev body inner last hgood (hlast.has hinner) hbody
          · exact keeps_fail_nil hst rfl
  | [], _ | [_], _ | _ :: _ :: _ :: _, _ => exact keeps_fail_nil hst rfl

theorem keeps_evalConditional (hev : I.KeptBy ev) (hst : I.good st) (hs : st.Has s) {parts : List Value}
    (h : ∀ part ∈ parts, I.fits st part) : I.KeepsValue (evalConditional ev s parts) st := by
  match parts, h with
  | [condition, thenForm], h =>
      refine (hev condition s st hst hs (h condition (by simp))).bind fun v after hafter hgood _ => ?_
      split
      · exact hev thenForm s after hgood (hafter.has hs) (I.fits_grows (h thenForm (by simp)) hafter)
      · exact keeps_pure hgood (I.fits_scalar rfl)
  | [condition, thenForm, elseForm], h =>
      refine (hev condition s st hst hs (h condition (by simp))).bind fun v after hafter hgood _ => ?_
      split
      · exact hev thenForm s after hgood (hafter.has hs) (I.fits_grows (h thenForm (by simp)) hafter)
      · exact hev elseForm s after hgood (hafter.has hs) (I.fits_grows (h elseForm (by simp)) hafter)
  | [], _ | [_], _ | _ :: _ :: _ :: _ :: _, _ => exact keeps_fail_nil hst rfl

theorem keeps_evalFunction (hst : I.good st) (hs : st.Has s) (hname : I.fits st (.symbol SpecialForm.function.name))
    {parts : List Value} (h : ∀ part ∈ parts, I.fits st part) : I.KeepsValue (evalFunction s parts) st := by
  match parts, h with
  | [params, body], h =>
      simp only [evalFunction]
      cases hitems : params.items? with
      | none => exact keeps_fail_singleton hst rfl (h params (by simp))
      | some items =>
          have hvalues := fits_of_items? hitems (h params (by simp))
          dsimp only
          cases hnames : paramNames items with
          | error fault =>
              obtain ⟨param, hparam, rfl⟩ := exists_param_of_paramNames hnames
              exact keeps_fail_singleton hst rfl (hvalues param hparam)
          | ok names =>
              obtain rfl := paramNames_eq_ok hnames
              have hparams : ∀ name ∈ names, I.fits st (.symbol name) := fun name hmem =>
                hvalues (.symbol name) (List.mem_map_of_mem hmem)
              dsimp only
              split
              · exact keeps_fail_nil hst rfl
              · exact keeps_pure hst (I.fits_closure hname hparams (h body (by simp)) hs)
  | [], _ | [_], _ | _ :: _ :: _ :: _, _ => exact keeps_fail_nil hst rfl

/-! ### Templates -/

mutual

theorem keeps_fill (hev : I.KeptBy ev) : ∀ {t : Value} {st : Store}, I.good st → st.Has s → I.fits st t →
    I.KeepsValue (fill ev s t) st
  | .list items, st, hst, hs, ht => by
      rw [fill]
      cases hunquote : (Value.list items).operand? .unquote with
      | some operand => exact hev operand s st hst hs (fits_of_operand? hunquote ht)
      | none =>
          refine (keeps_fillItems hev hst hs (I.fits_list.mp ht)).bind fun vs last _ hgood hvs => ?_
          exact keeps_pure hgood (I.fits_list.mpr hvs)
  | .vector items, st, hst, hs, ht => by
      rw [fill]
      refine (keeps_fillItems hev hst hs (I.fits_vector.mp ht)).bind fun vs last _ hgood hvs => ?_
      exact keeps_pure hgood (I.fits_vector.mpr hvs)
  | .marked .quote form, st, hst, hs, ht => by
      rw [fill]
      refine (keeps_fill hev hst hs (I.fits_marked.mp ht)).bind fun v last _ hgood hv => ?_
      exact keeps_pure hgood (I.fits_marked.mpr hv)
  | .marked .quasiquote form, st, hst, hs, ht => by
      rw [fill]
      refine (keeps_fill hev hst hs (I.fits_marked.mp ht)).bind fun v last _ hgood hv => ?_
      exact keeps_pure hgood (I.fits_marked.mpr hv)
  | .marked .unquote operand, st, hst, hs, ht => hev operand s st hst hs (I.fits_marked.mp ht)
  | .marked .spliceUnquote _, st, hst, _, _ => keeps_fail_nil hst rfl
  | .nil, st, hst, _, ht | .boolean _, st, hst, _, ht | .integer _, st, hst, _, ht | .float _, st, hst, _, ht
  | .string _, st, hst, _, ht | .keyword _, st, hst, _, ht | .symbol _, st, hst, _, ht | .map _, st, hst, _, ht
  | .builtin _, st, hst, _, ht | .closure _ _ _, st, hst, _, ht => keeps_pure hst ht

theorem keeps_fillItems (hev : I.KeptBy ev) : ∀ {items : List Value} {st : Store}, I.good st → st.Has s →
    (∀ item ∈ items, I.fits st item) → I.KeepsItems (fillItems ev s items) st
  | [], st, hst, _, _ => keeps_pure hst (List.forall_mem_nil _)
  | item :: items, st, hst, hs, h => by
      obtain ⟨hitem, hitems⟩ := List.forall_mem_cons.mp h
      have hothers : ∀ after, st.Grows after → I.good after → I.KeepsItems (fillItems ev s items) after :=
        fun after hafter hgood => keeps_fillItems hev hgood (hafter.has hs) fun other hother =>
          I.fits_grows (hitems other hother) hafter
      rw [fillItems]
      cases hsplice : item.operand? .spliceUnquote with
      | some operand =>
          refine (hev operand s st hst hs (fits_of_operand? hsplice hitem)).bind fun v after hafter hgood hv => ?_
          cases helements : v.items? with
          | none => exact keeps_fail_singleton hgood rfl hv
          | some elements =>
              have hspliced := fits_of_items? helements hv
              refine (hothers after hafter hgood).bind fun vs last hlast hgood hvs => ?_
              refine keeps_pure hgood (List.forall_mem_append.mpr ⟨fun element helement => ?_, hvs⟩)
              exact I.fits_grows (hspliced element helement) hlast
      | none =>
          refine (keeps_fill hev hst hs hitem).bind fun v after hafter hgood hv => ?_
          refine (hothers after hafter hgood).bind fun vs last hlast hgood hvs => ?_
          exact keeps_pure hgood (List.forall_mem_cons.mpr ⟨I.fits_grows hv hlast, hvs⟩)

end

/-! ### Forms -/

/-- A special form that binds nothing. -/
theorem keeps_evalSpecial (hev : I.KeptBy ev) (hst : I.good st) (hs : st.Has s) {special : SpecialForm}
    (hdefine : special ≠ .define) (hlet : special ≠ .letIn) (hname : I.fits st (.symbol special.name))
    {parts : List Value} (h : ∀ part ∈ parts, I.fits st part) :
    I.KeepsValue (evalSpecial ev s parts special) st := by
  cases special with
  | define      => exact absurd rfl hdefine
  | letIn       => exact absurd rfl hlet
  | conditional => exact keeps_evalConditional hev hst hs h
  | function    => exact keeps_evalFunction hst hs hname h
  | sequence =>
      simp only [evalSpecial]
      split
      · exact keeps_fail_nil hst rfl
      · exact keeps_evalSequence hev hst hs h
  | quote =>
      rcases parts with _ | ⟨form, _ | ⟨second, rest⟩⟩
      · exact keeps_fail_nil hst rfl
      · exact keeps_pure hst (h form (by simp))
      · exact keeps_fail_nil hst rfl
  | quasiquote =>
      rcases parts with _ | ⟨form, _ | ⟨second, rest⟩⟩
      · exact keeps_fail_nil hst rfl
      · exact keeps_fill hev hst hs (h form (by simp))
      · exact keeps_fail_nil hst rfl

/-- A list that binds nothing itself, though a function that it calls may. -/
theorem keeps_evalList (hev : I.KeptBy ev) (hst : I.good st) (hs : st.Has s) {head : Value} {parts : List Value}
    (hdefine : specialHead? head ≠ some .define) (hlet : specialHead? head ≠ some .letIn)
    (h : ∀ form ∈ head :: parts, I.fits st form) : I.KeepsValue (evalList ev s head parts) st := by
  obtain ⟨hhead, hparts⟩ := List.forall_mem_cons.mp h
  unfold evalList
  cases hspecial : specialHead? head with
  | some special =>
      rw [hspecial] at hdefine hlet
      rw [symbol_of_specialHead? hspecial] at hhead
      exact keeps_evalSpecial hev hst hs (fun heq => hdefine (congrArg some heq)) (fun heq => hlet (congrArg some heq))
        hhead hparts
  | none =>
      refine (hev head s st hst hs hhead).bind fun f after hafter hgood hf => ?_
      refine (keeps_evalItems hev hgood (hafter.has hs) fun part hpart => I.fits_grows (hparts part hpart) hafter).bind
        fun args last hlast hgood hargs => ?_
      exact keeps_apply hev hgood (I.fits_grows hf hlast) hargs

/-- **One nesting.** The evaluation of a form keeps the invariant if those of the forms inside it do, and if what is
bound may be bound. -/
theorem keptBy_evalFormWith {binding : Evaluator} (hbinding : I.BoundBy binding) (hev : I.KeptBy ev) :
    I.KeptBy (evalFormWith binding ev) := by
  intro form s st hst hs hform
  cases form with
  | symbol name => exact keeps_lookup hst s hform
  | vector items =>
      refine (keeps_evalItems hev hst hs (I.fits_vector.mp hform)).bind fun vs last _ hgood hvs => ?_
      exact keeps_pure hgood (I.fits_vector.mpr hvs)
  | map entries =>
      refine (keeps_evalEntries hev hst hs (I.fits_entry hform)).bind fun es last hlast hgood hes => ?_
      exact keeps_pure hgood (I.fits_map (I.fits_grows hform hlast) hes.1 hes.2)
  | list items =>
      cases items with
      | nil => exact keeps_pure hst hform
      | cons head parts =>
          have hitems := I.fits_list.mp hform
          have hparts : ∀ part ∈ parts, I.fits st part := fun part hpart => hitems part (List.mem_cons_of_mem _ hpart)
          simp only [evalFormWith]
          split
          · exact keeps_evalDefine hbinding hst hs hparts
          · exact keeps_evalLetWith hbinding hev hst hs hparts
          · rename_i hdefine hlet
            exact keeps_evalList hev hst hs hdefine hlet hitems
  | marked m form =>
      have hinner := I.fits_marked.mp hform
      cases m with
      | quote         => exact keeps_pure hst hinner
      | quasiquote    => exact keeps_fill hev hst hs hinner
      | unquote       => exact keeps_fail_nil hst rfl
      | spliceUnquote => exact keeps_fail_nil hst rfl
  | _ => exact keeps_pure hst hform

/-! ## Evaluation -/

/-- Whatever fits may be bound. -/
theorem boundBy_of_keptBy {I : Invariant} {ev : Evaluator} (hev : I.KeptBy ev) : I.BoundBy ev := by
  intro form s st hst hs hform
  obtain ⟨hgrows, hgood, hvalue, herror⟩ := hev form s st hst hs hform
  exact ⟨hgrows, hgood, fun v hv => ⟨hvalue v hv, fun name => I.good_set s name hgood (hvalue v hv)⟩, herror⟩

/-- **Evaluations keep every invariant.** -/
theorem keptBy_eval {I : Invariant} (depth : Nat) : I.KeptBy (eval depth) := by
  induction depth with
  | zero => exact fun _ _ _ hst _ _ => keeps_giveUp hst
  | succ depth ih =>
      show I.KeptBy (evalForm (eval depth))
      rw [← evalFormWith_self]
      exact keptBy_evalFormWith (boundBy_of_keptBy ih) ih

end Invariant

end SmallLisp
