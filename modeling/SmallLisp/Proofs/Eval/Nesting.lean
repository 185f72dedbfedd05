import SmallLisp.Proofs.Eval.Invariant

/-!
# `SmallLisp.Proofs.Eval.Nesting` — how deeply evaluations nest

An evaluation goes down into the parts of a form and into the bodies of the functions that it calls. The parts get
smaller, the bodies need not, so in general no bound on the nesting is high enough. But values are never evaluated:
what a call meets besides the form itself is the body of a closure that is there already. So if an invariant admits
only closures whose bodies nest little, then the form alone says how deeply its evaluation nests.

To nest within a bound means not to give up there, and then a higher bound makes no difference. Both are said at once,
of two evaluators that may have different bounds, and go rule by rule.

## Contents
* **Depth** of the parts of a value.
* **Actions** `Action.Settles`, with sequencing and every step.
* **Evaluators** `Invariant.SettlesForms`, on forms `Within` a depth, and `Invariant.SettlesBodies`.
* **Rules.** `settles_apply`, one lemma per special form, `settles_fill` and `settlesForms_evalForm`.
* **The result** `Invariant.settlesForms_eval`.
-/

namespace SmallLisp

/-! ## Depth -/

namespace Value

theorem depth_pos (v : Value) : 0 < v.depth := by
  cases v <;> simp only [depth] <;> omega

theorem depthItems_le_iff {items : List Value} {d : Nat} : depthItems items ≤ d ↔ ∀ item ∈ items, item.depth ≤ d := by
  induction items with
  | nil => simp [depthItems]
  | cons item items ih => rw [depthItems, Nat.max_le, ih, List.forall_mem_cons]

theorem depthEntries_le_iff {entries : List (String × Value)} {d : Nat} :
    depthEntries entries ≤ d ↔ ∀ e ∈ entries, e.2.depth ≤ d := by
  induction entries with
  | nil => simp [depthEntries]
  | cons e entries ih => rw [depthEntries, Nat.max_le, ih, List.forall_mem_cons]

theorem depth_of_items? {v : Value} {items : List Value} (h : v.items? = some items) :
    v.depth = 1 + depthItems items := by
  cases v with
  | list _   => cases h; rfl
  | vector _ => cases h; rfl
  | _        => cases h

theorem depth_operand?_le {v operand : Value} {m : Mark} (h : v.operand? m = some operand) :
    operand.depth ≤ v.depth := by
  rcases operand?_eq_some_iff.mp h with rfl | rfl
  · simp only [depth]
    omega
  · simp only [depth, depthItems]
    omega

end Value

/-! ## Actions -/

namespace Action

variable {α β : Type} {st : Store}

/-- Done in the store, the second action does what the first one does, which does not give up. -/
structure Settles (x x' : Action α) (st : Store) : Prop where
  same : x' st = x st
  ends : (x st).outcome ≠ .tooDeep

theorem settles_pure {a : α} : Settles (pure a) (pure a) st := ⟨rfl, nofun⟩

theorem settles_fail {e : EvalError} : Settles (fail e : Action α) (fail e) st := ⟨rfl, nofun⟩

theorem settles_answer (r : Except EvalError Answer) : Settles (answer r) (answer r) st := by
  cases r with
  | ok _    => exact ⟨rfl, nofun⟩
  | error _ => exact ⟨rfl, nofun⟩

theorem settles_lookup (s : ScopeId) (name : String) : Settles (lookup s name) (lookup s name) st := by
  refine ⟨rfl, ?_⟩
  unfold lookup
  cases st.get? s name with
  | none   => nofun
  | some _ => nofun

theorem settles_define (s : ScopeId) (name : String) (v : Value) : Settles (define s name v) (define s name v) st :=
  ⟨rfl, nofun⟩

theorem settles_enclose (outer : ScopeId) (bindings : List (String × Value)) :
    Settles (enclose outer bindings) (enclose outer bindings) st :=
  ⟨rfl, nofun⟩

/-- What follows a first action need only settle where an invariant lets that action lead. -/
theorem Settles.bind {I : Invariant.Core} {ok : Store → α → Prop} {x x' : Action α} {f f' : α → Action β}
    (hx : Settles x x' st) (hkeeps : I.Keeps ok x st)
    (hf : ∀ a after, st.Grows after → I.good after → ok after a → Settles (f a) (f' a) after) :
    Settles (x >>= f) (x' >>= f') st := by
  obtain ⟨hsame, hends⟩ := hx
  obtain ⟨hgrows, hgood, hok, -⟩ := hkeeps
  constructor
  · rw [bind_apply, bind_apply, hsame]
    generalize x st = r at hgrows hgood hok
    obtain ⟨outcome, after, text⟩ := r
    cases outcome with
    | value a => simp only [(hf a after hgrows hgood (hok a rfl)).same]
    | error e => rfl
    | tooDeep => rfl
  · rw [bind_apply]
    generalize x st = r at hends hgrows hgood hok
    obtain ⟨outcome, after, text⟩ := r
    cases outcome with
    | value a => exact (hf a after hgrows hgood (hok a rfl)).ends
    | error e => nofun
    | tooDeep => exact absurd rfl hends

end Action

/-! ## Evaluators -/

namespace Invariant

open SmallLisp.Action

variable {I : Invariant} {st after : Store} {d : Nat}

/-- The form fits, and it is nested at most `d` deep. -/
structure Within (I : Invariant) (d : Nat) (st : Store) (form : Value) : Prop where
  fits : I.fits st form
  depth_le : form.depth ≤ d

theorem Within.grows {form : Value} (h : I.Within d st form) (hafter : st.Grows after) : I.Within d after form :=
  ⟨I.fits_grows h.fits hafter, h.depth_le⟩

theorem forall_within_grows {forms : List Value} (h : ∀ form ∈ forms, I.Within d st form) (hafter : st.Grows after) :
    ∀ form ∈ forms, I.Within d after form :=
  fun form hform => (h form hform).grows hafter

theorem forall_fits {forms : List Value} (h : ∀ form ∈ forms, I.Within d st form) : ∀ form ∈ forms, I.fits st form :=
  fun form hform => (h form hform).fits

theorem within_items {items : List Value} (hfits : ∀ item ∈ items, I.fits st item)
    (hdepth : Value.depthItems items ≤ d) : ∀ item ∈ items, I.Within d st item :=
  fun item hitem => ⟨hfits item hitem, Value.depthItems_le_iff.mp hdepth item hitem⟩

theorem within_of_items? {v : Value} {items : List Value} (h : v.items? = some items) (hv : I.Within d st v) :
    ∀ item ∈ items, I.Within d st item := by
  apply within_items (Core.fits_of_items? h hv.fits)
  have hdepth := hv.depth_le
  rw [Value.depth_of_items? h] at hdepth
  omega

theorem within_of_operand? {v operand : Value} {m : Mark} (h : v.operand? m = some operand) (hv : I.Within d st v) :
    I.Within d st operand :=
  ⟨Core.fits_of_operand? h hv.fits, Nat.le_trans (Value.depth_operand?_le h) hv.depth_le⟩

/-- On forms nested at most `d` deep the second evaluator does what the first one does, which does not give up. -/
def SettlesForms (I : Invariant) (d : Nat) (ev ev' : Evaluator) : Prop :=
  ∀ form s st, I.good st → st.Has s → I.Within d st form → Settles (ev form s) (ev' form s) st

/-- No form has depth zero. -/
theorem settlesForms_zero (ev ev' : Evaluator) : I.SettlesForms 0 ev ev' :=
  fun form _ _ _ _ hform => absurd hform.depth_le (Nat.not_le.mpr form.depth_pos)

/-- On the bodies of closures that fit the second evaluator does what the first one does, which does not give up. -/
def SettlesBodies (I : Invariant) (ev ev' : Evaluator) : Prop :=
  ∀ params body scope s st, I.good st → st.Has s → I.fits st (.closure params body scope) →
    Settles (ev body s) (ev' body s) st

/-! ## Rules -/

open SmallLisp.Eval SmallLisp.Value Invariant.Core

variable {ev ev' : Evaluator} {s : ScopeId}

/-- A form is evaluated, and something follows that may use its value. -/
theorem SettlesForms.bind {β : Type} (hev : I.SettlesForms d ev ev') (hkept : I.KeptBy ev) (hst : I.good st)
    (hs : st.Has s) {form : Value} (hform : I.Within d st form) {f f' : Value → Action β}
    (hf : ∀ v after, st.Grows after → I.good after → I.fits after v → Settles (f v) (f' v) after) :
    Settles (ev form s >>= f) (ev' form s >>= f') st :=
  (hev form s st hst hs hform).bind (hkept form s st hst hs hform.fits) hf

theorem settles_evalItems (hkept : I.KeptBy ev) (hev : I.SettlesForms d ev ev') (hst : I.good st) (hs : st.Has s)
    {forms : List Value} (h : ∀ form ∈ forms, I.Within d st form) :
    Settles (evalItems ev s forms) (evalItems ev' s forms) st := by
  induction forms generalizing st with
  | nil => exact settles_pure
  | cons form forms ih =>
      obtain ⟨hform, hforms⟩ := List.forall_mem_cons.mp h
      refine hev.bind hkept hst hs hform fun v after hafter hgood _ => ?_
      have hrest := forall_within_grows hforms hafter
      refine (ih hgood (hafter.has hs) hrest).bind
        (keeps_evalItems hkept hgood (hafter.has hs) (forall_fits hrest)) fun _ _ _ _ _ => ?_
      exact settles_pure

theorem settles_evalEntries (hkept : I.KeptBy ev) (hev : I.SettlesForms d ev ev') (hst : I.good st) (hs : st.Has s)
    {entries : List (String × Value)} (h : ∀ e ∈ entries, I.Within d st e.2) :
    Settles (evalEntries ev s entries) (evalEntries ev' s entries) st := by
  induction entries generalizing st with
  | nil => exact settles_pure
  | cons e entries ih =>
      obtain ⟨hform, hentries⟩ := List.forall_mem_cons.mp h
      refine hev.bind hkept hst hs hform fun v after hafter hgood _ => ?_
      have hrest : ∀ e ∈ entries, I.Within d after e.2 := fun e he => (hentries e he).grows hafter
      refine (ih hgood (hafter.has hs) hrest).bind
        (keeps_evalEntries hkept hgood (hafter.has hs) fun e he => (hrest e he).fits) fun _ _ _ _ _ => ?_
      exact settles_pure

theorem settles_evalSequence (hkept : I.KeptBy ev) (hev : I.SettlesForms d ev ev') (hst : I.good st) (hs : st.Has s)
    {forms : List Value} (h : ∀ form ∈ forms, I.Within d st form) :
    Settles (evalSequence ev s forms) (evalSequence ev' s forms) st := by
  induction forms generalizing st with
  | nil => exact settles_pure
  | cons form forms ih =>
      obtain ⟨hform, hforms⟩ := List.forall_mem_cons.mp h
      cases forms with
      | nil => exact hev form s st hst hs hform
      | cons next forms =>
          refine hev.bind hkept hst hs hform fun _ after hafter hgood _ => ?_
          exact ih hgood (hafter.has hs) (forall_within_grows hforms hafter)

/-! ### Calls -/

/-- Only here is a form evaluated that is no part of the one at hand. -/
theorem settles_apply (hbodies : I.SettlesBodies ev ev') (hst : I.good st) {f : Value} {args : List Value}
    (hf : I.fits st f) (hargs : ∀ v ∈ args, I.fits st v) : Settles (apply ev f args) (apply ev' f args) st := by
  cases f with
  | builtin b => exact settles_answer (b.call args)
  | closure params body scope =>
      simp only [apply]
      split
      · have hbindings : ∀ e ∈ Params.bindings params args, I.fits st e.2 := fits_of_bindings hargs
        have hcall := keeps_enclose (I.good_call hst hf hbindings)
        refine (settles_enclose scope _).bind hcall fun inner after hafter hgood hinner => ?_
        exact hbodies params body scope inner after hgood hinner (I.fits_grows hf hafter)
      · exact settles_fail
  | _ => exact settles_fail

/-! ### Special forms -/

theorem settles_evalDefine (hkept : I.KeptBy ev) (hev : I.SettlesForms d ev ev') (hst : I.good st) (hs : st.Has s)
    {parts : List Value} (h : ∀ part ∈ parts, I.Within d st part) :
    Settles (evalDefine ev s parts) (evalDefine ev' s parts) st := by
  match parts, h with
  | [target, form], h =>
      have hform := h form (by simp)
      simp only [evalDefine]
      cases target.symbol? with
      | none => exact settles_fail
      | some name =>
          refine hev.bind hkept hst hs hform fun v after _ hgood hv => ?_
          have hdefine := keeps_define s name (I.good_set s name hgood hv)
          exact (settles_define s name v).bind hdefine fun _ _ _ _ _ => settles_pure
  | [], _ | [_], _ | _ :: _ :: _ :: _, _ => exact settles_fail

theorem settles_evalBindings (hkept : I.KeptBy ev) (hev : I.SettlesForms d ev ev') (hst : I.good st) (hs : st.Has s)
    {items : List Value} (h : ∀ item ∈ items, I.Within d st item) :
    Settles (evalBindings ev s items) (evalBindings ev' s items) st := by
  fun_induction evalBindings ev s items generalizing st with
  | case1 target form rest name htarget ih =>
      obtain ⟨-, h⟩ := List.forall_mem_cons.mp h
      obtain ⟨hform, hrest⟩ := List.forall_mem_cons.mp h
      rw [evalBindings, htarget]
      refine hev.bind hkept hst hs hform fun v after hafter hgood hv => ?_
      have hdefine := keeps_define s name (I.good_set s name hgood hv)
      refine (settles_define s name v).bind hdefine fun _ next hnext hgood _ => ?_
      have hgrows := hafter.trans hnext
      exact ih hgood (hgrows.has hs) (forall_within_grows hrest hgrows)
  | case2 target form rest htarget =>
      rw [evalBindings, htarget]
      exact settles_fail
  | case3 items hshort =>
      rcases items with _ | ⟨target, _ | ⟨form, rest⟩⟩
      · exact settles_pure
      · exact settles_pure
      · exact absurd rfl (hshort target form rest)

theorem settles_evalLet (hkept : I.KeptBy ev) (hev : I.SettlesForms d ev ev') (hst : I.good st) (hs : st.Has s)
    {parts : List Value} (h : ∀ part ∈ parts, I.Within d st part) :
    Settles (evalLet ev s parts) (evalLet ev' s parts) st := by
  match parts, h with
  | [bindings, body], h =>
      simp only [evalLet]
      cases hitems : bindings.items? with
      | none => exact settles_fail
      | some items =>
          have hvalues := within_of_items? hitems (h bindings (by simp))
          dsimp only
          split
          · have hnew : I.good ((st.newScope (some s)).setAll st.nextId []) := I.good_newScope hst hs
            refine (settles_enclose s []).bind (keeps_enclose hnew) fun inner after hafter hgood hinner => ?_
            have hvalues := forall_within_grows hvalues hafter
            have hbound := keeps_evalBindings (boundBy_of_keptBy hkept) hgood hinner (forall_fits hvalues)
            refine (settles_evalBindings hkept hev hgood hinner hvalues).bind hbound fun _ last hlast hgood _ => ?_
            exact hev body inner last hgood (hlast.has hinner) ((h body (by simp)).grows (hafter.trans hlast))
          · exact settles_fail
  | [], _ | [_], _ | _ :: _ :: _ :: _, _ => exact settles_fail

theorem settles_evalConditional (hkept : I.KeptBy ev) (hev : I.SettlesForms d ev ev') (hst : I.good st)
    (hs : st.Has s) {parts : List Value} (h : ∀ part ∈ parts, I.Within d st part) :
    Settles (evalConditional ev s parts) (evalConditional ev' s parts) st := by
  have hbranch : ∀ form ∈ parts, ∀ after, st.Grows after → I.good after → Settles (ev form s) (ev' form s) after :=
    fun form hmem after hafter hgood => hev form s after hgood (hafter.has hs) ((h form hmem).grows hafter)
  match parts, h with
  | [condition, thenForm], h =>
      refine hev.bind hkept hst hs (h condition (by simp)) fun v after hafter hgood _ => ?_
      split
      · exact hbranch thenForm (by simp) after hafter hgood
      · exact settles_pure
  | [condition, thenForm, elseForm], h =>
      refine hev.bind hkept hst hs (h condition (by simp)) fun v after hafter hgood _ => ?_
      split
      · exact hbranch thenForm (by simp) after hafter hgood
      · exact hbranch elseForm (by simp) after hafter hgood
  | [], _ | [_], _ | _ :: _ :: _ :: _ :: _, _ => exact settles_fail

/-- A closure is made without an evaluation. -/
theorem settles_evalFunction (s : ScopeId) (parts : List Value) :
    Settles (evalFunction s parts) (evalFunction s parts) st := by
  match parts with
  | [params, body] =>
      simp only [evalFunction]
      cases params.items? with
      | none => exact settles_fail
      | some items =>
          dsimp only
          cases paramNames items with
          | error fault => exact settles_fail
          | ok names =>
              dsimp only
              split
              · exact settles_fail
              · exact settles_pure
  | [] | [_] | _ :: _ :: _ :: _ => exact settles_fail

/-! ### Templates -/

mutual

theorem settles_fill (hkept : I.KeptBy ev) (hev : I.SettlesForms d ev ev') : ∀ {t : Value} {st : Store},
    I.good st → st.Has s → I.Within d st t → Settles (fill ev s t) (fill ev' s t) st
  | .list items, st, hst, hs, ht => by
      rw [fill, fill]
      cases hunquote : (Value.list items).operand? .unquote with
      | some operand => exact hev operand s st hst hs (within_of_operand? hunquote ht)
      | none =>
          have hitems : ∀ item ∈ items, I.Within d st item := within_of_items? rfl ht
          exact (settles_fillItems hkept hev hst hs hitems).bind (keeps_fillItems hkept hst hs (forall_fits hitems))
            fun _ _ _ _ _ => settles_pure
  | .vector items, st, hst, hs, ht => by
      rw [fill, fill]
      have hitems : ∀ item ∈ items, I.Within d st item := within_of_items? rfl ht
      exact (settles_fillItems hkept hev hst hs hitems).bind (keeps_fillItems hkept hst hs (forall_fits hitems))
        fun _ _ _ _ _ => settles_pure
  | .marked .quote form, st, hst, hs, ht => by
      rw [fill, fill]
      have hform : I.Within d st form := within_of_operand? (m := .quote) rfl ht
      exact (settles_fill hkept hev hst hs hform).bind (keeps_fill hkept hst hs hform.fits)
        fun _ _ _ _ _ => settles_pure
  | .marked .quasiquote form, st, hst, hs, ht => by
      rw [fill, fill]
      have hform : I.Within d st form := within_of_operand? (m := .quasiquote) rfl ht
      exact (settles_fill hkept hev hst hs hform).bind (keeps_fill hkept hst hs hform.fits)
        fun _ _ _ _ _ => settles_pure
  | .marked .unquote operand, st, hst, hs, ht => by
      rw [fill, fill]
      exact hev operand s st hst hs (within_of_operand? (m := .unquote) rfl ht)
  | .marked .spliceUnquote _, st, hst, _, _ => settles_fail
  | .nil, _, _, _, _ | .boolean _, _, _, _, _ | .integer _, _, _, _, _ | .float _, _, _, _, _
  | .string _, _, _, _, _ | .keyword _, _, _, _, _ | .symbol _, _, _, _, _ | .map _, _, _, _, _
  | .builtin _, _, _, _, _ | .closure _ _ _, _, _, _, _ => settles_pure

theorem settles_fillItems (hkept : I.KeptBy ev) (hev : I.SettlesForms d ev ev') : ∀ {items : List Value} {st : Store},
    I.good st → st.Has s → (∀ item ∈ items, I.Within d st item) →
    Settles (fillItems ev s items) (fillItems ev' s items) st
  | [], _, _, _, _ => settles_pure
  | item :: items, st, hst, hs, h => by
      obtain ⟨hitem, hitems⟩ := List.forall_mem_cons.mp h
      have hothers : ∀ after, st.Grows after → I.good after →
          Settles (fillItems ev s items) (fillItems ev' s items) after ∧ I.KeepsItems (fillItems ev s items) after :=
        fun after hafter hgood =>
          have hrest := forall_within_grows hitems hafter
          ⟨settles_fillItems hkept hev hgood (hafter.has hs) hrest,
            keeps_fillItems hkept hgood (hafter.has hs) (forall_fits hrest)⟩
      rw [fillItems, fillItems]
      cases hsplice : item.operand? .spliceUnquote with
      | some operand =>
          have hoperand := within_of_operand? hsplice hitem
          refine hev.bind hkept hst hs hoperand fun v after hafter hgood _ => ?_
          cases v.items? with
          | none => exact settles_fail
          | some elements =>
              obtain ⟨hsettles, hkeeps⟩ := hothers after hafter hgood
              exact hsettles.bind hkeeps fun _ _ _ _ _ => settles_pure
      | none =>
          refine (settles_fill hkept hev hst hs hitem).bind (keeps_fill hkept hst hs hitem.fits)
            fun v after hafter hgood _ => ?_
          obtain ⟨hsettles, hkeeps⟩ := hothers after hafter hgood
          exact hsettles.bind hkeeps fun _ _ _ _ _ => settles_pure

end

/-! ### Forms -/

theorem settles_evalSpecial (hkept : I.KeptBy ev) (hev : I.SettlesForms d ev ev') (hst : I.good st) (hs : st.Has s)
    (special : SpecialForm) {parts : List Value} (h : ∀ part ∈ parts, I.Within d st part) :
    Settles (evalSpecial ev s parts special) (evalSpecial ev' s parts special) st := by
  cases special with
  | define      => exact settles_evalDefine hkept hev hst hs h
  | letIn       => exact settles_evalLet hkept hev hst hs h
  | conditional => exact settles_evalConditional hkept hev hst hs h
  | function    => exact settles_evalFunction s parts
  | sequence =>
      simp only [evalSpecial]
      split
      · exact settles_fail
      · exact settles_evalSequence hkept hev hst hs h
  | quote =>
      rcases parts with _ | ⟨form, _ | ⟨second, rest⟩⟩
      · exact settles_fail
      · exact settles_pure
      · exact settles_fail
  | quasiquote =>
      rcases parts with _ | ⟨form, _ | ⟨second, rest⟩⟩
      · exact settles_fail
      · exact settles_fill hkept hev hst hs (h form (by simp))
      · exact settles_fail

/-- A list with a special head evaluates only its parts; any other one calls what its head gives. -/
theorem settles_evalList (hkept : I.KeptBy ev) (hev : I.SettlesForms d ev ev') (hbodies : I.SettlesBodies ev ev')
    (hst : I.good st) (hs : st.Has s) {head : Value} {parts : List Value}
    (h : ∀ form ∈ head :: parts, I.Within d st form) :
    Settles (evalList ev s head parts) (evalList ev' s head parts) st := by
  obtain ⟨hhead, hparts⟩ := List.forall_mem_cons.mp h
  unfold evalList
  cases specialHead? head with
  | some special => exact settles_evalSpecial hkept hev hst hs special hparts
  | none =>
      refine hev.bind hkept hst hs hhead fun f after hafter hgood hf => ?_
      have hparts := forall_within_grows hparts hafter
      refine (settles_evalItems hkept hev hgood (hafter.has hs) hparts).bind
        (keeps_evalItems hkept hgood (hafter.has hs) (forall_fits hparts)) fun args last hlast hgood hargs => ?_
      exact settles_apply hbodies hgood (I.fits_grows hf hlast) hargs

/-- **One nesting** is enough for one more level of the form. Bodies matter only where there is a list with a head, and
so not at depth one. -/
theorem settlesForms_evalForm (hkept : I.KeptBy ev) (hev : I.SettlesForms d ev ev')
    (hbodies : 0 < d → I.SettlesBodies ev ev') : I.SettlesForms (d + 1) (evalForm ev) (evalForm ev') := by
  intro form s st hst hs hform
  obtain ⟨hfits, hdepth⟩ := hform
  cases form with
  | symbol name => exact settles_lookup s name
  | vector items =>
      have hitems := within_items (d := d) (I.fits_vector.mp hfits) (by rw [depth] at hdepth; omega)
      exact (settles_evalItems hkept hev hst hs hitems).bind (keeps_evalItems hkept hst hs (forall_fits hitems))
        fun _ _ _ _ _ => settles_pure
  | map entries =>
      have hvalues : depthEntries entries ≤ d := by rw [depth] at hdepth; omega
      have hentries : ∀ e ∈ entries, I.Within d st e.2 := fun e he =>
        ⟨I.fits_entry hfits e he, depthEntries_le_iff.mp hvalues e he⟩
      exact (settles_evalEntries hkept hev hst hs hentries).bind
        (keeps_evalEntries hkept hst hs fun e he => (hentries e he).fits) fun _ _ _ _ _ => settles_pure
  | list items =>
      cases items with
      | nil => exact settles_pure
      | cons head parts =>
          have hitems := within_items (d := d) (I.fits_list.mp hfits) (by rw [depth] at hdepth; omega)
          have hhead : 0 < d := Nat.lt_of_lt_of_le (depth_pos head) (hitems head List.mem_cons_self).depth_le
          exact settles_evalList hkept hev (hbodies hhead) hst hs hitems
  | marked m form =>
      cases m with
      | quote => exact settles_pure
      | quasiquote =>
          have hinner : I.Within d st form := ⟨I.fits_marked.mp hfits, by rw [depth] at hdepth; omega⟩
          exact settles_fill hkept hev hst hs hinner
      | unquote       => exact settles_fail
      | spliceUnquote => exact settles_fail
  | _ => exact settles_pure

/-! ## The result -/

/-- **Forms decide on the nesting.** Where `c + 1` nestings are enough for the bodies of all closures that fit, `d + c`
are enough for a form of depth `d`: no higher bound makes a difference. -/
theorem settlesForms_eval {c : Nat} (hbodies : ∀ n m, c + 1 ≤ n → c + 1 ≤ m → I.SettlesBodies (eval n) (eval m))
    (d : Nat) : ∀ n m, d + c ≤ n → d + c ≤ m → I.SettlesForms d (eval n) (eval m) := by
  induction d with
  | zero => exact fun n m _ _ => settlesForms_zero (eval n) (eval m)
  | succ d ih =>
      intro n m hn hm
      obtain ⟨n, rfl⟩ : ∃ k, n = k + 1 := ⟨n - 1, by omega⟩
      obtain ⟨m, rfl⟩ : ∃ k, m = k + 1 := ⟨m - 1, by omega⟩
      have hinner := ih n m (by omega) (by omega)
      exact settlesForms_evalForm (keptBy_eval n) hinner fun hd => hbodies n m (by omega) (by omega)

end Invariant

end SmallLisp
