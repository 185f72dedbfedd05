import SmallLisp.Proofs.Eval.Invariant
import SmallLisp.Proofs.Form.Readable
import SmallLisp.Session

/-!
# `SmallLisp.Proofs.Session.Invariant` — sessions keep every invariant

All forms that a session evaluates come from the reader, apart from those in the bodies of closures. So if an
invariant holds of all that the reader can give and of the builtins, then it holds in the root session and is kept by
every text that is evaluated there.

## Contents
* **Forms** `Invariant.FitsForms`.
* **Sessions and replies** `Session.Good`, `Reply.Good`.
* **Operations** `good_evaluateFirst`, `good_evaluateText`.
* **The root session,** its one scope `exists_root_eq_setAll`, and the invariant there, `good_root`.
-/

namespace SmallLisp

variable {α β : Type} {I : Invariant}

/-! ## Forms -/

/-- Whatever the reader can give fits in every store. -/
def Invariant.FitsForms (I : Invariant) : Prop := ∀ v, FromReader v → ∀ st, I.fits st v

/-! ## Sessions and replies -/

/-- The store of the session is good, and the scope that it works in is there. -/
structure Session.Good (I : Invariant) (s : Session) : Prop where
  store : I.good s.store
  has_scope : s.store.Has s.scope

/-- The session goes on in a good store. A result is `ok` there, and the values that an error speaks of fit. -/
structure Reply.Good (I : Invariant) (ok : Store → α → Prop) (r : Reply α) : Prop where
  session : r.session.Good I
  result_ok : ∀ a, r.result = .ok a → ok r.session.store a
  error_fits : ∀ e, r.result = .error (.eval e) → ∀ v ∈ e.values, I.fits r.session.store v

theorem Reply.Good.map {ok : Store → α → Prop} {okβ : Store → β → Prop} {r : Reply α} (h : r.Good I ok) {f : α → β}
    (hf : ∀ st a, ok st a → okβ st (f a)) : (r.map f).Good I okβ := by
  obtain ⟨result, session, printed⟩ := r
  cases result with
  | ok a =>
      refine ⟨h.session, ?_, nofun⟩
      intro b hb
      cases hb
      exact hf session.store a (h.result_ok a rfl)
  | error e =>
      refine ⟨h.session, nofun, ?_⟩
      intro e' he
      cases he
      exact h.error_fits e' rfl

namespace Session

variable {ok : Store → α → Prop} {s : Session}

/-! ## Operations -/

/-- A text that cannot be read changes nothing. -/
theorem good_refuse (hs : s.Good I) (e : ReadError) : (s.refuse (.read e) : Reply α).Good I ok :=
  ⟨hs, nofun, nofun⟩

theorem good_perform (hs : s.Good I) {x : Action α} (hx : I.Keeps ok x s.store) : (s.perform x).Good I ok := by
  unfold Invariant.Core.Keeps at hx
  unfold perform
  generalize x s.store = run at hx
  obtain ⟨hgrows, hgood, hvalue, herror⟩ := hx
  rcases run with ⟨a | e | _, store, text⟩
  · refine ⟨⟨hgood, hgrows.has hs.has_scope⟩, ?_, nofun⟩
    intro b hb
    cases hb
    exact hvalue a rfl
  · refine ⟨⟨hgood, hgrows.has hs.has_scope⟩, nofun, ?_⟩
    intro e' he
    cases he
    exact herror e rfl
  · exact ⟨⟨hgood, hgrows.has hs.has_scope⟩, nofun, nofun⟩

theorem good_evaluateFirst (hI : I.FitsForms) (hs : s.Good I) (source : String) :
    (s.evaluateFirst source).Good I fun st v? => ∀ v, v? = some v → I.fits st v := by
  unfold evaluateFirst
  cases hread : Form.read source with
  | error e => exact good_refuse hs e
  | ok form? =>
      cases form? with
      | none =>
          refine ⟨hs, fun v? hv => ?_, nofun⟩
          cases hv
          nofun
      | some form =>
          have hform := hI form (FromReader.first hread) s.store
          have hkeeps := Invariant.keptBy_eval s.limit form s.scope s.store hs.store hs.has_scope hform
          exact (good_perform hs hkeeps).map fun st a ha v hv => Option.some.inj hv ▸ ha

/-- It is enough that the forms of this very text fit. -/
theorem good_evaluateText_of_fits (hs : s.Good I) {source : String}
    (h : ∀ forms, Form.readAll source = .ok forms → ∀ form ∈ forms, I.fits s.store form) :
    (s.evaluateText source).Good I I.fits := by
  unfold evaluateText
  cases hread : Form.readAll source with
  | error e => exact good_refuse hs e
  | ok forms =>
      exact good_perform hs
        (Invariant.keeps_evalSequence (Invariant.keptBy_eval s.limit) hs.store hs.has_scope (h forms hread))

theorem good_evaluateText (hI : I.FitsForms) (hs : s.Good I) (source : String) :
    (s.evaluateText source).Good I I.fits :=
  good_evaluateText_of_fits hs fun _ hread form hform => hI form (FromReader.all hread hform) s.store

/-! ## The root -/

theorem readAll_prelude : Form.readAll prelude = .ok [.list [.symbol "def!", .symbol "not",
    .list [.symbol "fn*", .list [.symbol "a"],
      .list [.symbol "if", .symbol "a", .boolean false, .boolean true]]]] := by
  cbv

/-- What the function of the prelude evaluates. -/
def notBody : Value := .list [.symbol "if", .symbol "a", .boolean false, .boolean true]

/-- The function of the prelude. -/
def notFunction : Value := .closure ["a"] notBody ⟨0⟩

/-- The root session has made no scope but the root, which binds builtins and, unless the bound on the nesting forbids
it, the function of the prelude. -/
theorem exists_root_eq_setAll (limit : Nat) :
    ∃ bindings, root limit = ⟨(empty limit).store.setAll ⟨0⟩ bindings, ⟨0⟩, limit⟩ ∧
      ∀ e ∈ bindings, (∃ b, e.2 = .builtin b) ∨ e.2 = notFunction := by
  have hbuiltins : ∀ e ∈ builtinBindings, (∃ b, e.2 = .builtin b) ∨ e.2 = notFunction := by
    intro e he
    obtain ⟨b, -, rfl⟩ := List.mem_map.mp he
    exact Or.inl ⟨b, rfl⟩
  unfold root evaluateText
  rw [readAll_prelude]
  rcases limit with _ | _ | limit
  · exact ⟨builtinBindings, rfl, hbuiltins⟩
  · exact ⟨builtinBindings, rfl, hbuiltins⟩
  · refine ⟨builtinBindings ++ [("not", notFunction)], ?_, ?_⟩
    · rw [Store.setAll, List.foldl_append]
      rfl
    · exact List.forall_mem_append.mpr ⟨hbuiltins, List.forall_mem_singleton.mpr (Or.inr rfl)⟩

/-- **The root session is good** if one empty scope is, and if builtins fit. -/
theorem good_root (hI : I.FitsForms) (hempty : I.good (Store.empty.newScope none))
    (hbuiltin : ∀ b st, I.fits st (.builtin b)) (limit : Nat) : (root limit).Good I := by
  have hscope : (empty limit).store.Has (empty limit).scope := Store.has_newScope.mpr (Or.inr rfl)
  have hbindings : ∀ e ∈ builtinBindings, I.fits (empty limit).store e.2 := by
    intro e he
    obtain ⟨b, -, rfl⟩ := List.mem_map.mp he
    exact hbuiltin b _
  have hbuiltins : (builtins limit).Good I :=
    ⟨Invariant.good_setAll hempty _ hbindings, (Store.grows_setAll _ _ builtinBindings).has hscope⟩
  exact (good_evaluateText hI hbuiltins prelude).session

/-- Not every form need fit, if the function of the prelude does. -/
theorem good_root_of_fits_not (hempty : I.good (Store.empty.newScope none)) (hbuiltin : ∀ b st, I.fits st (.builtin b))
    (hnot : ∀ st, I.fits st notFunction) (limit : Nat) : (root limit).Good I := by
  obtain ⟨bindings, hroot, hbindings⟩ := exists_root_eq_setAll limit
  have hscope : (empty limit).store.Has ⟨0⟩ := Store.has_newScope.mpr (Or.inr rfl)
  have hfits : ∀ e ∈ bindings, I.fits (empty limit).store e.2 := by
    intro e he
    rcases hbindings e he with ⟨b, hb⟩ | hclosure
    · rw [hb]
      exact hbuiltin b _
    · rw [hclosure]
      exact hnot _
  rw [hroot]
  exact ⟨Invariant.good_setAll hempty ⟨0⟩ hfits, (Store.grows_setAll _ _ bindings).has hscope⟩

end Session

end SmallLisp
