import SmallLisp.Proofs.Form.Readable

/-!
# `SmallLisp.Proofs.Form.Resume` — reading on after errors

A reader may be asked for a form again and again, also after an error. Whatever it answers, it has taken at least the
token that it looked at first, and never one that it has not looked at. So every call that does not find the tokens at
their end takes some of them, and calls until then cut the tokens into parts.

## Contents
* **One call** takes some tokens and leaves the rest (`Form.exists_next_eq`), unless there are none
  (`Form.next_eq_none_iff`).
* **Calls until the end** `Form.Calls`, which there are for all tokens (`Form.exists_calls`). They cut the tokens into
  parts (`Calls.flatten_taken`), and every part of a form is the lexemes of this form (`Calls.isForm`).
* **The result** `calls_cut_tokens`.
-/

namespace SmallLisp

namespace Form

/-! ## One call -/

/-- The token at hand is taken, whatever becomes of it. -/
theorem finish_cons_suffix (r : Reading) (t : Token) (ts : List Token) : (finish r (t :: ts)).2 <:+ ts := by
  cases hfeed : r.feed t with
  | error e =>
      rw [finish, hfeed]
  | ok p =>
      rw [finish_cons hfeed]
      cases p with
      | finished v      => exact List.suffix_refl ts
      | unfinished next => exact finish_suffix next ts

theorem next_nil : next [] = (.ok none, []) := rfl

theorem next_of_ne_nil {ts : List Token} (h : ts ≠ []) :
    next ts = ((finish .start ts).1.map some, (finish .start ts).2) := by
  rw [next, if_neg (by simpa using h)]

/-- **A call takes some tokens**, those that are first, and leaves the others. -/
theorem exists_next_eq {ts : List Token} (h : ts ≠ []) :
    ∃ (result : Except ReadError Value) (taken rest : List Token),
      ts = taken ++ rest ∧ taken ≠ [] ∧ next ts = (result.map some, rest) := by
  obtain ⟨t, ts, rfl⟩ := List.exists_cons_of_ne_nil h
  obtain ⟨taken, htaken⟩ := finish_cons_suffix .start t ts
  exact ⟨_, t :: taken, _, congrArg (t :: ·) htaken.symm, List.cons_ne_nil t taken, next_of_ne_nil h⟩

/-- A call finds nothing just if no token is left. -/
theorem next_eq_none_iff (ts : List Token) : (next ts).1 = .ok none ↔ ts = [] := by
  constructor
  · intro hnone
    by_contra hne
    obtain ⟨result, taken, rest, -, -, hnext⟩ := exists_next_eq hne
    rw [hnext] at hnone
    cases result <;> cases hnone
  · rintro rfl
    rfl

/-- A call that gives a form takes the lexemes of this form and no others. -/
theorem isForm_of_next {taken rest : List Token} {v : Value} (htaken : taken ≠ [])
    (hcut : ∀ t ∈ taken ++ rest, t.lexeme.WellCut) (h : next (taken ++ rest) = (.ok (some v), rest)) :
    IsForm (taken.map Token.lexeme) v := by
  rw [next_of_ne_nil (List.append_ne_nil_of_left_ne_nil htaken rest)] at h
  obtain ⟨hresult, hrest⟩ := Prod.mk.inj h
  have hfinish : finish .start (taken ++ rest) = (.ok v, rest) := by
    refine Prod.ext ?_ hrest
    generalize (finish .start (taken ++ rest)).1 = result at hresult
    cases result with
    | error e => cases hresult
    | ok w =>
        cases hresult
        rfl
  obtain ⟨used, hused, hrun⟩ := finish_eq_ok_iff.mp hfinish
  obtain rfl := List.append_cancel_right hused
  exact isForm_of_run (fun t ht => hcut t (List.mem_append_left rest ht)) hrun

/-! ## Calls until the end -/

/-- A call that does not find the tokens at their end: what it gives, and the tokens that it takes. -/
structure Call where
  result : Except ReadError Value
  taken : List Token

/-- The result of a call as the reader gives it. -/
def Call.answer (c : Call) : Except ReadError (Option Value) := c.result.map some

/-- Calls one after the other, each on the tokens that the one before has left, until none are left. -/
inductive Calls : List Token → List Call → Prop where
  | done : Calls [] []
  | call {c : Call} {rest : List Token} {calls : List Call} :
      next (c.taken ++ rest) = (c.answer, rest) → c.taken ≠ [] → Calls rest calls →
      Calls (c.taken ++ rest) (c :: calls)

theorem exists_calls (ts : List Token) : ∃ calls, Calls ts calls := by
  induction hn : ts.length using Nat.strongRecOn generalizing ts with
  | ind n ih =>
      by_cases hempty : ts = []
      · subst hempty
        exact ⟨[], Calls.done⟩
      · obtain ⟨result, taken, rest, rfl, htaken, hnext⟩ := exists_next_eq hempty
        have hshorter : rest.length < n := by
          have hpos := List.length_pos_iff.mpr htaken
          rw [List.length_append] at hn
          omega
        obtain ⟨calls, hcalls⟩ := ih rest.length hshorter rest rfl
        exact ⟨⟨result, taken⟩ :: calls, Calls.call (c := ⟨result, taken⟩) hnext htaken hcalls⟩

namespace Calls

variable {ts : List Token} {calls : List Call}

theorem flatten_taken (h : Calls ts calls) : (calls.map Call.taken).flatten = ts := by
  induction h with
  | done => rfl
  | call _ _ _ ih => rw [List.map_cons, List.flatten_cons, ih]

theorem length_le (h : Calls ts calls) : calls.length ≤ ts.length := by
  induction h with
  | done => exact Nat.le_refl 0
  | call _ htaken _ ih =>
      have hpos := List.length_pos_iff.mpr htaken
      rw [List.length_cons, List.length_append]
      omega

theorem taken_ne_nil (h : Calls ts calls) : ∀ c ∈ calls, c.taken ≠ [] := by
  induction h with
  | done => exact List.forall_mem_nil _
  | call _ htaken _ ih => exact List.forall_mem_cons.mpr ⟨htaken, ih⟩

theorem isForm (h : Calls ts calls) (hcut : ∀ t ∈ ts, t.lexeme.WellCut) :
    ∀ c ∈ calls, ∀ v, c.result = Except.ok v → IsForm (c.taken.map Token.lexeme) v := by
  induction h with
  | done => exact List.forall_mem_nil _
  | @call c rest calls hnext htaken _ ih =>
      refine List.forall_mem_cons.mpr ⟨?_, ih fun t ht => hcut t (List.mem_append_right c.taken ht)⟩
      intro v hv
      exact isForm_of_next htaken hcut (by rw [hnext, Call.answer, hv]; rfl)

/-- What a number of calls give: the results up to the end, and then that there is nothing. -/
theorem several_eq (h : Calls ts calls) (limit : Nat) :
    several limit ts = (calls.map Call.answer ++ [Except.ok none]).take limit := by
  induction h generalizing limit with
  | done =>
      cases limit with
      | zero       => rfl
      | succ limit => simp [several, next_nil]
  | @call c rest calls hnext htaken _ ih =>
      cases limit with
      | zero => rfl
      | succ limit =>
          obtain ⟨result, taken⟩ := c
          rw [several, hnext]
          cases result with
          | error e => exact congrArg (List.cons _) (ih limit)
          | ok v    => exact congrArg (List.cons _) (ih limit)

end Calls

end Form

/-! ## The result -/

/-- **Reading gets on, and may be resumed after errors.** A reader of a text that is asked for forms, also after errors,
comes to the end after a number of calls. Each of them gives a form or an error and takes one or more of the tokens
that come next, so they are no more than there are tokens, and the parts that they take are all the tokens, in order.
A call that gives a form takes its lexemes. The call after them finds nothing, and no call does as long as there is a
token. -/
theorem calls_cut_tokens (source : String) :
    ∃ calls : List Form.Call, Form.Calls (Token.scan source) calls ∧ calls.length ≤ (Token.scan source).length ∧
      (calls.map Form.Call.taken).flatten = Token.scan source ∧ (∀ c ∈ calls, c.taken ≠ []) ∧
      (∀ c ∈ calls, ∀ v, c.result = Except.ok v → IsForm (c.taken.map Token.lexeme) v) ∧
      (∀ limit, Form.several limit (Token.scan source) =
        (calls.map Form.Call.answer ++ [Except.ok none]).take limit) ∧
      ∀ ts, (Form.next ts).1 = .ok none ↔ ts = [] := by
  obtain ⟨calls, hcalls⟩ := Form.exists_calls (Token.scan source)
  have hcut : ∀ t ∈ Token.scan source, t.lexeme.WellCut := Token.wellCut_scanFrom 0 source.toList
  exact ⟨calls, hcalls, hcalls.length_le, hcalls.flatten_taken, hcalls.taken_ne_nil, hcalls.isForm hcut,
    hcalls.several_eq, Form.next_eq_none_iff⟩

end SmallLisp
