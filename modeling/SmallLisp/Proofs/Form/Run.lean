import SmallLisp.Form.Read

/-!
# `SmallLisp.Proofs.Form.Run` — runs of the reader

The reader takes tokens one by one, whether it is asked for one form or for all of them. A *run* is what it does
with some tokens that it takes without finding an error. What follows the tokens has no part in it.

## Contents
* **Runs** `Progress.Run`, which join (`Run.append`).
* **From runs to results.** Reading one form, or all, may be cut after a run (`Run.finish_append`,
  `Run.finishAll_append`).
* **From results to runs.** `Form.finish_eq_ok_iff`, `Form.finish_eq_error`.
-/

namespace SmallLisp

/-! ## Runs -/

/-- Reading gets from one state to another by taking some tokens. -/
inductive Progress.Run : Progress → List Token → Progress → Prop where
  | nil {p : Progress} : Run p [] p
  | cons {r : Reading} {t : Token} {p q : Progress} {ts : List Token} :
      r.feed t = .ok p → Run p ts q → Run (.unfinished r) (t :: ts) q

/-- Reads on to the end of the form at hand, which may be finished already. -/
def Progress.finish : Progress → List Token → Except ReadError Value × List Token
  | finished v, ts   => (.ok v, ts)
  | unfinished r, ts => Form.finish r ts

/-- Reads on to the end of the tokens. -/
def Progress.finishAll : Progress → List Token → Except ReadError (List Value)
  | finished v, ts   => (Form.finishAll .start ts).map (v :: ·)
  | unfinished r, ts => Form.finishAll r ts

theorem Form.finish_cons {r : Reading} {t : Token} {p : Progress} (h : r.feed t = .ok p) (ts : List Token) :
    finish r (t :: ts) = p.finish ts := by
  rw [finish, h]
  cases p <;> rfl

theorem Form.finishAll_cons {r : Reading} {t : Token} {p : Progress} (h : r.feed t = .ok p) (ts : List Token) :
    finishAll r (t :: ts) = p.finishAll ts := by
  rw [finishAll, h]
  cases p <;> rfl

namespace Progress.Run

/-- One token. -/
theorem one {r : Reading} {t : Token} {p : Progress} (h : r.feed t = .ok p) : Run (.unfinished r) [t] p :=
  Run.cons h Run.nil

theorem append {p q s : Progress} {ts ts' : List Token} (h : Run p ts q) (h' : Run q ts' s) :
    Run p (ts ++ ts') s := by
  induction h with
  | nil => exact h'
  | cons hfeed _ ih => exact Run.cons hfeed (ih h')

/-! ## From runs to results -/

theorem finish_append {p q : Progress} {used : List Token} (h : Run p used q) (rest : List Token) :
    p.finish (used ++ rest) = q.finish rest := by
  induction h with
  | nil => rfl
  | cons hfeed _ ih => exact (Form.finish_cons hfeed _).trans ih

theorem finishAll_append {p q : Progress} {used : List Token} (h : Run p used q) (rest : List Token) :
    p.finishAll (used ++ rest) = q.finishAll rest := by
  induction h with
  | nil => rfl
  | cons hfeed _ ih => exact (Form.finishAll_cons hfeed _).trans ih

end Progress.Run

/-! ## From results to runs -/

namespace Form

/-- A form that has been read is the end of a run over the tokens that have been used. -/
theorem finish_eq_ok_iff {r : Reading} {ts rest : List Token} {v : Value} :
    finish r ts = (.ok v, rest) ↔
      ∃ used, ts = used ++ rest ∧ Progress.Run (.unfinished r) used (.finished v) := by
  constructor
  · intro h
    induction ts generalizing r with
    | nil =>
        rw [finish] at h
        cases h
    | cons t ts ih =>
        cases hfeed : r.feed t with
        | error e =>
            rw [finish, hfeed] at h
            cases h
        | ok p =>
            rw [finish_cons hfeed] at h
            cases p with
            | finished w =>
                cases h
                exact ⟨[t], rfl, Progress.Run.one hfeed⟩
            | unfinished next =>
                obtain ⟨used, rfl, hrun⟩ := ih h
                exact ⟨t :: used, rfl, Progress.Run.cons hfeed hrun⟩
  · rintro ⟨used, rfl, hrun⟩
    exact hrun.finish_append rest

/-- An error is found at a token after a run, or after a run over all tokens. -/
theorem finish_eq_error {r : Reading} {ts rest : List Token} {e : ReadError} (h : finish r ts = (.error e, rest)) :
    (∃ r', Progress.Run (.unfinished r) ts (.unfinished r') ∧ e = .prematureEnd r'.expected) ∨
    (∃ used t r', ts = used ++ t :: rest ∧ Progress.Run (.unfinished r) used (.unfinished r') ∧
      r'.feed t = .error e) := by
  induction ts generalizing r with
  | nil =>
      rw [finish] at h
      cases h
      exact Or.inl ⟨r, Progress.Run.nil, rfl⟩
  | cons t ts ih =>
      cases hfeed : r.feed t with
      | error e' =>
          rw [finish, hfeed] at h
          cases h
          exact Or.inr ⟨[], t, r, rfl, Progress.Run.nil, hfeed⟩
      | ok p =>
          rw [finish_cons hfeed] at h
          cases p with
          | finished w => cases h
          | unfinished next =>
              rcases ih h with ⟨r', hrun, he⟩ | ⟨used, t', r', rfl, hrun, he⟩
              · exact Or.inl ⟨r', Progress.Run.cons hfeed hrun, he⟩
              · exact Or.inr ⟨t :: used, t', r', rfl, Progress.Run.cons hfeed hrun, he⟩

end Form

end SmallLisp
