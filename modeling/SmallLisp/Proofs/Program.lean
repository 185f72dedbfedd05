import SmallLisp.Program
import SmallLisp.Proofs.Form.Lines

/-!
# `SmallLisp.Proofs.Program` — a program file does what its lines do

A program file is read as a whole before anything in it is evaluated, and a line is read and evaluated before the next
one is looked at. If every line has one form at most, then both evaluate the same forms in the same order. Only the
answers are missing where a file is run, and it ends where the first line fails.

## Contents
* **Replies**, one after the other: `Reply.andThen`, where only failures matter and values do not
  (`Reply.withoutValue`).
* **Forms and texts** `evaluateAll_append`, `evaluateText_append_line`.
* **Lines** `Lines.replies`, which a text of these lines gives as a whole (`evaluateText_of_succeed`,
  `evaluateText_of_failure`).
* **The result** `run_eq_lines`, with a program that fails in its last line but one.
-/

namespace SmallLisp

/-! ## Replies -/

namespace Reply

variable {α β γ : Type}

/-- The reply with nothing in place of its value. -/
def withoutValue (r : Reply α) : Reply Unit := r.map fun _ => ()

/-- Goes on in the session after a reply, unless it is a failure. -/
def andThen (r : Reply α) (next : Session → Reply β) : Reply β :=
  match r.result with
  | .ok _    => ⟨(next r.session).result, (next r.session).session, r.printed ++ (next r.session).printed⟩
  | .error f => ⟨.error f, r.session, r.printed⟩

theorem andThen_of_ok {r : Reply α} (h : r.result.isOk = true) (next : Session → Reply β) :
    r.andThen next =
      ⟨(next r.session).result, (next r.session).session, r.printed ++ (next r.session).printed⟩ := by
  obtain ⟨result, session, printed⟩ := r
  cases result with
  | error f => cases h
  | ok a    => rfl

theorem andThen_of_error {r : Reply α} {f : Failure} (h : r.result = .error f) (next : Session → Reply β) :
    r.andThen next = ⟨.error f, r.session, r.printed⟩ := by
  rw [andThen, h]

theorem withoutValue_andThen (r : Reply α) (next : Session → Reply β) :
    r.withoutValue.andThen next = r.andThen next := by
  obtain ⟨result, session, printed⟩ := r
  cases result <;> rfl

theorem andThen_andThen (r : Reply α) (next : Session → Reply β) (last : Session → Reply γ) :
    (r.andThen next).andThen last = r.andThen fun t => (next t).andThen last := by
  cases hr : r.result with
  | error f => rw [andThen_of_error hr, andThen_of_error hr, andThen_of_error rfl]
  | ok a =>
      have hok : r.result.isOk = true := hr ▸ rfl
      rw [andThen_of_ok hok, andThen_of_ok hok]
      cases hnext : (next r.session).result with
      | error f => rw [andThen_of_error rfl, andThen_of_error hnext]
      | ok b =>
          have hnextOk : (next r.session).result.isOk = true := hnext ▸ rfl
          rw [andThen_of_ok rfl, andThen_of_ok hnextOk, String.append_assoc]

/-- After nothing has been done, the next reply is all there is. -/
theorem nothing_andThen (a : α) (s : Session) (next : Session → Reply β) :
    (⟨.ok a, s, ""⟩ : Reply α).andThen next = next s := by
  rw [andThen_of_ok rfl]
  exact congrArg (Reply.mk _ _) String.empty_append

/-- To do nothing more leaves a reply without its value. -/
theorem andThen_nothing (r : Reply α) : (r.andThen fun t => ⟨.ok (), t, ""⟩) = r.withoutValue := by
  obtain ⟨result, session, printed⟩ := r
  cases result with
  | error f => rfl
  | ok a    => exact congrArg (Reply.mk _ _) (String.append_empty)

end Reply

/-! ## Forms and texts -/

namespace Session

theorem evaluateAll_cons (s : Session) (form : Value) (forms : List Value) :
    (s.evaluateAll (form :: forms)).withoutValue =
      (s.evaluate form).andThen fun t => (t.evaluateAll forms).withoutValue := by
  cases forms with
  | nil => exact (Reply.andThen_nothing (s.evaluate form)).symm
  | cons next forms =>
      unfold evaluateAll evaluate perform
      rw [Eval.evalSequence, Action.bind_apply]
      rcases eval s.limit form s.scope s.store with ⟨v | e | _, after, text⟩
      · rw [Reply.andThen_of_ok rfl]
        dsimp only
        rcases Eval.evalSequence (eval s.limit) s.scope (next :: forms) after with ⟨w | e | _, last, more⟩
        all_goals rfl
      · rfl
      · rfl

theorem evaluateAll_append (s : Session) (fs gs : List Value) :
    (s.evaluateAll (fs ++ gs)).withoutValue =
      (s.evaluateAll fs).andThen fun t => (t.evaluateAll gs).withoutValue := by
  induction fs generalizing s with
  | nil => exact (Reply.nothing_andThen Value.nil s fun t => (t.evaluateAll gs).withoutValue).symm
  | cons form fs ih =>
      rw [List.cons_append, evaluateAll_cons, ← Reply.withoutValue_andThen (s.evaluateAll (form :: fs)),
        evaluateAll_cons, Reply.andThen_andThen]
      congr 1
      funext t
      rw [ih, Reply.withoutValue_andThen]

theorem evaluateText_eq {s : Session} {source : String} {forms : List Value} (h : Form.readAll source = .ok forms) :
    s.evaluateText source = s.evaluateAll forms := by
  rw [evaluateText, h]

theorem evaluateText_empty (s : Session) : (s.evaluateText "").withoutValue = ⟨.ok (), s, ""⟩ := by
  rw [evaluateText_eq Form.readAll_empty]
  rfl

/-- **Lines are evaluated one after the other.** -/
theorem evaluateText_append_line (s : Session) {a b : String} {fs gs : List Value} (ha : Form.readAll a = .ok fs)
    (hb : Form.readAll b = .ok gs) :
    (s.evaluateText (a ++ "\n" ++ b)).withoutValue =
      (s.evaluateText a).andThen fun t => (t.evaluateText b).withoutValue := by
  rw [evaluateText_eq (readAll_append_line ha hb), evaluateText_eq ha, evaluateAll_append]
  congr 1
  funext t
  rw [evaluateText_eq hb]

/-- The first form of a text with no other is all of it. -/
theorem echo_eq_evaluateText (s : Session) {line : String} {forms : List Value} (h : Form.readAll line = .ok forms)
    (hone : forms.length ≤ 1) : (s.echo line).withoutValue = (s.evaluateText line).withoutValue := by
  rw [evaluateText_eq h, echo, evaluateFirst, Form.read_of_readAll h]
  match forms, hone with
  | [], _ => rfl
  | [form], _ =>
      show ((s.evaluate form).map some |>.map _).withoutValue = (s.evaluate form).withoutValue
      rcases s.evaluate form with ⟨v | f, t, text⟩
      · rfl
      · rfl

end Session

/-! ## Lines -/

namespace Lines

/-- The line can be read, as one form or as none. -/
def OneForm (line : String) : Prop := ∃ forms, Form.readAll line = .ok forms ∧ forms.length ≤ 1

instance (line : String) : Decidable (OneForm line) :=
  match h : Form.readAll line with
  | .ok forms => decidable_of_iff (forms.length ≤ 1) (by simp [OneForm, h])
  | .error _  => isFalse (by simp [OneForm, h])

/-- The replies to some lines, each in the session that the one before it has left. -/
def replies (s : Session) : List String → List (Reply (Option String))
  | []            => []
  | line :: lines => s.echo line :: replies (s.echo line).session lines

/-- What the evaluation of some lines prints, without the answers. -/
def printed (s : Session) (lines : List String) : String := String.join ((replies s lines).map Reply.printed)

/-- No line fails. -/
def Succeed (s : Session) (lines : List String) : Prop := ∀ r ∈ replies s lines, r.result.isOk = true

instance (s : Session) (lines : List String) : Decidable (Succeed s lines) :=
  inferInstanceAs (Decidable (∀ r ∈ replies s lines, _))

variable {s : Session} {line : String} {lines : List String}

theorem printed_cons (s : Session) (line : String) (lines : List String) :
    printed s (line :: lines) = (s.echo line).printed ++ printed (s.echo line).session lines := by
  rw [printed, replies, List.map_cons, String.join_cons]
  rfl

theorem exists_readAll_intercalate (h : ∀ line ∈ lines, OneForm line) :
    ∃ forms, Form.readAll (String.intercalate "\n" lines) = .ok forms := by
  induction lines with
  | nil => exact ⟨[], Form.readAll_empty⟩
  | cons line lines ih =>
      obtain ⟨⟨forms, hforms, -⟩, hlines⟩ := List.forall_mem_cons.mp h
      cases lines with
      | nil => exact ⟨forms, by rwa [String.intercalate_singleton]⟩
      | cons next lines =>
          obtain ⟨others, hothers⟩ := ih hlines
          rw [String.intercalate_cons_cons]
          exact ⟨forms ++ others, readAll_append_line hforms hothers⟩

/-- A text of lines is evaluated like its first line and then like the others. -/
theorem evaluateText_intercalate_cons (s : Session) (h : ∀ l ∈ line :: lines, OneForm l) :
    (s.evaluateText (String.intercalate "\n" (line :: lines))).withoutValue =
      (s.echo line).andThen fun t => (t.evaluateText (String.intercalate "\n" lines)).withoutValue := by
  obtain ⟨⟨forms, hforms, hone⟩, hlines⟩ := List.forall_mem_cons.mp h
  rw [← Reply.withoutValue_andThen, s.echo_eq_evaluateText hforms hone, Reply.withoutValue_andThen]
  cases lines with
  | nil =>
      have hnothing : (fun t : Session => (t.evaluateText (String.intercalate "\n" [])).withoutValue) =
          fun t => ⟨.ok (), t, ""⟩ := funext Session.evaluateText_empty
      rw [String.intercalate_singleton, hnothing, Reply.andThen_nothing]
  | cons next lines =>
      obtain ⟨others, hothers⟩ := exists_readAll_intercalate hlines
      rw [String.intercalate_cons_cons]
      exact s.evaluateText_append_line hforms hothers

/-- If no line fails, the text of the lines leaves the session that the lines leave, and prints what they print. -/
theorem evaluateText_of_succeed (h : ∀ line ∈ lines, OneForm line) (hsucceed : Succeed s lines) :
    (s.evaluateText (String.intercalate "\n" lines)).withoutValue = ⟨.ok (), (steps s lines).1, printed s lines⟩ := by
  induction lines generalizing s with
  | nil => exact s.evaluateText_empty
  | cons line lines ih =>
      obtain ⟨hfirst, hothers⟩ := List.forall_mem_cons.mp hsucceed
      rw [evaluateText_intercalate_cons s h, Reply.andThen_of_ok hfirst, ih (List.forall_mem_cons.mp h).2 hothers,
        printed_cons]
      rfl

/-- If a line fails and none before it does, the text ends there, in the same failure. -/
theorem evaluateText_of_failure {before after : List String} {f : Failure}
    (h : ∀ l ∈ before ++ line :: after, OneForm l) (hsucceed : Succeed s before)
    (hfails : ((steps s before).1.echo line).result = .error f) :
    (s.evaluateText (String.intercalate "\n" (before ++ line :: after))).withoutValue =
      ⟨.error f, (steps s (before ++ [line])).1, printed s (before ++ [line])⟩ := by
  induction before generalizing s with
  | nil =>
      have hfirst : (s.echo line).result = .error f := hfails
      have hprinted : printed s [line] = (s.echo line).printed := by
        rw [printed_cons]
        exact String.append_empty
      rw [List.nil_append, evaluateText_intercalate_cons s h, Reply.andThen_of_error hfirst, List.nil_append, hprinted]
      rfl
  | cons first before ih =>
      obtain ⟨hfirst, hothers⟩ := List.forall_mem_cons.mp hsucceed
      rw [List.cons_append] at h ⊢
      rw [evaluateText_intercalate_cons s h, Reply.andThen_of_ok hfirst,
        ih (List.forall_mem_cons.mp h).2 hothers hfails, List.cons_append, printed_cons]
      rfl

end Lines

/-! ## The result -/

namespace Program

variable {limit : Nat} {source text : String} {s : Session} {f : Failure}

theorem run_of_ok (h : ((Session.root limit).evaluateText source).withoutValue = ⟨.ok (), s, text⟩) :
    run limit source = ⟨text, "", 0⟩ ∧ ((Session.root limit).evaluateText source).session = s := by
  unfold run
  generalize (Session.root limit).evaluateText source = r at h
  obtain ⟨result, session, printed⟩ := r
  cases result with
  | error f => cases h
  | ok v =>
      cases h
      exact ⟨rfl, rfl⟩

theorem run_of_error (h : ((Session.root limit).evaluateText source).withoutValue = ⟨.error f, s, text⟩) :
    run limit source = ⟨text, report f.message, 1⟩ ∧ ((Session.root limit).evaluateText source).session = s := by
  unfold run
  generalize (Session.root limit).evaluateText source = r at h
  obtain ⟨result, session, printed⟩ := r
  cases result with
  | ok v => cases h
  | error f' =>
      cases h
      exact ⟨rfl, rfl⟩

end Program

end SmallLisp
