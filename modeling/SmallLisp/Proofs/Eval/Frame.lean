import SmallLisp.Eval
import SmallLisp.Proofs.Frame

/-!
# `SmallLisp.Proofs.Eval.Frame` — what an evaluation may change in the store

Scopes are shared: closures, calls and inner scopes all lead to them. Still an evaluation binds names in one
scope only, the one that it works in, and only names that the form itself defines there. Calls and `let*` lists
work in scopes of their own, so they change no scope that was there before.

The names that a form defines are found by reading it (`Value.definitions`), without evaluating anything. A
`let*` or `fn*` list hides the definitions in it, unless it stands in a template: there it is data, and the
operands of the marks in it are evaluated in the scope of the template.

## Contents
* **Positions** `Position` of the parts of a form, as code or in a template.
* **Definitions** `Value.definitions`.
* **Rules.** Every rule keeps the frame if the evaluations inside it do (`Eval.frames_evalForm`).
-/

namespace SmallLisp

/-! ## Positions -/

/-- Where a part of a form stands. -/
inductive Position where
  /-- Anywhere: no difference is made between code and templates. -/
  | anywhere
  /-- In a place where it is evaluated, if at all. -/
  | code
  /-- In a template, but not as an element of a list or a vector. -/
  | template
  /-- In a template, as an element of a list or a vector, where it may be a splice. -/
  | element
  deriving DecidableEq, Repr

namespace Position

/-- Whether a list hides the definitions in it. -/
def hides : Position → List Value → Bool
  | anywhere, .symbol name :: _ => name = SpecialForm.letIn.name ∨ name = SpecialForm.function.name
  | code, .symbol name :: _     => name = SpecialForm.letIn.name ∨ name = SpecialForm.function.name
  | _, _                        => false

/-- The position of the elements of a list, which may be a mark in its long spelling. -/
def inList (p : Position) (items : List Value) : Position :=
  let marks (m : Mark) : Bool := ((Value.list items).operand? m).isSome
  match p with
  | anywhere => anywhere
  | code     => if marks .quasiquote then template else code
  | template => if marks .unquote then code else element
  | element  => if marks .unquote ∨ marks .spliceUnquote then code else element

/-- The position of the elements of a vector. -/
def inVector : Position → Position
  | anywhere => anywhere
  | code     => code
  | _        => element

/-- The position of the values of a map. A template is not filled inside a map. -/
def inMap : Position → Position
  | element => template
  | p       => p

/-- The position of a form under a mark. -/
def under : Position → Mark → Position
  | anywhere, _      => anywhere
  | code, .quasiquote => template
  | code, _           => code
  | _, .unquote       => code
  | _, .spliceUnquote => code
  | _, _              => template

end Position

/-! ## Definitions -/

namespace Value

/-- The name that a list defines, if it is a definition. -/
def definedName? : List Value → Option String
  | [.symbol head, .symbol name, _] => if head = SpecialForm.define.name then some name else none
  | _                               => none

mutual

/-- The names of the definitions in a form outside the lists that hide theirs. -/
def definitions : Position → Value → List String
  | p, list items    =>
    if p.hides items then [] else (definedName? items).toList ++ definitionsItems (p.inList items) items
  | p, vector items  => definitionsItems p.inVector items
  | p, map entries   => definitionsEntries p.inMap entries
  | p, marked m form => definitions (p.under m) form
  | _, _             => []

/-- The names of the definitions in some forms. -/
def definitionsItems : Position → List Value → List String
  | _, []            => []
  | p, item :: items => definitions p item ++ definitionsItems p items

/-- The names of the definitions in the values of some entries. -/
def definitionsEntries : Position → List (String × Value) → List String
  | _, []                    => []
  | p, (_, value) :: entries => definitions p value ++ definitionsEntries p entries

end

theorem definitions_subset_items {p : Position} {item : Value} {items : List Value} (h : item ∈ items) :
    definitions p item ⊆ definitionsItems p items := by
  induction items with
  | nil => cases h
  | cons first items ih =>
      rw [definitionsItems]
      rcases List.mem_cons.mp h with rfl | h
      · exact List.subset_append_left _ _
      · exact List.Subset.trans (ih h) (List.subset_append_right _ _)

theorem items_subset_definitions {p : Position} {items : List Value} (h : p.hides items = false) :
    definitionsItems (p.inList items) items ⊆ definitions p (list items) := by
  rw [definitions, if_neg (by simp [h])]
  exact List.subset_append_right _ _

/-- The operand of a mark is read in the position that the mark gives it, in either spelling. -/
theorem operand_subset_definitions {p : Position} {m : Mark} {v operand : Value} (h : v.operand? m = some operand)
    (hhides : p.hides [.symbol m.name, operand] = false)
    (hin : p.inList [.symbol m.name, operand] = p.under m) :
    definitions (p.under m) operand ⊆ definitions p v := by
  rcases operand?_eq_some_iff.mp h with rfl | rfl
  · exact List.Subset.refl _
  · rw [← hin]
    exact List.Subset.trans (definitions_subset_items (by simp)) (items_subset_definitions hhides)

/-- A list whose head neither hides definitions nor makes a template defines what its parts do. -/
theorem parts_subset_definitions {head : Value} {parts : List Value}
    (hlet : head ≠ .symbol SpecialForm.letIn.name) (hfunction : head ≠ .symbol SpecialForm.function.name)
    (hquasi : head ≠ .symbol SpecialForm.quasiquote.name) :
    definitionsItems .code (head :: parts) ⊆ definitions .code (list (head :: parts)) := by
  have hhides : Position.hides .code (head :: parts) = false := by
    unfold Position.hides
    split <;> simp_all
  have hin : Position.inList .code (head :: parts) = .code := by
    simp [Position.inList, operand?_list_eq_none (m := .quasiquote) hquasi]
  have hitems := items_subset_definitions hhides
  rwa [hin] at hitems

/-- An element that is not a splice is read like any other part of a template. -/
theorem definitions_element {item : Value} (h : item.operand? .spliceUnquote = none) :
    definitions .element item = definitions .template item := by
  cases item with
  | list items    => simp [definitions, Position.hides, Position.inList, h]
  | marked m form => cases m <;> simp [definitions, Position.under]
  | _             => simp [definitions, Position.inVector, Position.inMap]

end Value

/-! ## Rules -/

/-- The evaluator binds nothing but what a form defines, in the scope that it works in. -/
def Evaluator.Frames (ev : Evaluator) : Prop := ∀ form s, Action.Frames s (form.definitions .code) (ev form s)

namespace Eval

open SmallLisp.Action Value

variable {ev : Evaluator} {s : ScopeId} {names : List String}

theorem frames_evalItems (hev : ev.Frames) {forms : List Value} (h : definitionsItems .code forms ⊆ names) :
    Frames s names (evalItems ev s forms) := by
  induction forms with
  | nil => exact frames_pure []
  | cons form forms ih =>
      obtain ⟨hform, hforms⟩ := List.append_subset.mp h
      refine ((hev form s).mono hform).bind fun v => ?_
      exact (ih hforms).bind fun vs => frames_pure (v :: vs)

theorem frames_evalEntries (hev : ev.Frames) {entries : List (String × Value)}
    (h : definitionsEntries .code entries ⊆ names) : Frames s names (evalEntries ev s entries) := by
  induction entries with
  | nil => exact frames_pure []
  | cons e entries ih =>
      obtain ⟨key, form⟩ := e
      obtain ⟨hform, hentries⟩ := List.append_subset.mp h
      refine ((hev form s).mono hform).bind fun v => ?_
      exact (ih hentries).bind fun vs => frames_pure ((key, v) :: vs)

theorem frames_evalSequence (hev : ev.Frames) {forms : List Value} (h : definitionsItems .code forms ⊆ names) :
    Frames s names (evalSequence ev s forms) := by
  induction forms with
  | nil => exact frames_pure Value.nil
  | cons form forms ih =>
      obtain ⟨hform, hforms⟩ := List.append_subset.mp h
      have hfirst := (hev form s).mono hform
      cases forms with
      | nil => exact hfirst
      | cons next forms => exact hfirst.bind fun _ => ih hforms

/-! ### Scopes of their own -/

/-- A call works in a new scope inside that of its closure. -/
theorem preserves_apply (hev : ev.Frames) (f : Value) (args : List Value) : Preserves (apply ev f args) := by
  cases f with
  | builtin b => exact preserves_answer (b.call args)
  | closure params body scope =>
      simp only [apply]
      split
      · exact preserves_enclose_bind fun inner => ⟨_, hev body inner⟩
      · exact preserves_fail _
  | _ => exact preserves_fail _

theorem frames_evalBindings (hev : ev.Frames) (items : List Value) :
    ∃ names, Frames s names (evalBindings ev s items) := by
  fun_induction evalBindings ev s items with
  | case1 target form rest name hname ih =>
      obtain ⟨names, hrest⟩ := ih
      have hform := (hev form s).mono (List.subset_append_left _ (name :: names))
      -- Which names are bound does not matter, as long as they are bound in this one scope.
      refine ⟨form.definitions .code ++ name :: names, hform.bind fun v => ?_⟩
      refine (frames_define (by simp) v).bind fun _ => hrest.mono ?_
      exact fun n hn => List.mem_append_right _ (List.mem_cons_of_mem name hn)
  | case2 target form rest hname => exact ⟨[], frames_fail _⟩
  | case3 => exact ⟨[], frames_pure ()⟩

/-- A `let*` list works in a new scope inside the one that it stands in. -/
theorem preserves_evalLet (hev : ev.Frames) (parts : List Value) : Preserves (evalLet ev s parts) := by
  unfold evalLet
  split
  · split
    · rename_i bindings body _ items _
      split
      · refine preserves_enclose_bind fun inner => ?_
        obtain ⟨names, hbindings⟩ := frames_evalBindings hev (s := inner) items
        refine ⟨names ++ body.definitions .code, (hbindings.mono (List.subset_append_left _ _)).bind fun _ => ?_⟩
        exact (hev body inner).mono (List.subset_append_right _ _)
      · exact preserves_fail _
    · exact preserves_fail _
  · exact preserves_fail _

/-! ### Templates -/

mutual

/-- Filling a template binds what the operands in it define. -/
theorem frames_fill (hev : ev.Frames) : ∀ form : Value, Frames s (form.definitions .template) (fill ev s form)
  | .list items => by
      rw [fill]
      split
      · rename_i operand hoperand
        refine (hev operand s).mono (operand_subset_definitions (p := .template) hoperand rfl ?_)
        simp [Position.inList, Position.under, operand?]
      · rename_i hnone
        have hitems : definitionsItems .element items ⊆ definitions .template (.list items) := by
          have hin : Position.inList .template items = .element := by simp [Position.inList, hnone]
          rw [← hin]
          exact items_subset_definitions rfl
        exact ((frames_fillItems hev items).mono hitems).bind fun vs => frames_pure (Value.list vs)
  | .vector items => (frames_fillItems hev items).bind fun vs => frames_pure (Value.vector vs)
  | .marked .quote form => (frames_fill hev form).bind fun v => frames_pure (Value.marked .quote v)
  | .marked .quasiquote form => (frames_fill hev form).bind fun v => frames_pure (Value.marked .quasiquote v)
  | .marked .unquote operand => hev operand s
  | .marked .spliceUnquote _ => frames_fail _
  | .nil | .boolean _ | .integer _ | .float _ | .string _ | .keyword _ | .symbol _ | .map _ | .builtin _
  | .closure _ _ _ => frames_pure _

theorem frames_fillItems (hev : ev.Frames) :
    ∀ items : List Value, Frames s (definitionsItems .element items) (fillItems ev s items)
  | [] => frames_pure []
  | item :: items => by
      have hrest := (frames_fillItems hev items).mono
        (List.subset_append_right (definitions .element item) (definitionsItems .element items))
      rw [fillItems]
      split
      · rename_i operand hoperand
        have hoperand : definitions .code operand ⊆ definitions .element item := by
          refine operand_subset_definitions (p := .element) hoperand rfl ?_
          simp [Position.inList, Position.under, operand?]
        refine ((hev operand s).mono (List.Subset.trans hoperand (List.subset_append_left _ _))).bind fun v => ?_
        split
        · rename_i elements _
          exact hrest.bind fun vs => frames_pure (elements ++ vs)
        · exact frames_fail _
      · rename_i hnone
        have hitem : Frames s (definitions .template item) (fill ev s item) := frames_fill hev item
        rw [← definitions_element hnone] at hitem
        refine (hitem.mono (List.subset_append_left _ _)).bind fun v => ?_
        exact hrest.bind fun vs => frames_pure (v :: vs)

end

/-! ### Forms -/

/-- A special form that is no template and hides no definitions defines what its parts do. -/
theorem special_parts_subset (special : SpecialForm)
    (h : special ≠ .letIn ∧ special ≠ .function ∧ special ≠ .quasiquote) (parts : List Value) :
    definitionsItems .code parts ⊆ definitions .code (.list (.symbol special.name :: parts)) := by
  have hname : ∀ other, special ≠ other → Value.symbol special.name ≠ .symbol other.name := by
    intro other hne heq
    injection heq with heq
    exact hne (SpecialForm.name_injective heq)
  exact List.Subset.trans (List.subset_append_right _ _)
    (parts_subset_definitions (hname _ h.1) (hname _ h.2.1) (hname _ h.2.2))

theorem frames_evalDefine (hev : ev.Frames) (parts : List Value) :
    Frames s (definitions .code (.list (.symbol SpecialForm.define.name :: parts))) (evalDefine ev s parts) := by
  unfold evalDefine
  split
  · rename_i target form
    have hparts := special_parts_subset .define (by decide) [target, form]
    cases htarget : target.symbol? with
    | none => exact frames_fail _
    | some name =>
        obtain rfl : target = .symbol name := by
          cases target <;> simp_all [symbol?]
        have hname : name ∈ definitions .code (.list [.symbol SpecialForm.define.name, .symbol name, form]) := by
          simp [definitions, Position.hides, definedName?, SpecialForm.name]
        refine ((hev form s).mono ?_).bind fun v => (frames_define hname v).bind fun _ => frames_pure v
        exact List.Subset.trans (definitions_subset_items (by simp)) hparts
  · exact frames_fail _

theorem frames_evalConditional (hev : ev.Frames) {parts : List Value} (h : definitionsItems .code parts ⊆ names) :
    Frames s names (evalConditional ev s parts) := by
  have hpart : ∀ part ∈ parts, Frames s names (ev part s) := fun part hmem =>
    (hev part s).mono (List.Subset.trans (definitions_subset_items hmem) h)
  unfold evalConditional
  split
  · refine (hpart _ (by simp)).bind fun v => ?_
    split
    · exact hpart _ (by simp)
    · exact frames_pure _
  · refine (hpart _ (by simp)).bind fun v => ?_
    split
    · exact hpart _ (by simp)
    · exact hpart _ (by simp)
  · exact frames_fail _

theorem frames_evalFunction (parts : List Value) : Frames s names (evalFunction s parts) := by
  unfold evalFunction
  repeat' split
  all_goals first
    | exact frames_fail _
    | exact frames_pure _

theorem frames_evalSpecial (hev : ev.Frames) (parts : List Value) (special : SpecialForm) :
    Frames s (definitions .code (.list (.symbol special.name :: parts))) (evalSpecial ev s parts special) := by
  cases special with
  | define      => exact frames_evalDefine hev parts
  | letIn       => exact (preserves_evalLet hev parts).frames
  | conditional => exact frames_evalConditional hev (special_parts_subset .conditional (by decide) parts)
  | function    => exact frames_evalFunction parts
  | sequence =>
      simp only [evalSpecial]
      split
      · exact frames_fail _
      · exact frames_evalSequence hev (special_parts_subset .sequence (by decide) parts)
  | quote =>
      simp only [evalSpecial]
      split
      · exact frames_pure _
      · exact frames_fail _
  | quasiquote =>
      simp only [evalSpecial]
      split
      · rename_i form
        have hoperand : (Value.list [.symbol Mark.quasiquote.name, form]).operand? .quasiquote = some form :=
          operand?_eq_some_iff.mpr (Or.inr rfl)
        refine (frames_fill hev form).mono (operand_subset_definitions (p := .code) hoperand ?_ ?_)
        · simp [Position.hides, Mark.name, SpecialForm.name]
        · simp [Position.inList, Position.under, hoperand]
      · exact frames_fail _

theorem frames_evalList (hev : ev.Frames) (head : Value) (parts : List Value) :
    Frames s (definitions .code (.list (head :: parts))) (evalList ev s head parts) := by
  unfold evalList
  cases hspecial : specialHead? head with
  | some special =>
      obtain rfl := symbol_of_specialHead? hspecial
      exact frames_evalSpecial hev parts special
  | none =>
      -- A call: the parts are evaluated here, the body is not.
      have hhead : ∀ special : SpecialForm, head ≠ .symbol special.name := by
        rintro special rfl
        simp [specialHead?, symbol?, SpecialForm.ofName?_name] at hspecial
      have hitems : definitionsItems .code (head :: parts) ⊆ definitions .code (.list (head :: parts)) :=
        parts_subset_definitions (hhead .letIn) (hhead .function) (hhead .quasiquote)
      obtain ⟨hsubHead, hsubParts⟩ := List.append_subset.mp hitems
      refine ((hev head s).mono hsubHead).bind fun f => ?_
      exact (frames_evalItems hev hsubParts).bind fun args => (preserves_apply hev f args).frames

/-- **One nesting.** The value of a form is found within the frame if the values of the forms inside it are. -/
theorem frames_evalForm (hev : ev.Frames) : Evaluator.Frames (evalForm ev) := by
  intro form s
  unfold evalForm
  split
  · exact frames_lookup s _
  · rename_i items
    exact (frames_evalItems hev (List.Subset.refl _)).bind fun vs => frames_pure (Value.vector vs)
  · rename_i entries
    exact (frames_evalEntries hev (List.Subset.refl _)).bind fun es => frames_pure (Value.map es)
  · exact frames_evalList hev _ _
  · exact frames_pure _
  · exact frames_fill hev _
  · exact frames_fail _
  · exact frames_pure _

end Eval

theorem frames_eval (depth : Nat) : Evaluator.Frames (eval depth) := by
  induction depth with
  | zero          => exact fun form s => Action.preserves_giveUp.frames
  | succ depth ih => exact Eval.frames_evalForm ih

/-- A `let*` list changes no scope that was there before, not even the one that it stands in. -/
theorem preserves_eval_let (depth : Nat) (parts : List Value) (s : ScopeId) :
    Action.Preserves (eval depth (.list (.symbol SpecialForm.letIn.name :: parts)) s) := by
  cases depth with
  | zero       => exact Action.preserves_giveUp
  | succ depth => exact Eval.preserves_evalLet (frames_eval depth) parts

end SmallLisp
