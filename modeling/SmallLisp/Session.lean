import SmallLisp.Eval
import SmallLisp.Form.Read

/-!
# `SmallLisp.Session` — reading and evaluating in one scope

A session is a store, the scope in it that forms are evaluated in, and a bound on the nesting of evaluation.
Every operation gives its result, the session as it is afterwards and the text printed. After a failure the
session goes on with all that was bound before it.

## Contents
* **Failures** `Failure`, their category and their wording.
* **Sessions.** `Session.empty`, `Session.builtins` and `Session.root`, which also holds the prelude.
* **Operations.** `evaluate`, `evaluateAll`, `call`, `evaluateFirst`, `echo`, `evaluateText`.
-/

namespace SmallLisp

/-- Why an operation of a session has no result. -/
inductive Failure where
  | read (e : ReadError)
  | eval (e : EvalError)
  /-- The evaluation would nest more deeply than the session allows. -/
  | tooDeep

/-- The coarse kinds of failure. -/
inductive Failure.Category where
  /-- A token is bad. -/
  | lexical
  /-- The tokens do not make forms. -/
  | grammar
  /-- A name is not bound. -/
  | lookup
  /-- A value is of the wrong kind, or outside what an operation can do. -/
  | type
  /-- A function has the wrong number of arguments. -/
  | arity
  /-- A special form has the wrong shape. -/
  | shape
  /-- The evaluation nests too deeply. -/
  | depth
  deriving DecidableEq, Repr

namespace Failure

/-- The kind of a failure. -/
def category : Failure → Category
  | read e                      => if e.isLexical then .lexical else .grammar
  | eval (.symbolNotFound _)    => .lookup
  | eval (.notAFunction _)      => .type
  | eval (.wrongType _ _ _)     => .type
  | eval (.divisionByZero _)    => .type
  | eval (.integerOverflow _)   => .type
  | eval (.wrongCount _ _ _)    => .arity
  | eval (.malformed _)         => .shape
  | tooDeep                     => .depth

/-- The failure in words. -/
def message : Failure → String
  | read e  => e.message
  | eval e  => e.message
  | tooDeep => "evaluation nested too deeply"

end Failure

/-- A store, the scope in it where forms are evaluated, and how deeply evaluation may nest. -/
structure Session where
  store : Store
  scope : ScopeId
  limit : Nat

/-- The end of an operation: its result, the session afterwards and the text printed. -/
structure Reply (α : Type) where
  result : Except Failure α
  session : Session
  printed : String

/-- The same reply with its value changed. -/
def Reply.map {α β : Type} (f : α → β) (r : Reply α) : Reply β := ⟨r.result.map f, r.session, r.printed⟩

namespace Session

/-- A session with one empty scope. -/
def empty (limit : Nat) : Session := ⟨Store.empty.newScope none, Store.empty.nextId, limit⟩

/-- Every builtin under its name. -/
def builtinBindings : List (String × Value) := Builtin.all.map fun b => (b.name, .builtin b)

/-- A session with one scope that binds the builtins. -/
def builtins (limit : Nat) : Session :=
  let s := empty limit
  { s with store := s.store.setAll s.scope builtinBindings }

/-! ## Operations -/

variable {α : Type}

/-- Ends at once with a failure. -/
def refuse (s : Session) (f : Failure) : Reply α := ⟨.error f, s, ""⟩

/-- Performs an action in the store of a session. -/
def perform (s : Session) (x : Action α) : Reply α :=
  match x s.store with
  | ⟨.value a, store, text⟩ => ⟨.ok a, { s with store := store }, text⟩
  | ⟨.error e, store, text⟩ => ⟨.error (.eval e), { s with store := store }, text⟩
  | ⟨.tooDeep, store, text⟩ => ⟨.error .tooDeep, { s with store := store }, text⟩

/-- The value of a form. -/
def evaluate (s : Session) (form : Value) : Reply Value := s.perform (eval s.limit form s.scope)

/-- The value of the last of some forms after all before it have been evaluated; nil if there are none. -/
def evaluateAll (s : Session) (forms : List Value) : Reply Value :=
  s.perform (Eval.evalSequence (eval s.limit) s.scope forms)

/-- The value of a call with arguments that have been evaluated. -/
def call (s : Session) (f : Value) (args : List Value) : Reply Value :=
  s.perform (Eval.apply (eval s.limit) f args)

/-- The value of the first form of a text, or nothing where there is none. -/
def evaluateFirst (s : Session) (source : String) : Reply (Option Value) :=
  match Form.read source with
  | .error e          => s.refuse (.read e)
  | .ok none          => ⟨.ok none, s, ""⟩
  | .ok (some form)   => (s.evaluate form).map some

/-- The readable text of the value of the first form of a text. -/
def echo (s : Session) (source : String) : Reply (Option String) :=
  (s.evaluateFirst source).map (Option.map (Value.print true))

/-- The value of the last form of a text. All forms are read before the first is evaluated. -/
def evaluateText (s : Session) (source : String) : Reply Value :=
  match Form.readAll source with
  | .error e  => s.refuse (.read e)
  | .ok forms => s.evaluateAll forms

/-! ## The root -/

/-- What every root scope defines besides the builtins. -/
def prelude : String := "(def! not (fn* (a) (if a false true)))"

/-- A session with one scope that binds the builtins and the prelude. -/
def root (limit : Nat) : Session := ((builtins limit).evaluateText prelude).session

/-- The bound on the nesting of evaluation where nothing else is asked for. -/
def defaultLimit : Nat := 100000

end Session

end SmallLisp
