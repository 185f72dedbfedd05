import SmallLisp.Session
import SmallLisp.Text.Lines

/-!
# `SmallLisp.Program` — whole programs and sequences of lines

A program text is read as a whole and then evaluated in a fresh root scope, where the first failure ends the
run. Lines are read and evaluated one by one in one root scope, and a failure ends only its line.

## Contents
* **Ends of a process** `Exit`.
* **Program files.** `Program.run`, `Program.missing`.
* **Lines.** `Lines.step`, `Lines.steps`, `Lines.run`.
-/

namespace SmallLisp

/-- What a process leaves behind: what it has written and its exit code. -/
structure Exit where
  stdout : String
  stderr : String
  code : Nat
  deriving DecidableEq, Repr

/-- How a failure is reported. -/
def report (message : String) : String := "Error: " ++ message ++ "\n"

namespace Program

/-- Runs a program text in a fresh root scope. -/
def run (limit : Nat) (source : String) : Exit :=
  let reply := (Session.root limit).evaluateText source
  match reply.result with
  | .ok _    => ⟨reply.printed, "", 0⟩
  | .error f => ⟨reply.printed, report f.message, 1⟩

/-- The run of a program file that does not exist. -/
def missing (path : String) : Exit :=
  ⟨"", report ("Failed to read " ++ path ++ "\n\nCaused by:\n    No such file or directory (os error 2)"), 1⟩

end Program

namespace Lines

/-- Reads, evaluates and answers one line: the text printed, then the value or the failure. -/
def step (s : Session) (line : String) : Session × String :=
  let reply := s.echo line
  -- What the evaluation printed comes out before its value, and stays even if it fails.
  let answer :=
    match reply.result with
    | .ok (some text) => text ++ "\n"
    | .ok none        => ""
    | .error f        => report f.message
  (reply.session, reply.printed ++ answer)

/-- Answers some lines, one after the other. -/
def steps (s : Session) : List String → Session × String
  | []            => (s, "")
  | line :: lines =>
    let (next, text) := step s line
    let (last, more) := steps next lines
    (last, text ++ more)

/-- Answers the lines of a whole input in a fresh root scope. -/
def run (limit : Nat) (input : String) : Exit :=
  ⟨(steps (Session.root limit) (Text.lines input)).2, "", 0⟩

end Lines

end SmallLisp
